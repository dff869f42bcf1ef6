import HybridSearch.Proofs.Handle.Exchanges

/-!
# Creating an index

An index that is to be created is kept if it is there, or else it is dropped first and created anew.
It is looked for, dropped, created and searched under one name, so that whatever stood under this
name before, from whichever schema, the index is there afterwards and nothing else is touched but
the documents that are dropped with it.

* `Handle.UsesOneName`: the name under which a handle asks for its index.
* `Handle.Created`: what creating makes of a store.
* `Handle.create_drops_then_creates`: creating an index in any store.
-/
namespace HybridSearch

namespace Handle

variable (h : Handle)

/-- A handle looks for its index, drops it and searches it under the name that stands first in the
creation arguments. -/
structure UsesOneName : Prop where
  created : h.creation.head? = some h.name
  lookedFor : ∀ w, (h.exists? : Action Dialogue Bool).calls w = [.indexExists h.name]
  dropped : ∀ dropDocuments w,
    (h.delete dropDocuments : Action Dialogue Unit).calls w = [.dropIndex h.name dropDocuments]
  searched : ∀ q w, (h.search q : Action Dialogue SearchResults).calls w =
    match q.compile h.schema with
    | .ok compiled => [.search h.name compiled]
    | .error _ => []

theorem usesOneName : h.UsesOneName where
  created := rfl
  lookedFor _ := rfl
  dropped _ _ := rfl
  searched := h.calls_search

/-- What creating an index makes of a store. The index that is there is kept, or replaced together
with the documents that its own arguments cover; the index that is not there is added. -/
inductive Created (s : Store) : (overwrite dropDocuments : Bool) → Store → Prop
  | kept (hpresent : s.hasIndex h.name = true) (dropDocuments : Bool) :
    Created s false dropDocuments s
  | added (habsent : s.hasIndex h.name = false) (overwrite dropDocuments : Bool) :
    Created s overwrite dropDocuments { s with indexes := s.indexes ++ [(h.name, h.creation)] }
  | replaced {arguments : List String} (hfound : lookUp? h.name s.indexes = some arguments)
    (dropDocuments : Bool) :
    Created s true dropDocuments
      { s with
        indexes := (s.indexes.filter fun pair => pair.1 != h.name) ++ [(h.name, h.creation)]
        documents :=
          if dropDocuments then
            s.documents.filter fun pair => !Store.covers (Store.coveredPrefixes arguments) pair.1
          else s.documents }

variable {h} {s s' : Store} {overwrite dropDocuments : Bool}

theorem created_perform_create (overwrite dropDocuments : Bool) (w : World) :
    h.Created w.store overwrite dropDocuments
      ((h.create overwrite dropDocuments).perform w).2.store := by
  have hcreate := (h.perform_create overwrite dropDocuments w).2
  cases hfound : lookUp? h.name w.store.indexes with
  | none =>
    have habsent : w.store.hasIndex h.name = false := by rw [Store.hasIndex, hfound]; rfl
    rw [h.perform_create_of_absent habsent]
    exact .added habsent overwrite dropDocuments
  | some arguments =>
    have hpresent : w.store.hasIndex h.name = true := by rw [Store.hasIndex, hfound]; rfl
    rw [hcreate, hpresent]
    cases overwrite with
    | false => exact .kept hpresent dropDocuments
    | true =>
      have hreplaced := Created.replaced (h := h) hfound dropDocuments
      simp only [Store.dropIndex, hfound]
      cases dropDocuments with
      | false => exact hreplaced
      | true => exact hreplaced

/-- The entry of the index is the creation arguments of the handle, unless an entry is kept. -/
theorem Created.lookUp?_name (hs : h.Created s overwrite dropDocuments s') :
    lookUp? h.name s'.indexes =
      if s.hasIndex h.name && !overwrite then lookUp? h.name s.indexes else some h.creation := by
  cases hs with
  | kept hpresent => rw [hpresent]; rfl
  | added habsent =>
    have hnone : lookUp? h.name s.indexes = none := by simpa [Store.hasIndex] using habsent
    rw [habsent]
    exact lookUp?_append_of_absent hnone h.creation
  | replaced hfound =>
    have hgone : lookUp? h.name (s.indexes.filter fun pair => pair.1 != h.name) = none := by
      simp [lookUp?_eq_none_iff]
    rw [Bool.not_true, Bool.and_false]
    exact lookUp?_append_of_absent hgone h.creation

theorem Created.hasIndex (hs : h.Created s overwrite dropDocuments s') :
    s'.hasIndex h.name = true := by
  have hentry := hs.lookUp?_name
  rw [Store.hasIndex, hentry]
  split
  · rename_i hkept
    exact (Bool.and_eq_true_iff.mp hkept).1
  · rfl

theorem Created.others (hs : h.Created s overwrite dropDocuments s') :
    (s'.indexes.filter fun pair => pair.1 != h.name) =
      s.indexes.filter fun pair => pair.1 != h.name := by
  cases hs with
  | kept hpresent => rfl
  | added habsent => simp
  | replaced hfound => simp

theorem Created.sameTraffic (hs : h.Created s overwrite dropDocuments s') : s.SameTraffic s' := by
  cases hs <;> exact ⟨rfl, rfl⟩

/-- To create an index over one that may be there is to delete that one, whether this succeeds or
not, and then to create it. -/
theorem store_delete_create (dropDocuments again : Bool) (w : World) :
    let deleted := ((h.delete dropDocuments).perform w).2
    ((h.create false again).perform deleted).2.store =
      ((h.create true dropDocuments).perform w).2.store := by
  intro deleted
  have hdeleted : deleted.store = (w.store.dropIndex h.name dropDocuments).2 :=
    congrArg (fun step => step.2.store) (h.perform_delete dropDocuments w)
  have habsent : deleted.store.hasIndex h.name = false := by
    rw [hdeleted]
    exact Store.hasIndex_dropIndex h.name dropDocuments w.store
  rw [h.perform_create_of_absent habsent, (h.perform_create true dropDocuments w).2, hdeleted,
    Bool.not_true, Bool.and_false]
  rfl

variable (h)

/-- Creating an index succeeds in every store, and the index is there afterwards; to create it again
changes nothing. An index that was there is kept, or else it is deleted and created as after a
deletion, so that the documents go that its former arguments cover, if they are to be dropped. The
other indexes, the recorded searches and the waiting replies stay as they are. -/
theorem create_drops_then_creates (overwrite dropDocuments : Bool) (w : World) :
    let created := (h.create overwrite dropDocuments).perform w
    let deleted := (h.delete dropDocuments).perform w
    h.UsesOneName ∧
      created.1 = .ok () ∧
      (h.exists?.perform created.2).1 = .ok true ∧
      (∀ again,
        (h.create false again).perform created.2 =
          (.ok (), created.2.note (.operated .info true))) ∧
      h.Created w.store overwrite dropDocuments created.2.store ∧
      lookUp? h.name created.2.store.indexes =
        (if w.store.hasIndex h.name && !overwrite then lookUp? h.name w.store.indexes
          else some h.creation) ∧
      (w.store.hasIndex h.name = true → deleted.1 = .ok ()) ∧
      (overwrite = true → ∀ again,
        ((h.create false again).perform deleted.2).1 = .ok () ∧
          ((h.create false again).perform deleted.2).2.store = created.2.store) ∧
      (created.2.store.indexes.filter fun pair => pair.1 != h.name) =
        (w.store.indexes.filter fun pair => pair.1 != h.name) ∧
      w.store.SameTraffic created.2.store := by
  intro created deleted
  have hcreated : h.Created w.store overwrite dropDocuments created.2.store :=
    created_perform_create overwrite dropDocuments w
  have hexists : (h.exists?.perform created.2).1 = .ok true := by
    rw [h.perform_exists?, hcreated.hasIndex]
  refine ⟨h.usesOneName, (h.perform_create overwrite dropDocuments w).1, hexists,
    h.perform_create_of_present hcreated.hasIndex, hcreated, hcreated.lookUp?_name,
    fun hpresent => ?_, fun hoverwrite again => ?_, hcreated.others, hcreated.sameTraffic⟩
  · exact (congrArg Prod.fst (h.perform_delete dropDocuments w)).trans
      (Store.dropIndex_of_present hpresent dropDocuments)
  · subst hoverwrite
    exact ⟨(h.perform_create false again deleted.2).1, store_delete_create dropDocuments again w⟩

end Handle
end HybridSearch
