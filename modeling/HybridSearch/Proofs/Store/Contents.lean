import HybridSearch.Proofs.Named
import HybridSearch.Store

/-!
# The contents of a store

What is found under a key once values have been put under keys, and what of a store is left when
only the keys with some property are looked at.

* `lookUp?_putAt_self`, `lookUp?_putAt_of_ne`, `filter_putAt`: one value put under one key.
* `Store.lookUp?_mergeAttributes`: attributes written into others.
* `Store.lookUp?_load`: the contents under a key after documents have been written.
* `Store.load_of_filter`: writing documents as seen from keys with a property that theirs have.
* `Store.fetch_congr`: what is fetched.
-/
namespace HybridSearch

/-! ## Values under keys -/

section Pairs

variable {α : Type} {key other : String} {value : α} {pairs : List (String × α)}

theorem lookUp?_cons (pair : String × α) :
    lookUp? key (pair :: pairs) = if pair.1 = key then some pair.2 else lookUp? key pairs := by
  by_cases h : pair.1 = key
  · simp [lookUp?, h]
  · simp [lookUp?, h, beq_false_of_ne h]

theorem lookUp?_eq_none_iff : lookUp? key pairs = none ↔ ∀ pair ∈ pairs, pair.1 ≠ key := by
  simp [lookUp?]

theorem lookUp?_append_of_absent (h : lookUp? key pairs = none) (value : α) :
    lookUp? key (pairs ++ [(key, value)]) = some value := by
  have hfind : pairs.find? (fun pair => pair.1 == key) = none := by
    rwa [lookUp?, Option.map_eq_none_iff] at h
  rw [lookUp?, List.find?_append, hfind]
  simp

theorem filter_of_absent (h : lookUp? key pairs = none) :
    pairs.filter (fun pair => pair.1 != key) = pairs := by
  rw [List.filter_eq_self]
  intro pair hpair
  simpa using lookUp?_eq_none_iff.mp h pair hpair

theorem mem_of_lookUp?_eq_some (h : lookUp? key pairs = some value) : (key, value) ∈ pairs := by
  obtain ⟨⟨found, _⟩, hfind, rfl⟩ := Option.map_eq_some_iff.mp h
  obtain rfl : found = key := by simpa using List.find?_some hfind
  exact List.mem_of_find?_eq_some hfind

theorem lookUp?_eq_some_iff (hnodup : (pairs.map Prod.fst).Nodup) :
    lookUp? key pairs = some value ↔ (key, value) ∈ pairs := by
  refine ⟨mem_of_lookUp?_eq_some, fun hmem => ?_⟩
  rw [lookUp?, (find?_named_eq_some_iff hnodup).mpr ⟨hmem, rfl⟩]
  rfl

theorem lookUp?_putAt_self : lookUp? key (putAt key value pairs) = some value := by
  induction pairs with
  | nil => rw [putAt, lookUp?_cons, if_pos rfl]
  | cons pair rest ih =>
    rw [putAt]
    split
    · rw [lookUp?_cons, if_pos rfl]
    · rename_i hne
      rw [lookUp?_cons, if_neg hne, ih]

theorem mem_putAt {pair : String × α} (h : pair ∈ putAt key value pairs) :
    pair = (key, value) ∨ pair ∈ pairs := by
  induction pairs with
  | nil => exact .inl (List.mem_singleton.mp h)
  | cons first rest ih =>
    rw [putAt] at h
    split at h
    · rcases List.mem_cons.mp h with h | h
      · exact .inl h
      · exact .inr (List.mem_cons_of_mem _ h)
    · rcases List.mem_cons.mp h with rfl | h
      · exact .inr List.mem_cons_self
      · exact (ih h).imp_right (List.mem_cons_of_mem _)

theorem nodup_putAt (h : (pairs.map Prod.fst).Nodup) :
    ((putAt key value pairs).map Prod.fst).Nodup := by
  induction pairs with
  | nil => exact List.nodup_singleton _
  | cons first rest ih =>
    rw [List.map_cons, List.nodup_cons] at h
    rw [putAt]
    split
    · rename_i heq
      rw [List.map_cons, List.nodup_cons]
      exact ⟨heq ▸ h.1, h.2⟩
    · rename_i hne
      rw [List.map_cons, List.nodup_cons]
      refine ⟨fun hmem => ?_, ih h.2⟩
      obtain ⟨pair, hpair, hname⟩ := List.mem_map.mp hmem
      rcases mem_putAt hpair with rfl | hrest
      · exact hne hname.symm
      · exact h.1 (List.mem_map.mpr ⟨pair, hrest, hname⟩)

variable {p : String → Bool}

theorem lookUp?_filter (h : p key = true) :
    lookUp? key (pairs.filter fun pair => p pair.1) = lookUp? key pairs := by
  induction pairs with
  | nil => rfl
  | cons pair rest ih =>
    rw [List.filter_cons, lookUp?_cons]
    by_cases hkey : pair.1 = key
    · rw [if_pos (hkey ▸ h), lookUp?_cons, if_pos hkey, if_pos hkey]
    · rw [if_neg hkey, ← ih]
      split
      · rw [lookUp?_cons, if_neg hkey]
      · rfl

theorem filter_putAt (h : p key = true) :
    ((putAt key value pairs).filter fun pair => p pair.1) =
      putAt key value (pairs.filter fun pair => p pair.1) := by
  induction pairs with
  | nil => simp [putAt, h]
  | cons pair rest ih =>
    rw [putAt]
    by_cases hkey : pair.1 = key
    · rw [if_pos hkey, List.filter_cons, if_pos h, List.filter_cons, if_pos (hkey ▸ h), putAt,
        if_pos hkey]
    · rw [if_neg hkey, List.filter_cons, List.filter_cons, ih]
      split
      · rw [putAt, if_neg hkey]
      · rfl

theorem filter_putAt_of_not (h : p key = false) :
    ((putAt key value pairs).filter fun pair => p pair.1) =
      pairs.filter fun pair => p pair.1 := by
  have hnot : ¬p key = true := by rw [h]; exact Bool.false_ne_true
  induction pairs with
  | nil => simp [putAt, h]
  | cons pair rest ih =>
    rw [putAt]
    by_cases hkey : pair.1 = key
    · rw [if_pos hkey, List.filter_cons, if_neg hnot, List.filter_cons, if_neg (hkey ▸ hnot)]
    · rw [if_neg hkey, List.filter_cons, List.filter_cons, ih]

end Pairs

namespace Store

/-! ## Attributes -/

section Attributes

variable {stored written : Attributes}

theorem nodup_mergeAttributes (h : (stored.map Prod.fst).Nodup) :
    ((mergeAttributes stored written).map Prod.fst).Nodup := by
  rw [mergeAttributes]
  induction written generalizing stored with
  | nil => exact h
  | cons pair rest ih => exact ih (nodup_putAt h)

end Attributes

/-! ## Documents -/

variable {s : Store}

theorem load_cons (d : Document) (rest : List Document) (s : Store) :
    s.load (d :: rest) =
      match mergeBody? (lookUp? d.key s.documents) d.body with
      | none => (.error (.command (.holdsJson d.key)), s)
      | some body => load rest { s with documents := putAt d.key body s.documents } :=
  rfl

theorem load_singleton {d : Document} {body : Body}
    (h : mergeBody? (lookUp? d.key s.documents) d.body = some body) :
    s.load [d] = (.ok (), { s with documents := putAt d.key body s.documents }) := by
  rw [load_cons, h]
  rfl

/-- Documents cannot be written only where attributes meet a JSON value. -/
theorem load_eq_error {documents : List Document} {e : EngineError}
    (h : (s.load documents).1 = .error e) : ∃ key, e = .command (.holdsJson key) := by
  induction documents generalizing s with
  | nil => cases h
  | cons d rest ih =>
    rw [load_cons] at h
    cases hmerged : mergeBody? (lookUp? d.key s.documents) d.body with
    | none =>
      rw [hmerged] at h
      exact ⟨d.key, (Except.error.inj h).symm⟩
    | some body =>
      rw [hmerged] at h
      exact ih h

/-- Documents under keys with a property are written as if no other keys were there. -/
theorem load_of_filter {p : String → Bool} {documents : List Document}
    (h : ∀ d ∈ documents, p d.key = true) {t : Store}
    (ht : t.documents = s.documents.filter fun pair => p pair.1) :
    t.load documents =
      ((s.load documents).1,
        { t with documents := (s.load documents).2.documents.filter fun pair => p pair.1 }) := by
  induction documents generalizing s t with
  | nil => exact congrArg (Prod.mk _) (ht ▸ rfl)
  | cons d rest ih =>
    obtain ⟨hd, hrest⟩ := List.forall_mem_cons.mp h
    rw [load_cons, load_cons, ht, lookUp?_filter hd]
    cases mergeBody? (lookUp? d.key s.documents) d.body with
    | none => exact congrArg (Prod.mk _) (ht ▸ rfl)
    | some body => exact ih hrest (filter_putAt hd).symm

/-- Documents under keys without a property leave what is stored under keys that have it. -/
theorem filter_load_of_not {p : String → Bool} {documents : List Document}
    (h : ∀ d ∈ documents, p d.key = false) (s : Store) :
    ((s.load documents).2.documents.filter fun pair => p pair.1) =
      s.documents.filter fun pair => p pair.1 := by
  induction documents generalizing s with
  | nil => rfl
  | cons d rest ih =>
    obtain ⟨hd, hrest⟩ := List.forall_mem_cons.mp h
    rw [load_cons]
    cases mergeBody? (lookUp? d.key s.documents) d.body with
    | none => rfl
    | some body =>
      exact (ih hrest { s with documents := putAt d.key body s.documents }).trans
        (filter_putAt_of_not hd)

/-- What is fetched hangs on the contents under the key alone. -/
theorem fetch_congr {s' : Store} {key : String}
    (h : lookUp? key s.documents = lookUp? key s'.documents) (storage : Storage) :
    s.fetch key storage = s'.fetch key storage := by
  unfold fetch
  rw [h]

theorem fetch_of_hash {key : String} {attributes : Attributes}
    (h : lookUp? key s.documents = some (.hash attributes)) :
    s.fetch key .hash = .ok (some ⟨key, attributes⟩) := by
  unfold fetch
  rw [h]

end Store
end HybridSearch
