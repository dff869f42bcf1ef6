import HybridSearch.Handle
import HybridSearch.Store

/-!
# Operations on a store

What the operations of handles answer when the engine is a store in memory, and what they leave of
the store and the metrics.

* `World`, `Action.perform`: an operation as a step from one world to the next.
* `Handle.perform_create`, `Handle.perform_delete`: the index as a whole.
* `Handle.perform_loadWith`, `Handle.perform_fetch`: documents.
* `Access.store_performAll`: what loads and fetches leave as it was.
-/
namespace HybridSearch

/-- A store, and what has been noted so far. -/
structure World where
  store : Store
  metrics : Metrics

namespace World

def note (w : World) (e : Event) : World :=
  { w with metrics := w.metrics.record e }

@[simp] theorem store_note (w : World) (e : Event) : (w.note e).store = w.store := rfl

end World

namespace Action

variable {α β : Type}

/-- What an operation answers, and the world that it leaves. -/
def perform (action : Action (StateM Store) α) (w : World) : Except EngineError α × World :=
  let outcome := (action.run.run w.metrics).run w.store
  (outcome.1.1, ⟨outcome.2, outcome.1.2⟩)

theorem perform_bind (action : Action (StateM Store) α) (next : α → Action (StateM Store) β)
    (w : World) :
    (action >>= next).perform w =
      match action.perform w with
      | (.ok a, w') => (next a).perform w'
      | (.error e, w') => (.error e, w') := by
  simp only [perform, ExceptT.run_bind, StateT.run_bind]
  rcases (action.run.run w.metrics).run w.store with ⟨⟨answer, metrics⟩, store⟩
  cases answer with
  | ok a => rfl
  | error e => rfl

theorem perform_counted (operation : Operation) (call : StateM Store (Except EngineError α))
    (w : World) :
    (counted operation call).perform w =
      ((call w.store).1,
        World.note ⟨(call w.store).2, w.metrics⟩ (.operated operation (call w.store).1.isOk)) :=
  rfl

end Action

/-! ## The index as a whole -/

namespace Store

theorem hasIndex_dropIndex (name : String) (dropDocuments : Bool) (s : Store) :
    (s.dropIndex name dropDocuments).2.hasIndex name = false := by
  have hgone : (lookUp? name (s.indexes.filter fun pair => pair.1 != name)).isSome = false := by
    simp [lookUp?]
  rw [dropIndex]
  cases hfound : lookUp? name s.indexes with
  | none => simp [hasIndex, hfound]
  | some arguments => cases dropDocuments <;> exact hgone

theorem dropIndex_of_present {name : String} {s : Store} (hpresent : s.hasIndex name = true)
    (dropDocuments : Bool) : (s.dropIndex name dropDocuments).1 = .ok () := by
  obtain ⟨arguments, hfound⟩ := Option.isSome_iff_exists.mp hpresent
  simp only [dropIndex, hfound]

end Store

namespace Handle

variable (h : Handle)

theorem creation_eq_cons : ∃ rest, h.creation = h.name :: rest :=
  ⟨_, rfl⟩

theorem perform_exists? (w : World) :
    h.exists?.perform w =
      (.ok (w.store.hasIndex h.name), w.note (.operated .info true)) :=
  rfl

theorem perform_delete (dropDocuments : Bool) (w : World) :
    (h.delete dropDocuments).perform w =
      ((w.store.dropIndex h.name dropDocuments).1,
        World.note ⟨(w.store.dropIndex h.name dropDocuments).2, w.metrics⟩
          (.operated .drop (w.store.dropIndex h.name dropDocuments).1.isOk)) :=
  Action.perform_counted .drop (Store.dropIndex h.name dropDocuments) w

theorem createIndex_creation {s : Store} (habsent : s.hasIndex h.name = false) :
    s.createIndex h.creation =
      (.ok (), { s with indexes := s.indexes ++ [(h.name, h.creation)] }) := by
  obtain ⟨rest, hcreation⟩ := h.creation_eq_cons
  rw [hcreation, Store.createIndex]
  exact if_neg (by rw [habsent]; decide)

theorem perform_create_of_absent {w : World} (habsent : w.store.hasIndex h.name = false)
    (overwrite dropDocuments : Bool) :
    (h.create overwrite dropDocuments).perform w =
      (.ok (), World.note
        ((World.note
          ⟨{ w.store with indexes := w.store.indexes ++ [(h.name, h.creation)] }, w.metrics⟩
          (.operated .info true)))
        (.operated .create true)) := by
  rw [create, Action.perform_bind, perform_exists?, habsent]
  have hcounted := Action.perform_counted .create (Store.createIndex h.creation)
    (w.note (.operated .info true))
  rw [World.store_note, h.createIndex_creation habsent] at hcounted
  exact hcounted

theorem perform_create_of_present {w : World} (hpresent : w.store.hasIndex h.name = true)
    (dropDocuments : Bool) :
    (h.create false dropDocuments).perform w = (.ok (), w.note (.operated .info true)) := by
  rw [create, Action.perform_bind, perform_exists?, hpresent]
  rfl

/-- Creating an index succeeds. One that is there is kept, or else dropped first; then the arguments
of the schema are recorded under the name. -/
theorem perform_create (overwrite dropDocuments : Bool) (w : World) :
    let emptied := (w.store.dropIndex h.name dropDocuments).2
    ((h.create overwrite dropDocuments).perform w).1 = .ok () ∧
      ((h.create overwrite dropDocuments).perform w).2.store =
        if w.store.hasIndex h.name && !overwrite then w.store
        else { emptied with indexes := emptied.indexes ++ [(h.name, h.creation)] } := by
  intro emptied
  cases hpresent : w.store.hasIndex h.name with
  | false =>
    have habsent : lookUp? h.name w.store.indexes = none := by
      simpa [Store.hasIndex] using hpresent
    have hemptied : emptied = w.store := by
      simp only [emptied, Store.dropIndex, habsent]
    rw [h.perform_create_of_absent hpresent, hemptied]
    exact ⟨rfl, rfl⟩
  | true =>
    cases overwrite with
    | false =>
      rw [h.perform_create_of_present hpresent]
      exact ⟨rfl, rfl⟩
    | true =>
      have hdropped := Store.dropIndex_of_present hpresent dropDocuments
      have hdelete := h.perform_delete dropDocuments (w.note (.operated .info true))
      rw [World.store_note, hdropped] at hdelete
      have hcreated := h.createIndex_creation
        (Store.hasIndex_dropIndex h.name dropDocuments w.store)
      have hcounted := Action.perform_counted .create (Store.createIndex h.creation)
        (World.note ⟨emptied, (w.note (.operated .info true)).metrics⟩ (.operated .drop true))
      rw [World.store_note, hcreated] at hcounted
      have hrun : (h.create true dropDocuments).perform w =
          ((h.delete dropDocuments >>= fun _ =>
            Action.counted .create (Engine.createIndex h.creation)).perform
              (w.note (.operated .info true))) := by
        rw [create, Action.perform_bind, perform_exists?, hpresent]
        rfl
      rw [hrun, Action.perform_bind, hdelete]
      exact ⟨congrArg Prod.fst hcounted, congrArg (fun step => step.2.store) hcounted⟩

/-! ## Documents -/

theorem perform_loadWith (records : List Record) (keyField : String)
    (preprocess : Record → Record) (w : World) :
    (h.loadWith records keyField preprocess).perform w =
      match h.schema.documents keyField (records.map preprocess) with
      | .error (position, fault) => (.error (.invalidRecord position fault), w)
      | .ok documents =>
        ((w.store.load documents).1.map fun _ => documents.map fun d => d.key,
          World.note ⟨(w.store.load documents).2, w.metrics⟩
            (.operated .load (w.store.load documents).1.isOk)) := by
  rw [loadWith]
  cases h.schema.documents keyField (records.map preprocess) with
  | error fault => rfl
  | ok documents =>
    have hcounted :
        (Action.counted .load (Engine.load documents) : Action (StateM Store) Unit).perform w =
          ((w.store.load documents).1, World.note ⟨(w.store.load documents).2, w.metrics⟩
            (.operated .load (w.store.load documents).1.isOk)) :=
      Action.perform_counted .load (Store.load documents) w
    dsimp only
    rw [Action.perform_bind, hcounted]
    cases (w.store.load documents).1 with
    | ok _ => rfl
    | error _ => rfl

theorem perform_fetch (id : String) (w : World) :
    (h.fetch id).perform w =
      (w.store.fetch (h.key id) h.schema.storage,
        w.note (.operated .fetch (w.store.fetch (h.key id) h.schema.storage).isOk)) :=
  rfl

end Handle

namespace Store

/-- Loading changes nothing but documents, whether it succeeds or not. -/
theorem load_frame (documents : List Document) (s : Store) :
    ∃ stored, (s.load documents).2 = { s with documents := stored } := by
  induction documents generalizing s with
  | nil => exact ⟨s.documents, rfl⟩
  | cons d rest ih =>
    rw [load]
    cases mergeBody? (lookUp? d.key s.documents) d.body with
    | none => exact ⟨s.documents, rfl⟩
    | some body => exact ih { s with documents := putAt d.key body s.documents }

end Store

inductive Access where
  | load (h : Handle) (records : List Record) (keyField : String) (preprocess : Record → Record)
  | fetch (h : Handle) (id : String)
  | write (documents : List Document)
  | read (key : String) (storage : Storage)

namespace Access

/-- The world after a load or a fetch, whether it succeeds or not. -/
def perform : Access → World → World
  | load h records keyField preprocess, w =>
    ((h.loadWith records keyField preprocess).perform w).2
  | fetch h id, w => ((h.fetch id).perform w).2
  | write documents, w => { w with store := (w.store.load documents).2 }
  | read _ _, w => w

def performAll (accesses : List Access) (w : World) : World :=
  accesses.foldl (fun w access => access.perform w) w

theorem store_perform (access : Access) (w : World) :
    ∃ stored, (access.perform w).store = { w.store with documents := stored } := by
  cases access with
  | load h records keyField preprocess =>
    rw [perform, Handle.perform_loadWith]
    cases h.schema.documents keyField (records.map preprocess) with
    | error fault => exact ⟨w.store.documents, rfl⟩
    | ok documents => exact w.store.load_frame documents
  | fetch h id =>
    rw [perform, Handle.perform_fetch]
    exact ⟨w.store.documents, rfl⟩
  | write documents => exact w.store.load_frame documents
  | read key storage => exact ⟨w.store.documents, rfl⟩

/-- Loads and fetches change nothing of a store but documents. -/
theorem store_performAll (accesses : List Access) (w : World) :
    ∃ stored, (performAll accesses w).store = { w.store with documents := stored } := by
  induction accesses generalizing w with
  | nil => exact ⟨w.store.documents, rfl⟩
  | cons access rest ih =>
    obtain ⟨stored, hfirst⟩ := access.store_perform w
    obtain ⟨later, hrest⟩ := ih (access.perform w)
    refine ⟨later, ?_⟩
    rw [hfirst] at hrest
    exact hrest

end Access
end HybridSearch
