import HybridSearch.Proofs.Document.Validity
import HybridSearch.Proofs.Handle.Session
import Mathlib.Order.Lattice.Nat

/-!
# Loading a batch

A batch of records is written as a whole or not at all. What an engine is asked meanwhile is seen
through an engine that writes down each call before it passes it on.

* `EngineCall`, `Recording`: engines that write down what they are asked.
* `Action.trace`: an operation as a step between worlds, with the calls made on the way.
* `Handle.Loading`: the two ways in which loading a batch can go.
* `Handle.loadWith_all_or_nothing`: it goes one of these two ways.
-/
namespace HybridSearch

/-! ## Engines that write down what they are asked -/

inductive EngineCall where
  | createIndex (arguments : List String)
  | dropIndex (name : String) (dropDocuments : Bool)
  | indexExists (name : String)
  | search (index : String) (query : CompiledQuery)
  | load (documents : List Document)
  | fetch (key : String) (storage : Storage)

/-- An engine's monad with the calls so far, the oldest first. -/
abbrev Recording (m : Type → Type) := StateT (List EngineCall) m

namespace Recording

variable {m : Type → Type} [Monad m]

def passOn {α : Type} (call : EngineCall) (answer : m α) : Recording m α := do
  modify fun calls => calls ++ [call]
  StateT.lift answer

instance [Engine m] : Engine (Recording m) where
  createIndex arguments := passOn (.createIndex arguments) (Engine.createIndex arguments)
  dropIndex name dropDocuments :=
    passOn (.dropIndex name dropDocuments) (Engine.dropIndex name dropDocuments)
  indexExists name := passOn (.indexExists name) (Engine.indexExists name)
  search index query := passOn (.search index query) (Engine.search index query)
  load documents := passOn (.load documents) (Engine.load documents)
  fetch key storage := passOn (.fetch key storage) (Engine.fetch key storage)

end Recording

namespace Action

variable {α β : Type}

/-- What an operation answers, the world that it leaves, and what it asks the store. -/
def trace (action : Action (Recording (StateM Store)) α) (w : World) (calls : List EngineCall) :
    (Except EngineError α × World) × List EngineCall :=
  let outcome := ((action.run.run w.metrics).run calls).run w.store
  ((outcome.1.1.1, ⟨outcome.2, outcome.1.1.2⟩), outcome.1.2)

theorem trace_bind (action : Action (Recording (StateM Store)) α)
    (next : α → Action (Recording (StateM Store)) β) (w : World) (calls : List EngineCall) :
    (action >>= next).trace w calls =
      match action.trace w calls with
      | ((.ok a, w'), calls') => (next a).trace w' calls'
      | ((.error e, w'), calls') => ((.error e, w'), calls') := by
  simp only [trace, ExceptT.run_bind, StateT.run_bind]
  rcases ((action.run.run w.metrics).run calls).run w.store with
    ⟨⟨⟨answer, metrics⟩, calls'⟩, store⟩
  cases answer with
  | ok a => rfl
  | error e => rfl

/-- A call is written down, and answered as without the writing. -/
theorem trace_counted_passOn (operation : Operation) (call : EngineCall)
    (answer : StateM Store (Except EngineError α)) (w : World) (calls : List EngineCall) :
    (counted operation (Recording.passOn call answer)).trace w calls =
      ((counted operation answer).perform w, calls ++ [call]) :=
  rfl

end Action

/-! ## Loading -/

namespace Handle

variable (h : Handle)

theorem trace_loadWith (records : List Record) (keyField : String)
    (preprocess : Record → Record) (w : World) :
    (h.loadWith records keyField preprocess).trace w [] =
      ((h.loadWith records keyField preprocess).perform w,
        match h.schema.documents keyField (records.map preprocess) with
        | .error _ => []
        | .ok documents => [.load documents]) := by
  rw [loadWith, loadWith]
  cases h.schema.documents keyField (records.map preprocess) with
  | error fault => rfl
  | ok documents =>
    have hcounted :
        (Action.counted .load (Engine.load documents) :
          Action (Recording (StateM Store)) Unit).trace w [] =
          ((Action.counted .load (Engine.load documents)).perform w, [.load documents]) :=
      Action.trace_counted_passOn .load (.load documents) (Engine.load documents) w []
    dsimp only
    rw [Action.perform_bind, Action.trace_bind, hcounted]
    rcases (Action.counted .load (Engine.load documents)).perform w with ⟨answer, w'⟩
    cases answer with
    | ok a => rfl
    | error e => rfl

/-- The two ways in which loading a batch of records can go: what it answers, the world that it
leaves, and what it asks the store. -/
inductive Loading (keyField : String) (given : List Record) (w : World) :
    Except EngineError (List String) × World → List EngineCall → Prop
  /-- The first invalid record is at fault, and nothing is asked, written or noted. -/
  | refused {position : Nat} {r : Record} {fault : RecordFault}
    (hleast : IsLeast (h.schema.invalidPositions keyField given) position)
    (hr : given[position]? = some r) (hfault : h.schema.document keyField r = .error fault)
    (hempty : fault ≠ .empty) :
    Loading keyField given w (.error (.invalidRecord position fault), w) []
  /-- The documents of the records are written at once. -/
  | written {documents : List Document}
    (hvalid : h.schema.invalidPositions keyField given = ∅)
    (hdocuments : List.Forall₂ (h.schema.DocumentOf keyField) given documents) :
    Loading keyField given w
      ((w.store.load documents).1.map fun _ => documents.map fun d => d.key,
        World.note ⟨(w.store.load documents).2, w.metrics⟩
          (.operated .load (w.store.load documents).1.isOk))
      [.load documents]

/-- A batch of records is written as a whole, with a single call, or not at all, if one of its
records is invalid. Writing down the calls changes nothing, and no record is refused for want of
attributes. -/
theorem loadWith_all_or_nothing (records : List Record) (keyField : String)
    (preprocess : Record → Record) (w : World) :
    (∃ calls,
      (h.loadWith records keyField preprocess).trace w [] =
        ((h.loadWith records keyField preprocess).perform w, calls) ∧
      h.Loading keyField (records.map preprocess) w
        ((h.loadWith records keyField preprocess).perform w) calls) ∧
    ∀ r, h.schema.document keyField r ≠ .error .empty := by
  refine ⟨⟨_, h.trace_loadWith records keyField preprocess w, ?_⟩,
    fun r => Schema.document_ne_error_empty⟩
  rw [perform_loadWith, Schema.documents]
  rcases (h.schema.invalidPositions keyField (records.map preprocess)).eq_empty_or_nonempty with
    hvalid | ⟨position, hposition⟩
  · obtain ⟨documents, hok, hdocuments⟩ := Schema.documentsFrom_eq_ok hvalid 0
    rw [hok]
    exact .written hvalid hdocuments
  · have hleast : IsLeast (h.schema.invalidPositions keyField (records.map preprocess))
        (sInf (h.schema.invalidPositions keyField (records.map preprocess))) :=
      isLeast_csInf ⟨position, hposition⟩
    obtain ⟨r, fault, hr, hfault, herror⟩ := Schema.documentsFrom_eq_error hleast 0
    rw [herror, Nat.zero_add]
    refine .refused hleast hr hfault fun hempty => ?_
    exact Schema.document_ne_error_empty (hempty ▸ hfault)

end Handle
end HybridSearch
