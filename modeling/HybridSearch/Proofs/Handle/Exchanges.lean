import HybridSearch.Proofs.Handle.Interleaving
import HybridSearch.Proofs.Handle.Questions

/-!
# Exchanges with a store

What an operation asks a store, call by call, and what the store answers to each call.

* `Exchange`, `Action.exchanges`: the calls of an operation with their answers.
* `Action.Follows.exchanges_bind`: what is asked by one operation after another.
* `Handle.calls_create`, `Handle.exchanges_search`: the calls of single operations.
-/
namespace HybridSearch

/-! ## Calls with their answers -/

namespace EngineCall

def isOk : (call : EngineCall) → call.Answer → Bool
  | createIndex _, answer => Except.isOk answer
  | dropIndex _ _, answer => Except.isOk answer
  | indexExists _, answer => Except.isOk answer
  | search _ _, answer => Except.isOk answer
  | load _, answer => Except.isOk answer
  | fetch _ _, answer => Except.isOk answer

/-- The operation as which a call is counted. Searches are counted apart. -/
def operation? : EngineCall → Option Operation
  | createIndex _ => some .create
  | dropIndex _ _ => some .drop
  | indexExists _ => some .info
  | search _ _ => none
  | load _ => some .load
  | fetch _ _ => some .fetch

end EngineCall

/-- A call to a store and its answer. -/
structure Exchange where
  call : EngineCall
  answer : call.Answer

def Exchange.succeeded (e : Exchange) : Bool :=
  e.call.isOk e.answer

namespace Dialogue

variable {α β : Type}

/-- What is said in a dialogue with a store that nothing interrupts. -/
def exchanges : Dialogue α → Store → List Exchange
  | done _, _ => []
  | ask call next, s =>
    let answered := (call.perform : StateM Store _).run s
    ⟨call, answered.1⟩ :: (next answered.1).exchanges answered.2

theorem exchanges_bind (d : Dialogue α) (next : α → Dialogue β) (s : Store) :
    (d >>= next).exchanges s =
      d.exchanges s ++ (next (d.hold s).1).exchanges (d.hold s).2 := by
  show (d.bind next).exchanges s = _
  induction d generalizing s with
  | done a => rfl
  | ask call rest ih => exact congrArg (List.cons _) (ih _ _)

end Dialogue

namespace Action

variable {α β : Type}

def exchanges (action : Action Dialogue α) (w : World) : List Exchange :=
  (action.dialogue w.metrics).exchanges w.store

def calls (action : Action Dialogue α) (w : World) : List EngineCall :=
  (action.exchanges w).map Exchange.call

theorem Follows.exchanges_bind {action : Action Dialogue α} {whole : Action (StateM Store) α}
    (h : Follows action whole) (next : α → Action Dialogue β) (w : World) :
    (action >>= next).exchanges w =
      action.exchanges w ++
        match whole.perform w with
        | (.ok a, w') => (next a).exchanges w'
        | (.error _, _) => [] := by
  have hfirst := h w
  show ((action.dialogue w.metrics) >>= fun outcome => _).exchanges w.store = _
  rw [Dialogue.exchanges_bind, hfirst]
  rcases whole.perform w with ⟨answer, w'⟩
  cases answer with
  | error e => rfl
  | ok a => rfl

end Action

/-! ## Operations of handles -/

namespace Handle

variable (h : Handle)

theorem follows_search (q : Query) : (h.search q).Follows (h.search q) := by
  intro w
  cases hcompiled : q.compile h.schema with
  | error e =>
    simp only [search, Query.compileCounted, hcompiled]
    rfl
  | ok compiled =>
    simp only [search, Query.compileCounted, hcompiled]
    rfl

theorem follows_count (f : Filter) : (h.count f).Follows (h.count f) :=
  Action.Follows.bind (h.follows_search (.count f)) fun _ _ => rfl

/-- The calls of a creation: the index is looked for; if there is none it is created, and else it
is kept, or dropped and created again. -/
theorem calls_create (overwrite dropDocuments : Bool) (w : World) :
    (h.create overwrite dropDocuments).calls w =
      .indexExists h.name ::
        match w.store.hasIndex h.name, overwrite with
        | false, _ => [.createIndex h.creation]
        | true, false => []
        | true, true => [.dropIndex h.name dropDocuments, .createIndex h.creation] := by
  have hfirst : (h.exists? : Action Dialogue Bool).Follows h.exists? := fun _ => rfl
  rw [Action.calls, create, hfirst.exchanges_bind, h.perform_exists?]
  cases hpresent : w.store.hasIndex h.name with
  | false => rfl
  | true =>
    cases overwrite with
    | false => rfl
    | true =>
      have hdrop : (h.delete dropDocuments : Action Dialogue Unit).Follows
          (h.delete dropDocuments) := fun _ => rfl
      have hdelete := h.perform_delete dropDocuments (w.note (.operated .info true))
      rw [World.store_note, Store.dropIndex_of_present hpresent] at hdelete
      have hrest := hdrop.exchanges_bind
        (fun _ => Action.counted .create (Engine.createIndex h.creation))
        (w.note (.operated .info true))
      rw [hdelete] at hrest
      exact congrArg (fun rest => .indexExists h.name :: rest.map Exchange.call) hrest

theorem exchanges_search (q : Query) (w : World) :
    (h.search q).exchanges w =
      match q.compile h.schema with
      | .ok compiled => [⟨.search h.name compiled, (w.store.search h.name compiled).1⟩]
      | .error _ => [] := by
  cases hcompiled : q.compile h.schema with
  | error e =>
    simp only [search, Query.compileCounted, hcompiled]
    rfl
  | ok compiled =>
    simp only [search, Query.compileCounted, hcompiled]
    rfl

theorem calls_search (q : Query) (w : World) :
    (h.search q).calls w =
      match q.compile h.schema with
      | .ok compiled => [.search h.name compiled]
      | .error _ => [] := by
  rw [Action.calls, exchanges_search]
  cases q.compile h.schema <;> rfl

end Handle

end HybridSearch
