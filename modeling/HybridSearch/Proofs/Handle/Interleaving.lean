import HybridSearch.Proofs.Handle.Loading
import HybridSearch.Proofs.Store.Contents

/-!
# Operations side by side

Operations that run at the same time on one store take turns: each call to the engine is one step,
and between two calls of one operation those of another may come. To see the calls one by one, an
operation is run in a monad that stops at each of them.

* `Dialogue`: what an operation does up to its next call, for every answer to that call.
* `Handle.follows_create`: without interruption the calls amount to the operation.
* `SideBySide`, `Action.AtOnce`: two operations whose calls take turns in any order.
* `Handle.create_side_by_side`: what comes of two handles that create the same index.
-/
namespace HybridSearch

/-! ## Operations that stop at each call -/

def EngineCall.Answer : EngineCall → Type
  | createIndex _ => Except EngineError Unit
  | dropIndex _ _ => Except EngineError Unit
  | indexExists _ => Except EngineError Bool
  | search _ _ => Except EngineError SearchResults
  | load _ => Except EngineError Unit
  | fetch _ _ => Except EngineError (Option Row)

def EngineCall.perform {m : Type → Type} [Engine m] : (call : EngineCall) → m call.Answer
  | createIndex arguments => Engine.createIndex arguments
  | dropIndex name dropDocuments => Engine.dropIndex name dropDocuments
  | indexExists name => Engine.indexExists name
  | search index query => Engine.search index query
  | load documents => Engine.load documents
  | fetch key storage => Engine.fetch key storage

theorem EngineCall.run_indexExists (name : String) (s : Store) :
    ((EngineCall.indexExists name).perform : StateM Store _).run s = (.ok (s.hasIndex name), s) :=
  rfl

theorem EngineCall.run_createIndex (arguments : List String) (s : Store) :
    ((EngineCall.createIndex arguments).perform : StateM Store _).run s = s.createIndex arguments :=
  rfl

/-- An operation up to its next call, and how it goes on with each answer. -/
inductive Dialogue (α : Type) where
  | done (a : α)
  | ask (call : EngineCall) (next : call.Answer → Dialogue α)

namespace Dialogue

variable {α β : Type}

protected def bind (d : Dialogue α) (next : α → Dialogue β) : Dialogue β :=
  match d with
  | done a => next a
  | ask call rest => ask call fun answer => (rest answer).bind next

instance : Monad Dialogue where
  pure := done
  bind := Dialogue.bind

instance : Engine Dialogue where
  createIndex arguments := ask (.createIndex arguments) done
  dropIndex name dropDocuments := ask (.dropIndex name dropDocuments) done
  indexExists name := ask (.indexExists name) done
  search index query := ask (.search index query) done
  load documents := ask (.load documents) done
  fetch key storage := ask (.fetch key storage) done

/-- A dialogue with a store that nothing interrupts. -/
def hold : Dialogue α → Store → α × Store
  | done a, s => (a, s)
  | ask call next, s =>
    let answered := (call.perform : StateM Store _).run s
    (next answered.1).hold answered.2

theorem hold_bind (d : Dialogue α) (next : α → Dialogue β) (s : Store) :
    (d >>= next).hold s = (next (d.hold s).1).hold (d.hold s).2 := by
  show (d.bind next).hold s = _
  induction d generalizing s with
  | done a => rfl
  | ask call rest ih => exact ih _ _

end Dialogue

namespace Action

variable {α β : Type}

/-- What an operation does, call by call. -/
def dialogue (action : Action Dialogue α) (metrics : Metrics) :
    Dialogue (Except EngineError α × Metrics) :=
  action.run.run metrics

/-- An operation that stops at each call does what another does on a store, as long as nothing comes
between its calls. -/
def Follows (action : Action Dialogue α) (whole : Action (StateM Store) α) : Prop :=
  ∀ w : World, (action.dialogue w.metrics).hold w.store =
    (((whole.perform w).1, (whole.perform w).2.metrics), (whole.perform w).2.store)

theorem Follows.bind {action : Action Dialogue α} {whole : Action (StateM Store) α}
    (h : Follows action whole) {next : α → Action Dialogue β} {next' : α → Action (StateM Store) β}
    (hnext : ∀ a, Follows (next a) (next' a)) : Follows (action >>= next) (whole >>= next') := by
  intro w
  have hfirst := h w
  rw [perform_bind]
  show ((action.dialogue w.metrics) >>= fun outcome => _).hold w.store = _
  rw [Dialogue.hold_bind, hfirst]
  rcases whole.perform w with ⟨answer, w'⟩
  cases answer with
  | error e => rfl
  | ok a => exact hnext a w'

end Action

namespace Handle

variable (h : Handle)

/-- Creating an index call by call is creating it, unless something comes between the calls. -/
theorem follows_create (overwrite dropDocuments : Bool) :
    (h.create overwrite dropDocuments).Follows (h.create overwrite dropDocuments) := by
  refine Action.Follows.bind (fun _ => rfl) fun present => ?_
  cases present with
  | false => exact fun _ => rfl
  | true =>
    cases overwrite with
    | false => exact fun _ => rfl
    | true => exact Action.Follows.bind (fun _ => rfl) fun _ _ => rfl

/-- What is left to do of creating an index once none has been found. -/
def creating (metrics : Metrics) : Dialogue (Except EngineError Unit × Metrics) :=
  .ask (.createIndex h.creation) fun answer =>
    .done (answer, metrics.record (.operated .create answer.isOk))

theorem dialogue_create_keeping (dropDocuments : Bool) (metrics : Metrics) :
    (h.create false dropDocuments).dialogue metrics =
      .ask (.indexExists h.name) fun
        | .error e => .done (.error e, metrics.record (.operated .info false))
        | .ok true => .done (.ok (), metrics.record (.operated .info true))
        | .ok false => h.creating (metrics.record (.operated .info true)) := by
  refine congrArg (Dialogue.ask (.indexExists h.name)) (funext fun present => ?_)
  rcases present with e | _ | _ <;> rfl

end Handle

/-! ## Two operations at once -/

/-- Two dialogues with one store whose calls take turns in some order. They end with `a` and `b`
and leave the last store. -/
inductive SideBySide {α β : Type} : Dialogue α → Dialogue β → Store → α → β → Store → Prop
  | done (a : α) (b : β) (s : Store) : SideBySide (.done a) (.done b) s a b s
  | left {call : EngineCall} {next : call.Answer → Dialogue α} {d : Dialogue β} {s s' : Store}
      {a : α} {b : β}
      (rest : SideBySide (next ((call.perform : StateM Store _).run s).1) d
        ((call.perform : StateM Store _).run s).2 a b s') :
      SideBySide (.ask call next) d s a b s'
  | right {d : Dialogue α} {call : EngineCall} {next : call.Answer → Dialogue β} {s s' : Store}
      {a : α} {b : β}
      (rest : SideBySide d (next ((call.perform : StateM Store _).run s).1)
        ((call.perform : StateM Store _).run s).2 a b s') :
      SideBySide d (.ask call next) s a b s'

namespace SideBySide

variable {α β : Type} {s s' : Store} {a : α} {b : β}

theorem swap {d : Dialogue α} {d' : Dialogue β} (h : SideBySide d d' s a b s') :
    SideBySide d' d s b a s' := by
  induction h with
  | done a b s => exact .done b a s
  | left _ ih => exact .right ih
  | right _ ih => exact .left ih

/-- Once one operation has come to its end nothing interrupts the other. -/
theorem done_left_iff {a₀ : α} {d : Dialogue β} :
    SideBySide (.done a₀) d s a b s' ↔ a = a₀ ∧ d.hold s = (b, s') := by
  induction d generalizing s with
  | done b₀ =>
    constructor
    · intro h
      cases h
      exact ⟨rfl, rfl⟩
    · rintro ⟨rfl, hend⟩
      cases hend
      exact .done _ _ _
  | ask call next ih =>
    constructor
    · intro h
      cases h with
      | right rest => exact (ih _).mp rest
    · exact fun h => .right ((ih _).mpr h)

theorem ask_ask_iff {call call' : EngineCall} {next : call.Answer → Dialogue α}
    {next' : call'.Answer → Dialogue β} :
    SideBySide (.ask call next) (.ask call' next') s a b s' ↔
      SideBySide (next ((call.perform : StateM Store _).run s).1) (.ask call' next')
          ((call.perform : StateM Store _).run s).2 a b s' ∨
        SideBySide (.ask call next) (next' ((call'.perform : StateM Store _).run s).1)
          ((call'.perform : StateM Store _).run s).2 a b s' := by
  constructor
  · intro h
    cases h with
    | left rest => exact .inl rest
    | right rest => exact .inr rest
  · rintro (rest | rest)
    · exact .left rest
    · exact .right rest

end SideBySide

/-- What two operations may answer when they run on one store at the same time, and the store that
they may leave. -/
def Action.AtOnce {α β : Type} (action : Action Dialogue α) (action' : Action Dialogue β)
    (metrics metrics' : Metrics) (s : Store) (answer : Except EngineError α)
    (answer' : Except EngineError β) (s' : Store) : Prop :=
  ∃ noted noted', SideBySide (action.dialogue metrics) (action'.dialogue metrics') s
    (answer, noted) (answer', noted') s'

theorem Action.AtOnce.swap {α β : Type} {action : Action Dialogue α} {action' : Action Dialogue β}
    {metrics metrics' : Metrics} {s s' : Store} {answer : Except EngineError α}
    {answer' : Except EngineError β}
    (h : action.AtOnce action' metrics metrics' s answer answer' s') :
    action'.AtOnce action metrics' metrics s answer' answer s' :=
  have ⟨noted, noted', hboth⟩ := h
  ⟨noted', noted, hboth.swap⟩

namespace Handle

/-- What two handles that create the same index at once may answer, and the store that they leave.
An index that is there is kept. If there is none, one of the two creates it, and the other one is
refused unless it looks for the index only afterwards. -/
inductive CreatedTwice (h h' : Handle) (s : Store) :
    Except EngineError Unit → Except EngineError Unit → Store → Prop
  | kept (hpresent : s.hasIndex h.name = true) : CreatedTwice h h' s (.ok ()) (.ok ()) s
  | first {answer' : Except EngineError Unit} (habsent : s.hasIndex h.name = false)
      (hanswer : answer' = .ok () ∨ answer' = .error (.command .indexExists)) :
      CreatedTwice h h' s (.ok ()) answer'
        { s with indexes := s.indexes ++ [(h.name, h.creation)] }
  | second {answer : Except EngineError Unit} (habsent : s.hasIndex h.name = false)
      (hanswer : answer = .ok () ∨ answer = .error (.command .indexExists)) :
      CreatedTwice h h' s answer (.ok ())
        { s with indexes := s.indexes ++ [(h.name, h'.creation)] }

theorem CreatedTwice.swap {h h' : Handle} (hname : h.name = h'.name) {s s' : Store}
    {answer answer' : Except EngineError Unit} (hboth : CreatedTwice h h' s answer answer' s') :
    CreatedTwice h' h s answer' answer s' := by
  cases hboth with
  | kept hpresent => exact .kept (hname ▸ hpresent)
  | first habsent hanswer => rw [hname] at habsent ⊢; exact .second habsent hanswer
  | second habsent hanswer => rw [hname] at habsent ⊢; exact .first habsent hanswer

/-- A handle is about to create an index, and has not yet created it nor given up. It may have
looked for the index and found none. -/
inductive Underway (h : Handle) : Dialogue (Except EngineError Unit × Metrics) → Prop
  | unlooked (dropDocuments : Bool) (metrics : Metrics) :
      Underway h ((h.create false dropDocuments).dialogue metrics)
  | looked (metrics : Metrics) : Underway h (h.creating metrics)

variable {h h' : Handle} {d d' : Dialogue (Except EngineError Unit × Metrics)} {s s' : Store}

/-- As long as there is no index, the next call either looks for it or creates it. -/
theorem Underway.next_of_absent (hd : Underway h d) (habsent : s.hasIndex h.name = false) :
    ∃ call next, d = .ask call next ∧
      ((Underway h (next ((call.perform : StateM Store _).run s).1) ∧
          ((call.perform : StateM Store _).run s).2 = s) ∨
        (∃ noted, next ((call.perform : StateM Store _).run s).1 = .done (.ok (), noted)) ∧
          ((call.perform : StateM Store _).run s).2 =
            { s with indexes := s.indexes ++ [(h.name, h.creation)] }) := by
  cases hd with
  | unlooked dropDocuments metrics =>
    refine ⟨_, _, h.dialogue_create_keeping dropDocuments metrics, .inl ⟨?_, rfl⟩⟩
    rw [EngineCall.run_indexExists, habsent]
    exact .looked _
  | looked metrics =>
    refine ⟨_, _, rfl, .inr ?_⟩
    rw [EngineCall.run_createIndex, h.createIndex_creation habsent]
    exact ⟨⟨_, rfl⟩, rfl⟩

theorem hold_create_of_present (hpresent : s.hasIndex h.name = true) (dropDocuments : Bool)
    (metrics : Metrics) :
    ∃ noted, ((h.create false dropDocuments).dialogue metrics).hold s = ((.ok (), noted), s) := by
  have hend : ((h.create false dropDocuments).dialogue metrics).hold s = _ :=
    h.follows_create false dropDocuments ⟨s, metrics⟩
  rw [h.perform_create_of_present (w := ⟨s, metrics⟩) hpresent] at hend
  exact ⟨_, hend⟩

theorem hold_creating_of_present (hpresent : s.hasIndex h.name = true) (metrics : Metrics) :
    ∃ noted, (h.creating metrics).hold s = ((.error (.command .indexExists), noted), s) := by
  obtain ⟨rest, hcreation⟩ := h.creation_eq_cons
  have hrefused : s.createIndex h.creation = (.error (.command .indexExists), s) := by
    rw [hcreation, Store.createIndex]
    exact if_pos hpresent
  refine ⟨metrics.record (.operated .create false), ?_⟩
  have hhold : (h.creating metrics).hold s =
      (((s.createIndex h.creation).1,
        metrics.record (.operated .create (s.createIndex h.creation).1.isOk)),
        (s.createIndex h.creation).2) := rfl
  rw [hhold, hrefused]
  rfl

theorem Underway.hold_of_present (hd : Underway h d) (hpresent : s.hasIndex h.name = true) :
    ∃ answer noted, d.hold s = ((answer, noted), s) ∧
      (answer = .ok () ∨ answer = .error (.command .indexExists)) := by
  cases hd with
  | unlooked dropDocuments metrics =>
    obtain ⟨noted, hend⟩ := hold_create_of_present hpresent dropDocuments metrics
    exact ⟨_, noted, hend, .inl rfl⟩
  | looked metrics =>
    obtain ⟨noted, hend⟩ := hold_creating_of_present hpresent metrics
    exact ⟨_, noted, hend, .inr rfl⟩

theorem hasIndex_created (habsent : s.hasIndex h.name = false) (arguments : List String) :
    Store.hasIndex { s with indexes := s.indexes ++ [(h.name, arguments)] } h.name = true := by
  have hnone : lookUp? h.name s.indexes = none := by simpa [Store.hasIndex] using habsent
  rw [Store.hasIndex, lookUp?_append_of_absent hnone]
  rfl

/-- Once one handle has created the index the other one has to do with an index that is there. -/
theorem Underway.after_creation (hd' : Underway h' d') (hname : h.name = h'.name)
    (habsent : s.hasIndex h.name = false) {noted : Metrics}
    {a b : Except EngineError Unit × Metrics}
    (hboth : SideBySide (.done (.ok (), noted)) d'
      { s with indexes := s.indexes ++ [(h.name, h.creation)] } a b s') :
    CreatedTwice h h' s a.1 b.1 s' := by
  obtain ⟨rfl, hend⟩ := SideBySide.done_left_iff.mp hboth
  have hpresent := hasIndex_created habsent h.creation
  generalize hcreated : { s with indexes := s.indexes ++ [(h.name, h.creation)] } = t
    at hend hpresent
  rw [hname] at hpresent
  obtain ⟨answer', noted', hrest, hanswer⟩ := hd'.hold_of_present hpresent
  cases hend.symm.trans hrest
  exact hcreated ▸ .first habsent hanswer

/-- In every order of the calls the first one that creates the index decides. Until then the store
stays as it is. -/
theorem Underway.createdTwice (hd : Underway h d) (hd' : Underway h' d') (hname : h.name = h'.name)
    (habsent : s.hasIndex h.name = false) {a b : Except EngineError Unit × Metrics}
    (hboth : SideBySide d d' s a b s') : CreatedTwice h h' s a.1 b.1 s' := by
  -- As long as both are under way there is no index; the call that ends this is a creation.
  induction hboth with
  | done a b s =>
    obtain ⟨call, next, heq, _⟩ := hd.next_of_absent habsent
    cases heq
  | left rest ih =>
    obtain ⟨call, next, heq, hnext⟩ := hd.next_of_absent habsent
    cases heq
    rcases hnext with ⟨hunderway, hsame⟩ | ⟨⟨noted, hdone⟩, hcreated⟩
    · rw [hsame] at ih
      exact ih hunderway hd' habsent
    · rw [hdone, hcreated] at rest
      exact hd'.after_creation hname habsent rest
  | right rest ih =>
    obtain ⟨call, next, heq, hnext⟩ := hd'.next_of_absent (hname ▸ habsent)
    cases heq
    rcases hnext with ⟨hunderway, hsame⟩ | ⟨⟨noted, hdone⟩, hcreated⟩
    · rw [hsame] at ih
      exact ih hd hunderway habsent
    · rw [hdone, hcreated] at rest
      exact (hd.after_creation hname.symm (hname ▸ habsent) rest.swap).swap hname.symm

/-! ### Every outcome comes about -/

theorem first_comes_about (hname : h.name = h'.name) (habsent : s.hasIndex h.name = false)
    {answer' : Except EngineError Unit}
    (hanswer : answer' = .ok () ∨ answer' = .error (.command .indexExists))
    (dropDocuments dropDocuments' : Bool) (metrics metrics' : Metrics) :
    (h.create false dropDocuments).AtOnce (h'.create false dropDocuments') metrics metrics' s
      (.ok ()) answer' { s with indexes := s.indexes ++ [(h.name, h.creation)] } := by
  have hpresent : Store.hasIndex
      { s with indexes := s.indexes ++ [(h.name, h.creation)] } h'.name = true :=
    hname ▸ hasIndex_created habsent h.creation
  refine ⟨(metrics.record (.operated .info true)).record (.operated .create true), ?_⟩
  rw [h.dialogue_create_keeping]
  rcases hanswer with rfl | rfl
  · obtain ⟨noted', hend⟩ := hold_create_of_present hpresent dropDocuments' metrics'
    refine ⟨noted', .left ?_⟩
    rw [EngineCall.run_indexExists, habsent]
    refine .left ?_
    rw [EngineCall.run_createIndex, h.createIndex_creation habsent]
    exact SideBySide.done_left_iff.mpr ⟨rfl, hend⟩
  · obtain ⟨noted', hend⟩ := hold_creating_of_present hpresent
      (metrics'.record (.operated .info true))
    rw [h'.dialogue_create_keeping]
    -- Both handles look before either of them creates the index.
    refine ⟨noted', .left ?_⟩
    rw [EngineCall.run_indexExists, habsent]
    refine .right ?_
    rw [EngineCall.run_indexExists, ← hname, habsent]
    refine .left ?_
    rw [EngineCall.run_createIndex, h.createIndex_creation habsent]
    exact SideBySide.done_left_iff.mpr ⟨rfl, hend⟩

/-- A handle that finds the index is done at once, and the other one then finds it as well. -/
theorem kept_by_second (hname : h.name = h'.name) (hpresent : s.hasIndex h.name = true)
    (dropDocuments' : Bool) (metrics' : Metrics) {noted : Metrics}
    {a b : Except EngineError Unit × Metrics}
    (hboth : SideBySide (.done (.ok (), noted)) ((h'.create false dropDocuments').dialogue metrics')
      s a b s') :
    a.1 = .ok () ∧ b.1 = .ok () ∧ s' = s := by
  obtain ⟨rfl, hend⟩ := SideBySide.done_left_iff.mp hboth
  rw [hname] at hpresent
  obtain ⟨noted', hkept⟩ := hold_create_of_present hpresent dropDocuments' metrics'
  cases hend.symm.trans hkept
  exact ⟨rfl, rfl, rfl⟩

theorem kept_of_sideBySide (hname : h.name = h'.name) (hpresent : s.hasIndex h.name = true)
    {dropDocuments dropDocuments' : Bool} {metrics metrics' : Metrics}
    {a b : Except EngineError Unit × Metrics}
    (hboth : SideBySide ((h.create false dropDocuments).dialogue metrics)
      ((h'.create false dropDocuments').dialogue metrics') s a b s') :
    a.1 = .ok () ∧ b.1 = .ok () ∧ s' = s := by
  rw [h.dialogue_create_keeping, h'.dialogue_create_keeping, SideBySide.ask_ask_iff] at hboth
  rcases hboth with rest | rest
  · rw [EngineCall.run_indexExists, hpresent,
      ← h'.dialogue_create_keeping dropDocuments' metrics'] at rest
    exact kept_by_second hname hpresent dropDocuments' metrics' rest
  · rw [EngineCall.run_indexExists, ← hname, hpresent,
      ← h.dialogue_create_keeping dropDocuments metrics] at rest
    obtain ⟨hb, ha, hs⟩ :=
      kept_by_second hname.symm (hname ▸ hpresent) dropDocuments metrics rest.swap
    exact ⟨ha, hb, hs⟩

theorem kept_comes_about (hname : h.name = h'.name) (hpresent : s.hasIndex h.name = true)
    (dropDocuments dropDocuments' : Bool) (metrics metrics' : Metrics) :
    (h.create false dropDocuments).AtOnce (h'.create false dropDocuments') metrics metrics' s
      (.ok ()) (.ok ()) s := by
  obtain ⟨noted', hend⟩ := hold_create_of_present (hname ▸ hpresent) dropDocuments' metrics'
  refine ⟨metrics.record (.operated .info true), noted', ?_⟩
  rw [h.dialogue_create_keeping]
  refine .left ?_
  rw [EngineCall.run_indexExists, hpresent]
  exact SideBySide.done_left_iff.mpr ⟨rfl, hend⟩

/-! ## The same index created by two handles at once -/

theorem create_atOnce_iff (hname : h.name = h'.name) (dropDocuments dropDocuments' : Bool)
    (metrics metrics' : Metrics) (answer answer' : Except EngineError Unit) :
    (h.create false dropDocuments).AtOnce (h'.create false dropDocuments') metrics metrics' s
      answer answer' s' ↔ CreatedTwice h h' s answer answer' s' := by
  constructor
  · rintro ⟨noted, noted', hboth⟩
    cases hpresent : s.hasIndex h.name with
    | true =>
      obtain ⟨rfl, rfl, rfl⟩ := kept_of_sideBySide hname hpresent hboth
      exact .kept hpresent
    | false =>
      exact Underway.createdTwice (.unlooked dropDocuments metrics)
        (.unlooked dropDocuments' metrics') hname hpresent hboth
  · intro hboth
    cases hboth with
    | kept hpresent => exact kept_comes_about hname hpresent _ _ _ _
    | first habsent hanswer => exact first_comes_about hname habsent hanswer _ _ _ _
    | second habsent hanswer =>
      have hcome := first_comes_about hname.symm (hname ▸ habsent) hanswer dropDocuments'
        dropDocuments metrics' metrics
      rw [← hname] at hcome
      exact hcome.swap

theorem CreatedTwice.recorded {answer answer' : Except EngineError Unit}
    (hboth : CreatedTwice h h' s answer answer' s') :
    s'.hasIndex h.name = true ∧
      ((s.hasIndex h.name = true ∧ lookUp? h.name s'.indexes = lookUp? h.name s.indexes) ∨
        lookUp? h.name s'.indexes = some h.creation ∨
        lookUp? h.name s'.indexes = some h'.creation) := by
  cases hboth with
  | kept hpresent => exact ⟨hpresent, .inl ⟨hpresent, rfl⟩⟩
  | first habsent hanswer =>
    exact ⟨hasIndex_created habsent h.creation,
      .inr (.inl (lookUp?_append_of_absent (by simpa [Store.hasIndex] using habsent) _))⟩
  | second habsent hanswer =>
    exact ⟨hasIndex_created habsent h'.creation,
      .inr (.inr (lookUp?_append_of_absent (by simpa [Store.hasIndex] using habsent) _))⟩

theorem CreatedTwice.both_succeed_iff :
    (∀ answer answer' s', CreatedTwice h h' s answer answer' s' →
      answer = .ok () ∧ answer' = .ok ()) ↔ s.hasIndex h.name = true := by
  constructor
  · intro hall
    by_contra habsent
    have hrefused := hall _ _ _ (.first (Bool.eq_false_iff.mpr habsent) (.inr rfl))
    cases hrefused.2
  · intro hpresent answer answer' s' hboth
    cases hboth with
    | kept _ => exact ⟨rfl, rfl⟩
    | first habsent _ => cases habsent.symm.trans hpresent
    | second habsent _ => cases habsent.symm.trans hpresent

/-- What comes of two handles of one index that create it at the same time, and keep it if it is
there. Whatever the order of their calls, the index exists in the end, with the arguments that were
recorded before or else with those of one of the two. But unless it existed from the start, there is
an order in which one of them is refused. -/
theorem create_side_by_side (h h' : Handle) (hname : h.name = h'.name)
    (dropDocuments dropDocuments' : Bool) (metrics metrics' : Metrics) (s : Store) :
    (∀ answer answer' s',
      (h.create false dropDocuments).AtOnce (h'.create false dropDocuments') metrics metrics' s
        answer answer' s' ↔ CreatedTwice h h' s answer answer' s') ∧
      (∀ answer answer' s',
        (h.create false dropDocuments).AtOnce (h'.create false dropDocuments') metrics metrics' s
          answer answer' s' →
        s'.hasIndex h.name = true ∧
          ((s.hasIndex h.name = true ∧ lookUp? h.name s'.indexes = lookUp? h.name s.indexes) ∨
            lookUp? h.name s'.indexes = some h.creation ∨
            lookUp? h.name s'.indexes = some h'.creation)) ∧
      ((∀ answer answer' s',
        (h.create false dropDocuments).AtOnce (h'.create false dropDocuments') metrics metrics' s
          answer answer' s' →
        answer = .ok () ∧ answer' = .ok ()) ↔ s.hasIndex h.name = true) := by
  refine ⟨fun _ _ _ => create_atOnce_iff hname _ _ _ _ _ _,
    fun _ _ _ hboth => ((create_atOnce_iff hname _ _ _ _ _ _).mp hboth).recorded, ?_⟩
  simp only [create_atOnce_iff hname]
  exact CreatedTwice.both_succeed_iff

/-- The index `teams` without fields. -/
def plainTeams : Handle :=
  ⟨{ name := "teams", keyPrefix := "team", checked := rfl }, {}⟩

/-- The same index with the towns of the teams. -/
def teamsByTown : Handle :=
  ⟨{ name := "teams", keyPrefix := "team", fields := [{ name := "town", type := .tag {} }],
     checked := rfl }, {}⟩

/-- Both handles look for the index before either of them creates it, and the second is refused. -/
theorem second_teams_refused :
    plainTeams.name = teamsByTown.name ∧
      (plainTeams.create false false).AtOnce (teamsByTown.create false false) {} {} {} (.ok ())
        (.error (.command .indexExists)) { indexes := [("teams", plainTeams.creation)] } :=
  ⟨rfl, ((create_side_by_side plainTeams teamsByTown rfl false false {} {} {}).1 _ _ _).mpr
    (.first rfl (.inr rfl))⟩

end Handle
end HybridSearch
