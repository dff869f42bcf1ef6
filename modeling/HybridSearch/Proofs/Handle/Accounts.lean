import HybridSearch.Proofs.Handle.Exchanges

/-!
# Accounts

What has been noted of the operations of any handles on one store, against what they have done.

* `Query.IsOf`: the kind of a query, said by what it asks for.
* `Action.Balanced`: an operation that notes each of its calls.
* `Task`, `Task.events_run`: whatever can be asked of a schema or a handle, and what is noted of it.
* `Metrics.Accounts`: what has been counted is what has happened.
* `Turn.accounts_perform`, `Turn.accounts_performAll`: one task and a run of tasks keep accounts.
* `Turn.metrics_account_for_all`: after every run from fresh metrics, it is.
-/
namespace HybridSearch

/-! ## Kinds -/

/-- The kind of a query is that of what it asks for: documents, neighbours, what lies within a
distance, or a number. -/
inductive Query.IsOf : Query → QueryKind → Prop
  | filter (o : QueryOptions) : IsOf (.filter o) .filter
  | nearest (v : QueryVector) (k : Nat) (o : QueryOptions) : IsOf (.nearest v k o) .vector
  | within (v : QueryVector) (threshold : Binary64) (o : QueryOptions) :
      IsOf (.within v threshold o) .range
  | count (f : Filter) : IsOf (.count f) .count

theorem Query.isOf_iff {q : Query} {kind : QueryKind} : q.IsOf kind ↔ q.kind = kind := by
  constructor
  · intro h
    cases h <;> rfl
  · rintro rfl
    cases q <;> constructor

instance (q : Query) (kind : QueryKind) : Decidable (q.IsOf kind) :=
  decidable_of_iff _ Query.isOf_iff.symm

/-! ## Counts by name and labels -/

@[simp] theorem QueryKind.name_inj {a b : QueryKind} : a.name = b.name ↔ a = b := by
  cases a <;> cases b <;> simp [name]

@[simp] theorem Operation.name_inj {a b : Operation} : a.name = b.name ↔ a = b := by
  cases a <;> cases b <;> simp [name]

namespace Event

@[simp] theorem statusLabel_inj {a b : Bool} : statusLabel a = statusLabel b ↔ a = b := by
  cases a <;> cases b <;> simp [statusLabel]

/-- No two events are counted under one name with the same labels. -/
theorem eq_of_name_of_labels {e e' : Event} (hname : e.name = e'.name)
    (hlabels : e.labels = e'.labels) : e = e' := by
  cases e <;> cases e' <;> simp_all [name, labels]

end Event

theorem Metrics.count_eq_countP (m : Metrics) (e : Event) :
    m.count e = m.events.countP fun e' => e'.name = e.name ∧ e'.labels = e.labels := by
  rw [count, List.count]
  refine List.countP_congr fun e' _ => ?_
  rw [beq_iff_eq, decide_eq_true_iff]
  constructor
  · rintro rfl
    exact ⟨rfl, rfl⟩
  · rintro ⟨hname, hlabels⟩
    exact Event.eq_of_name_of_labels hname hlabels

/-! ## Operations that note their calls -/

def Exchange.event? (e : Exchange) : Option Event :=
  e.call.operation?.map fun operation => .operated operation e.succeeded

namespace Action

variable {α β : Type}

/-- Call by call an operation does what it does as a whole, and it notes its calls, each with how it
went, and nothing else. -/
structure Balanced (action : Action Dialogue α) (whole : Action (StateM Store) α) : Prop where
  follows : action.Follows whole
  events_eq : ∀ w, (whole.perform w).2.metrics.events =
    ((action.exchanges w).filterMap Exchange.event?).reverse ++ w.metrics.events

theorem Balanced.bind {action : Action Dialogue α} {whole : Action (StateM Store) α}
    (h : Balanced action whole) {next : α → Action Dialogue β}
    {next' : α → Action (StateM Store) β} (hnext : ∀ a, Balanced (next a) (next' a)) :
    Balanced (action >>= next) (whole >>= next') where
  follows := h.follows.bind fun a => (hnext a).follows
  events_eq w := by
    have hfirst := h.events_eq w
    rw [perform_bind, h.follows.exchanges_bind]
    generalize whole.perform w = step at hfirst
    obtain ⟨answer, w'⟩ := step
    cases answer with
    | error e => rw [List.append_nil]; exact hfirst
    | ok a =>
      have hrest := (hnext a).events_eq w'
      rw [List.filterMap_append, List.reverse_append, List.append_assoc, ← hfirst]
      exact hrest

end Action

namespace Handle

variable (h : Handle)

theorem balanced_exists? : h.exists?.Balanced h.exists? :=
  ⟨fun _ => rfl, fun _ => rfl⟩

theorem balanced_delete (dropDocuments : Bool) :
    (h.delete dropDocuments).Balanced (h.delete dropDocuments) :=
  ⟨fun _ => rfl, fun _ => rfl⟩

theorem balanced_fetch (id : String) : (h.fetch id).Balanced (h.fetch id) :=
  ⟨fun _ => rfl, fun _ => rfl⟩

theorem balanced_create (overwrite dropDocuments : Bool) :
    (h.create overwrite dropDocuments).Balanced (h.create overwrite dropDocuments) := by
  refine h.balanced_exists?.bind fun present => ?_
  cases present with
  | false => exact ⟨fun _ => rfl, fun _ => rfl⟩
  | true =>
    cases overwrite with
    | false => exact ⟨fun _ => rfl, fun _ => rfl⟩
    | true => exact (h.balanced_delete dropDocuments).bind fun _ => ⟨fun _ => rfl, fun _ => rfl⟩

theorem balanced_loadWith (records : List Record) (keyField : String)
    (preprocess : Record → Record) :
    (h.loadWith records keyField preprocess).Balanced
      (h.loadWith records keyField preprocess) := by
  rw [loadWith, loadWith]
  cases h.schema.documents keyField (records.map preprocess) with
  | error fault => exact ⟨fun _ => rfl, fun _ => rfl⟩
  | ok documents =>
    have hload : (Action.counted .load (Engine.load documents)).Balanced
        (Action.counted .load (Engine.load documents)) := ⟨fun _ => rfl, fun _ => rfl⟩
    exact hload.bind fun _ => ⟨fun _ => rfl, fun _ => rfl⟩

theorem countP_info_calls_create (overwrite dropDocuments : Bool) (w : World) :
    ((h.create overwrite dropDocuments).calls w).countP
      (fun call => call.operation? = some .info) = 1 := by
  rw [h.calls_create]
  cases w.store.hasIndex h.name <;> cases overwrite <;> rfl

/-- A batch of records is refused before anything is asked, and only then nothing is asked. -/
theorem exchanges_loadWith_eq_nil_iff (records : List Record) (keyField : String)
    (preprocess : Record → Record) (w : World) :
    (h.loadWith records keyField preprocess).exchanges w = [] ↔
      ∃ position fault, ((h.loadWith records keyField preprocess).perform w).1 =
        .error (.invalidRecord position fault) := by
  have hperform := h.perform_loadWith records keyField preprocess w
  cases hdocuments : h.schema.documents keyField (records.map preprocess) with
  | error fault =>
    rw [hdocuments] at hperform
    rw [hperform, loadWith, hdocuments]
    exact iff_of_true rfl ⟨_, _, rfl⟩
  | ok documents =>
    rw [hdocuments] at hperform
    dsimp only at hperform
    rw [hperform, loadWith, hdocuments]
    refine iff_of_false (List.cons_ne_nil _ _) ?_
    rintro ⟨position, fault, hrefused⟩
    -- What is refused by the store itself is never a record.
    cases hload : (w.store.load documents).1 with
    | ok _ =>
      rw [hload] at hrefused
      cases hrefused
    | error e =>
      obtain ⟨key, rfl⟩ := Store.load_eq_error hload
      rw [hload] at hrefused
      cases hrefused

end Handle

/-! ## Tasks -/

/-- What can be asked of a schema or of a handle. -/
inductive Task where
  | compile (s : Schema) (q : Query)
  | search (h : Handle) (q : Query)
  | count (h : Handle) (f : Filter)
  | create (h : Handle) (overwrite dropDocuments : Bool)
  | delete (h : Handle) (dropDocuments : Bool)
  | exists? (h : Handle)
  | load (h : Handle) (records : List Record) (keyField : String) (preprocess : Record → Record)
  | fetch (h : Handle) (id : String)

namespace Task

def Answer : Task → Type
  | compile _ _ => CompiledQuery
  | search _ _ => SearchResults
  | count _ _ => Nat
  | create _ _ _ => Unit
  | delete _ _ => Unit
  | exists? _ => Bool
  | load _ _ _ _ => List String
  | fetch _ _ => Option Row

def run {m : Type → Type} [Monad m] [Engine m] : (task : Task) → Action m task.Answer
  | compile s q => ExceptT.mk do return (← q.compileCounted s).mapError .query
  | search h q => h.search q
  | count h f => h.count f
  | create h overwrite dropDocuments => h.create overwrite dropDocuments
  | delete h dropDocuments => h.delete dropDocuments
  | exists? h => h.exists?
  | load h records keyField preprocess => h.loadWith records keyField preprocess
  | fetch h id => h.fetch id

/-- The query that is compiled, and whether it compiles. -/
def compilation? : Task → Option (Query × Bool)
  | compile s q => some (q, (q.compile s).isOk)
  | search h q => some (q, (q.compile h.schema).isOk)
  | count h f => some (.count f, ((Query.count f).compile h.schema).isOk)
  | _ => none

/-- Whether a search or a count is answered, if the task is one. -/
def question? (task : Task) (w : World) : Option Bool :=
  match task with
  | search h q => some ((h.search q).perform w).1.isOk
  | count h f => some ((h.count f).perform w).1.isOk
  | _ => none

/-- What is noted of a task, the last event first. -/
def noted (task : Task) (w : World) : List Event :=
  ((task.question? w).elim [] fun ok => [.searchTimed, .searched ok]) ++
    ((task.compilation?.elim [] fun c => [.compileTimed c.1.kind, .compiled c.1.kind c.2]) ++
      ((task.run.exchanges w).filterMap Exchange.event?).reverse)

end Task

namespace Handle

variable (h : Handle)

theorem events_search (q : Query) (w : World) :
    ((h.search q).perform w).2.metrics.events =
      [.searchTimed, .searched ((h.search q).perform w).1.isOk, .compileTimed q.kind,
        .compiled q.kind (q.compile h.schema).isOk] ++ w.metrics.events := by
  cases hcompiled : q.compile h.schema with
  | error e =>
    simp only [search, Query.compileCounted, hcompiled]
    rfl
  | ok compiled =>
    simp only [search, Query.compileCounted, hcompiled]
    rfl

/-- The calls of searches are not counted as operations. -/
theorem filterMap_exchanges_search (q : Query) (w : World) :
    ((h.search q).exchanges w).filterMap Exchange.event? = [] := by
  rw [h.exchanges_search]
  cases q.compile h.schema <;> rfl

theorem events_count (f : Filter) (w : World) :
    ((h.count f).perform w).2.metrics.events =
      [.searchTimed, .searched ((h.count f).perform w).1.isOk, .compileTimed .count,
        .compiled .count ((Query.count f).compile h.schema).isOk] ++ w.metrics.events := by
  have hevents := h.events_search (.count f) w
  rw [count, Action.perform_bind]
  generalize (h.search (.count f)).perform w = step at hevents
  obtain ⟨answer | answer, w'⟩ := step
  · exact hevents
  · exact hevents

theorem exchanges_count (f : Filter) (w : World) :
    (h.count f).exchanges w = (h.search (.count f)).exchanges w := by
  rw [count, (h.follows_search (.count f)).exchanges_bind]
  rcases (h.search (.count f)).perform w with ⟨answer | answer, w'⟩
  · exact List.append_nil _
  · exact List.append_nil _

end Handle

namespace Task

/-- Call by call a task does what it does as a whole. -/
theorem follows_run (task : Task) : task.run.Follows task.run := by
  cases task with
  | compile s q => exact fun _ => rfl
  | search h q => exact h.follows_search q
  | count h f => exact h.follows_count f
  | create h overwrite dropDocuments => exact h.follows_create overwrite dropDocuments
  | delete h dropDocuments => exact (h.balanced_delete dropDocuments).follows
  | exists? h => exact h.balanced_exists?.follows
  | load h records keyField preprocess =>
    exact (h.balanced_loadWith records keyField preprocess).follows
  | fetch h id => exact (h.balanced_fetch id).follows

theorem events_run (task : Task) (w : World) :
    (task.run.perform w).2.metrics.events = task.noted w ++ w.metrics.events := by
  have hcalls {events : List Event} (hevents : events =
      ((task.run.exchanges w).filterMap Exchange.event?).reverse ++ w.metrics.events)
      (hquestion : task.question? w = none) (hcompilation : task.compilation? = none) :
      events = task.noted w ++ w.metrics.events := by
    rw [hevents, noted, hquestion, hcompilation]
    rfl
  cases task with
  | compile s q => rfl
  | search h q =>
    have hsearches : ((search h q).run.exchanges w).filterMap Exchange.event? = [] :=
      h.filterMap_exchanges_search q w
    rw [noted, hsearches]
    exact h.events_search q w
  | count h f =>
    have hsearches : ((count h f).run.exchanges w).filterMap Exchange.event? = [] :=
      (congrArg _ (h.exchanges_count f w)).trans (h.filterMap_exchanges_search (.count f) w)
    rw [noted, hsearches]
    exact h.events_count f w
  | create h overwrite dropDocuments =>
    exact hcalls ((h.balanced_create overwrite dropDocuments).events_eq w) rfl rfl
  | delete h dropDocuments => exact hcalls ((h.balanced_delete dropDocuments).events_eq w) rfl rfl
  | exists? h => exact hcalls (h.balanced_exists?.events_eq w) rfl rfl
  | load h records keyField preprocess =>
    exact hcalls ((h.balanced_loadWith records keyField preprocess).events_eq w) rfl rfl
  | fetch h id => exact hcalls ((h.balanced_fetch id).events_eq w) rfl rfl

end Task

/-! ## What is counted -/

/-- What has been counted is what has happened: the compilations of each kind and how they went, the
questions and whether they were answered, and the calls to the store with their answers. -/
structure Metrics.Accounts (m : Metrics) (compilations : List (Query × Bool))
    (questions : List Bool) (exchanges : List Exchange) : Prop where
  compiled : ∀ kind ok, m.count (.compiled kind ok) =
    compilations.countP fun c => c.1.IsOf kind ∧ c.2 = ok
  compileTimed : ∀ kind, m.count (.compileTimed kind) =
    compilations.countP fun c => c.1.IsOf kind
  searched : ∀ ok, m.count (.searched ok) = questions.countP fun answered => answered = ok
  searchTimed : m.count .searchTimed = questions.length
  operated : ∀ operation ok, m.count (.operated operation ok) =
    exchanges.countP fun e => e.call.operation? = some operation ∧ e.succeeded = ok

theorem Metrics.count_append (m m' : Metrics) (e : Event) :
    (⟨m'.events ++ m.events⟩ : Metrics).count e = m.count e + m'.count e := by
  rw [count, List.count_append, Nat.add_comm]
  rfl

theorem countP_true_add_countP_false {α : Type} (p : α → Prop) [DecidablePred p] (b : α → Bool)
    (xs : List α) :
    (xs.countP fun x => p x ∧ b x = true) + (xs.countP fun x => p x ∧ b x = false) =
      xs.countP fun x => p x := by
  rw [List.countP_eq_countP_filter_add xs (fun x => decide (p x)) b, List.countP_filter,
    List.countP_filter]
  simp

namespace Metrics.Accounts

variable {m : Metrics} {compilations : List (Query × Bool)} {questions : List Bool}
  {exchanges : List Exchange}

theorem nil : (⟨[]⟩ : Metrics).Accounts [] [] [] where
  compiled _ _ := rfl
  compileTimed _ := rfl
  searched _ := rfl
  searchTimed := rfl
  operated _ _ := rfl

theorem compilation (q : Query) (ok : Bool) :
    (⟨[.compileTimed q.kind, .compiled q.kind ok]⟩ : Metrics).Accounts [(q, ok)] [] [] where
  compiled _ _ := by simp [count, List.count_cons, Query.isOf_iff]
  compileTimed _ := by simp [count, List.count_cons, Query.isOf_iff]
  searched _ := by simp [count]
  searchTimed := by simp [count]
  operated _ _ := by simp [count]

theorem question (ok : Bool) :
    (⟨[.searchTimed, .searched ok]⟩ : Metrics).Accounts [] [ok] [] where
  compiled _ _ := by simp [count]
  compileTimed _ := by simp [count]
  searched _ := by simp [count, List.count_cons]
  searchTimed := by simp [count]
  operated _ _ := by simp [count]

theorem calls (exchanges : List Exchange) :
    (⟨(exchanges.filterMap Exchange.event?).reverse⟩ : Metrics).Accounts [] [] exchanges := by
  have hcount (e : Event) :
      (⟨(exchanges.filterMap Exchange.event?).reverse⟩ : Metrics).count e =
        exchanges.countP fun x => x.event? = some e := by
    rw [count, List.count_reverse, List.count, List.countP_filterMap]
    refine List.countP_congr fun x _ => ?_
    cases x.event? <;> simp
  exact
    { compiled := fun kind ok => by simp [hcount, Exchange.event?]
      compileTimed := fun kind => by simp [hcount, Exchange.event?]
      searched := fun ok => by simp [hcount, Exchange.event?]
      searchTimed := by simp [hcount, Exchange.event?]
      operated := fun operation ok => by simp [hcount, Exchange.event?] }

theorem append {m' : Metrics} {compilations' : List (Query × Bool)} {questions' : List Bool}
    {exchanges' : List Exchange} (h : m.Accounts compilations questions exchanges)
    (h' : m'.Accounts compilations' questions' exchanges') :
    (⟨m'.events ++ m.events⟩ : Metrics).Accounts (compilations ++ compilations')
      (questions ++ questions') (exchanges ++ exchanges') where
  compiled kind ok := by
    rw [count_append, h.compiled, h'.compiled, List.countP_append]
  compileTimed kind := by
    rw [count_append, h.compileTimed, h'.compileTimed, List.countP_append]
  searched ok := by
    rw [count_append, h.searched, h'.searched, List.countP_append]
  searchTimed := by
    rw [count_append, h.searchTimed, h'.searchTimed, List.length_append]
  operated operation ok := by
    rw [count_append, h.operated, h'.operated, List.countP_append]

/-- Each time that is taken is that of a success or of a failure. -/
theorem compileTimed_eq_add (h : m.Accounts compilations questions exchanges) (kind : QueryKind) :
    m.count (.compileTimed kind) =
      m.count (.compiled kind true) + m.count (.compiled kind false) := by
  rw [h.compileTimed, h.compiled, h.compiled,
    countP_true_add_countP_false (fun c : Query × Bool => c.1.IsOf kind) Prod.snd]

theorem searchTimed_eq_add (h : m.Accounts compilations questions exchanges) :
    m.count .searchTimed = m.count (.searched true) + m.count (.searched false) := by
  have hsplit := countP_true_add_countP_false (fun _ => True) id questions
  simp only [true_and, id, decide_true, List.countP_true] at hsplit
  rw [h.searchTimed, h.searched, h.searched, hsplit]

theorem operated_add (h : m.Accounts compilations questions exchanges) (operation : Operation) :
    m.count (.operated operation true) + m.count (.operated operation false) =
      exchanges.countP fun e => e.call.operation? = some operation := by
  rw [h.operated, h.operated,
    countP_true_add_countP_false (fun e => e.call.operation? = some operation) Exchange.succeeded]

end Metrics.Accounts

theorem Task.accounts_noted (task : Task) (w : World) :
    (⟨task.noted w⟩ : Metrics).Accounts task.compilation?.toList (task.question? w).toList
      (task.run.exchanges w) := by
  have hcompilation : (⟨task.compilation?.elim [] fun c =>
      [.compileTimed c.1.kind, .compiled c.1.kind c.2]⟩ : Metrics).Accounts
        task.compilation?.toList [] [] := by
    cases task.compilation? with
    | none => exact .nil
    | some c => exact .compilation c.1 c.2
  have hquestion : (⟨(task.question? w).elim [] fun ok =>
      [.searchTimed, .searched ok]⟩ : Metrics).Accounts [] (task.question? w).toList [] := by
    cases task.question? w with
    | none => exact .nil
    | some ok => exact .question ok
  have hcalls := Metrics.Accounts.calls (task.run.exchanges w)
  have hall := (hcalls.append hcompilation).append hquestion
  simpa [noted] using hall

/-! ## Runs -/

/-- A task, and what is done to the store by others before it. -/
structure Turn where
  meanwhile : Store → Store := id
  task : Task

namespace Turn

def start (turn : Turn) (w : World) : World :=
  { w with store := turn.meanwhile w.store }

def perform (turn : Turn) (w : World) : World :=
  (turn.task.run.perform (turn.start w)).2

def performAll (turns : List Turn) (w : World) : World :=
  turns.foldl (fun w turn => turn.perform w) w

/-- The tasks of a run, each with the world that it finds. -/
def encounters : List Turn → World → List (Task × World)
  | [], _ => []
  | turn :: rest, w => (turn.task, turn.start w) :: encounters rest (turn.perform w)

def compilations (met : List (Task × World)) : List (Query × Bool) :=
  met.flatMap fun m => m.1.compilation?.toList

def questions (met : List (Task × World)) : List Bool :=
  met.flatMap fun m => (m.1.question? m.2).toList

def exchanges (met : List (Task × World)) : List Exchange :=
  met.flatMap fun m => m.1.run.exchanges m.2

/-- What one task adds to the accounts. -/
theorem accounts_perform {cs : List (Query × Bool)} {qs : List Bool} {es : List Exchange}
    (turn : Turn) {w : World} (h : w.metrics.Accounts cs qs es) :
    (turn.perform w).metrics.Accounts (cs ++ turn.task.compilation?.toList)
      (qs ++ (turn.task.question? (turn.start w)).toList)
      (es ++ turn.task.run.exchanges (turn.start w)) := by
  have hadded := h.append (turn.task.accounts_noted (turn.start w))
  have hevents := turn.task.events_run (turn.start w)
  have hmetrics : (turn.perform w).metrics = ⟨turn.task.noted (turn.start w) ++ w.metrics.events⟩ :=
    congrArg Metrics.mk hevents
  rw [hmetrics]
  exact hadded

theorem accounts_performAll {cs : List (Query × Bool)} {qs : List Bool} {es : List Exchange}
    (turns : List Turn) {w : World} (h : w.metrics.Accounts cs qs es) :
    (performAll turns w).metrics.Accounts (cs ++ compilations (encounters turns w))
      (qs ++ questions (encounters turns w)) (es ++ exchanges (encounters turns w)) := by
  induction turns generalizing cs qs es w with
  | nil => simpa [encounters, compilations, questions, exchanges, performAll] using h
  | cons turn rest ih =>
    have hrest := ih (turn.accounts_perform h)
    simp only [encounters, compilations, questions, exchanges, List.flatMap_cons,
      List.append_assoc] at hrest ⊢
    exact hrest

/-- After every run from fresh metrics the counts are those of what has happened. Each compilation
is timed and counted once, as a success or a failure of its kind, and so is each search and count;
each call to the store is counted once under its operation. The calls are those that the tasks make,
since call by call a task does what it does as a whole. A creation looks for its index exactly once,
and a batch of records asks nothing exactly if one of them is invalid. No two events share a name
and labels, so the counts are those that are read off by name and labels. -/
theorem metrics_account_for_all (turns : List Turn) (s : Store) :
    let met := encounters turns ⟨s, {}⟩
    let m := (performAll turns ⟨s, {}⟩).metrics
    m.Accounts (compilations met) (questions met) (exchanges met) ∧
      (∀ kind, m.count (.compileTimed kind) =
        m.count (.compiled kind true) + m.count (.compiled kind false)) ∧
      m.count .searchTimed = m.count (.searched true) + m.count (.searched false) ∧
      (∀ operation, m.count (.operated operation true) + m.count (.operated operation false) =
        (exchanges met).countP fun e => e.call.operation? = some operation) ∧
      (∀ task : Task, task.run.Follows task.run) ∧
      (∀ (h : Handle) overwrite dropDocuments w,
        ((h.create overwrite dropDocuments).calls w).countP
          (fun call => call.operation? = some .info) = 1) ∧
      (∀ (h : Handle) records keyField preprocess w,
        (h.loadWith records keyField preprocess).exchanges w = [] ↔
          ∃ position fault, ((h.loadWith records keyField preprocess).perform w).1 =
            .error (.invalidRecord position fault)) ∧
      ∀ e, m.count e = m.events.countP fun e' => e'.name = e.name ∧ e'.labels = e.labels := by
  intro met m
  have hfresh : (⟨s, {}⟩ : World).metrics.Accounts [] [] [] := .nil
  have haccounts : m.Accounts (compilations met) (questions met) (exchanges met) :=
    accounts_performAll turns hfresh
  exact ⟨haccounts, haccounts.compileTimed_eq_add, haccounts.searchTimed_eq_add,
    haccounts.operated_add, Task.follows_run, Handle.countP_info_calls_create,
    Handle.exchanges_loadWith_eq_nil_iff, m.count_eq_countP⟩

end Turn

end HybridSearch
