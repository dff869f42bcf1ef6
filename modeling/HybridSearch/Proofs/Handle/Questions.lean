import HybridSearch.Proofs.Handle.Session

/-!
# Questions and their replies

Searches and counts of any number of handles on one store, among replies that are queued and indexes
that come and go.

* `Question`, `Question.answered`: a search or a count of a handle, and what comes of it.
* `Move`, `Move.performAll`: what can happen to the store, and runs of it.
* `Move.perform_create_eq`: a creation is a run of its calls.
* `Move.replies_in_turn`: which questions are recorded in a run, and which replies they get.
-/
namespace HybridSearch

/-! ## Questions -/

namespace Handle

variable (h : Handle)

/-- What comes of a query. It is sent to the store only if it compiles. -/
def sent (q : Query) (s : Store) : Except EngineError SearchResults × Store :=
  match q.compile h.schema with
  | .error e => (.error (.query e), s)
  | .ok compiled => s.search h.name compiled

theorem perform_search (q : Query) (w : World) :
    ((h.search q).perform w).1 = (h.sent q w.store).1 ∧
      ((h.search q).perform w).2.store = (h.sent q w.store).2 := by
  cases hcompiled : q.compile h.schema with
  | error e =>
    simp only [search, Query.compileCounted, sent, hcompiled]
    exact ⟨rfl, rfl⟩
  | ok compiled =>
    simp only [search, Query.compileCounted, sent, hcompiled]
    exact ⟨rfl, rfl⟩

theorem perform_count (f : Filter) (w : World) :
    ((h.count f).perform w).1 = (h.sent (.count f) w.store).1.map (·.total) ∧
      ((h.count f).perform w).2.store = (h.sent (.count f) w.store).2 := by
  obtain ⟨hanswer, hstore⟩ := h.perform_search (.count f) w
  rw [← hanswer, ← hstore, count, Action.perform_bind]
  rcases (h.search (.count f)).perform w with ⟨answer | answer, later⟩ <;> exact ⟨rfl, rfl⟩

end Handle

inductive Question where
  | search (h : Handle) (q : Query)
  | count (h : Handle) (f : Filter)

namespace Question

def handle : Question → Handle
  | search h _ => h
  | count h _ => h

def query : Question → Query
  | search _ q => q
  | count _ f => .count f

def Answer : Question → Type
  | search _ _ => SearchResults
  | count _ _ => Nat

def ask : (question : Question) → Action (StateM Store) question.Answer
  | search h q => h.search q
  | count h f => h.count f

/-- What is read of the results. -/
def read : (question : Question) → SearchResults → question.Answer
  | search _ _, results => results
  | count _ _, results => results.total

/-- What a store records of a question, if it comes so far. -/
def request? (question : Question) (s : Store) : Option (String × CompiledQuery) :=
  match question.query.compile question.handle.schema with
  | .error _ => none
  | .ok compiled =>
    if s.hasIndex question.handle.name then some (question.handle.name, compiled) else none

theorem perform_ask (question : Question) (w : World) :
    (question.ask.perform w).1 =
        (question.handle.sent question.query w.store).1.map question.read ∧
      (question.ask.perform w).2.store = (question.handle.sent question.query w.store).2 := by
  cases question with
  | search h q =>
    obtain ⟨hanswer, hstore⟩ := h.perform_search q w
    refine ⟨hanswer.trans ?_, hstore⟩
    show _ = Except.map id (h.sent q w.store).1
    cases (h.sent q w.store).1 <;> rfl
  | count h f => exact h.perform_count f w

/-- What may come of a question in a store when the reply `due` is the next one. -/
inductive Answered (question : Question) (due : Option SearchResults) (s : Store) :
    Except EngineError question.Answer → Store → Prop
  | uncompiled {e : QueryError}
      (hcompile : question.query.compile question.handle.schema = .error e) :
      Answered question due s (.error (.query e)) s
  | missing {compiled : CompiledQuery}
      (hcompile : question.query.compile question.handle.schema = .ok compiled)
      (habsent : s.hasIndex question.handle.name = false) :
      Answered question due s (.error (.command (.noSuchIndex question.handle.name))) s
  | recorded {compiled : CompiledQuery}
      (hcompile : question.query.compile question.handle.schema = .ok compiled)
      (hpresent : s.hasIndex question.handle.name = true) :
      Answered question due s (.ok (question.read (due.getD {})))
        { s with
          searches := s.searches ++ [(question.handle.name, compiled)]
          replies := s.replies.tail }

theorem answered (question : Question) (w : World) :
    question.Answered w.store.replies.head? w.store (question.ask.perform w).1
      (question.ask.perform w).2.store := by
  obtain ⟨hanswer, hstore⟩ := question.perform_ask w
  rw [hanswer, hstore, Handle.sent]
  cases hcompile : question.query.compile question.handle.schema with
  | error e => exact .uncompiled hcompile
  | ok compiled =>
    cases hindex : w.store.hasIndex question.handle.name with
    | false =>
      simp only [Store.search, hindex]
      exact .missing hcompile hindex
    | true =>
      simp only [Store.search, hindex, List.headD_eq_head?_getD]
      exact .recorded hcompile hindex

end Question

/-! ## Runs -/

/-- What can happen to a store. A creation that nothing interrupts is one move, and otherwise each
of its calls is one: looking for the index, deleting it, recording it. -/
inductive Move where
  | pushReply (reply : SearchResults)
  | create (h : Handle) (overwrite dropDocuments : Bool)
  | delete (h : Handle) (dropDocuments : Bool)
  | lookFor (h : Handle)
  | record (h : Handle)
  | ask (question : Question)

namespace Move

def perform : Move → World → World
  | pushReply reply, w => { w with store := w.store.pushReply reply }
  | create h overwrite dropDocuments, w => ((h.create overwrite dropDocuments).perform w).2
  | delete h dropDocuments, w => ((h.delete dropDocuments).perform w).2
  | lookFor h, w => (h.exists?.perform w).2
  | record h, w =>
    ((Action.counted .create (Engine.createIndex h.creation) : Action (StateM Store) Unit).perform
      w).2
  | ask question, w => (question.ask.perform w).2

def performAll (moves : List Move) (w : World) : World :=
  moves.foldl (fun w move => move.perform w) w

/-- A creation that nothing interrupts is its calls, one behind the other. -/
theorem perform_create_eq (h : Handle) (overwrite dropDocuments : Bool) (w : World) :
    (create h overwrite dropDocuments).perform w =
      performAll (lookFor h ::
        match w.store.hasIndex h.name, overwrite with
        | false, _ => [record h]
        | true, false => []
        | true, true => [delete h dropDocuments, record h]) w := by
  have hlook : (lookFor h).perform w = (h.exists?.perform w).2 := rfl
  show ((h.create overwrite dropDocuments).perform w).2 = performAll _ ((lookFor h).perform w)
  rw [hlook, Handle.create, Action.perform_bind, h.perform_exists?]
  cases hpresent : w.store.hasIndex h.name with
  | false => rfl
  | true =>
    cases overwrite with
    | false => rfl
    | true =>
      have hdropped := Store.dropIndex_of_present hpresent dropDocuments
      have hdelete := h.perform_delete dropDocuments (w.note (.operated .info true))
      rw [World.store_note, hdropped] at hdelete
      show ((h.delete dropDocuments >>= fun _ =>
        Action.counted .create (Engine.createIndex h.creation)).perform _).2 = _
      rw [Action.perform_bind, hdelete]
      show _ = (record h).perform ((h.delete dropDocuments).perform _).2
      rw [hdelete]
      rfl

def pushed? : Move → Option SearchResults
  | pushReply reply => some reply
  | _ => none

/-- What a store records of a move. -/
def request? : Move → Store → Option (String × CompiledQuery)
  | ask question, s => question.request? s
  | _, _ => none

/-- The reply that a move is given, if it is recorded and there is one. -/
def taken? (move : Move) (s : Store) : Option SearchResults :=
  (move.request? s).bind fun _ => s.replies.head?

/-- What `f` gives for the moves of a run, each in the store that the move finds. -/
def collect {α : Type} (f : Move → Store → Option α) : List Move → World → List α
  | [], _ => []
  | move :: rest, w => (f move w.store).toList ++ collect f rest (move.perform w)

end Move

namespace Store

/-- The same searches have been recorded, and the same replies are waiting. -/
def SameTraffic (s s' : Store) : Prop :=
  s'.searches = s.searches ∧ s'.replies = s.replies

theorem sameTraffic_dropIndex (name : String) (dropDocuments : Bool) (s : Store) :
    s.SameTraffic (s.dropIndex name dropDocuments).2 := by
  rw [dropIndex]
  cases lookUp? name s.indexes with
  | none => exact ⟨rfl, rfl⟩
  | some arguments => cases dropDocuments <;> exact ⟨rfl, rfl⟩

theorem sameTraffic_createIndex (arguments : List String) (s : Store) :
    s.SameTraffic (s.createIndex arguments).2 := by
  cases arguments with
  | nil => exact ⟨rfl, rfl⟩
  | cons name rest =>
    rw [createIndex]
    split <;> exact ⟨rfl, rfl⟩

end Store

theorem Handle.sameTraffic_create (h : Handle) (overwrite dropDocuments : Bool) (w : World) :
    w.store.SameTraffic ((h.create overwrite dropDocuments).perform w).2.store := by
  rw [(h.perform_create overwrite dropDocuments w).2]
  split
  · exact ⟨rfl, rfl⟩
  · exact Store.sameTraffic_dropIndex h.name dropDocuments w.store

namespace Move

theorem traffic_ask (question : Question) (w : World) :
    ((ask question).perform w).store.searches =
        w.store.searches ++ (question.request? w.store).toList ∧
      w.store.replies =
        ((ask question).taken? w.store).toList ++ ((ask question).perform w).store.replies := by
  have hask : ((ask question).perform w).store =
      (question.handle.sent question.query w.store).2 := (question.perform_ask w).2
  have htaken : (ask question).taken? w.store =
      (question.request? w.store).bind fun _ => w.store.replies.head? := rfl
  rw [hask, htaken, Handle.sent, Question.request?]
  cases question.query.compile question.handle.schema with
  | error e => exact ⟨(List.append_nil _).symm, rfl⟩
  | ok compiled =>
    dsimp only
    rw [Store.search]
    cases w.store.hasIndex question.handle.name with
    | false => exact ⟨(List.append_nil _).symm, rfl⟩
    | true => exact ⟨rfl, by cases w.store.replies <;> rfl⟩

/-- What one move does to the searches and the replies. -/
theorem traffic_perform (move : Move) (w : World) :
    (move.perform w).store.searches = w.store.searches ++ (move.request? w.store).toList ∧
      w.store.replies ++ move.pushed?.toList =
        (move.taken? w.store).toList ++ (move.perform w).store.replies := by
  -- Only questions are recorded or given a reply, and only a reply that is pushed is queued.
  have hquiet {s : Store} (hsame : w.store.SameTraffic s) :
      s.searches = w.store.searches ++ [] ∧ w.store.replies ++ [] = [] ++ s.replies :=
    ⟨by rw [hsame.1, List.append_nil], by rw [hsame.2, List.append_nil, List.nil_append]⟩
  cases move with
  | pushReply reply => exact ⟨(List.append_nil _).symm, rfl⟩
  | create h overwrite dropDocuments =>
    exact hquiet (h.sameTraffic_create overwrite dropDocuments w)
  | delete h dropDocuments =>
    exact hquiet (Store.sameTraffic_dropIndex h.name dropDocuments w.store)
  | lookFor h => exact hquiet ⟨rfl, rfl⟩
  | record h => exact hquiet (Store.sameTraffic_createIndex h.creation w.store)
  | ask question =>
    obtain ⟨hsearches, hreplies⟩ := traffic_ask question w
    exact ⟨hsearches, (List.append_nil _).trans hreplies⟩

theorem traffic_performAll (moves : List Move) (w : World) :
    (performAll moves w).store.searches = w.store.searches ++ collect request? moves w ∧
      w.store.replies ++ moves.filterMap pushed? =
        collect taken? moves w ++ (performAll moves w).store.replies := by
  induction moves generalizing w with
  | nil => exact ⟨(List.append_nil _).symm, List.append_nil _⟩
  | cons move rest ih =>
    obtain ⟨hsearches, hreplies⟩ := move.traffic_perform w
    obtain ⟨hlaterSearches, hlaterReplies⟩ := ih (move.perform w)
    have hpushed : (move :: rest).filterMap pushed? =
        move.pushed?.toList ++ rest.filterMap pushed? := by
      rw [List.filterMap_cons]
      cases move.pushed? <;> rfl
    constructor
    · show (performAll rest (move.perform w)).store.searches = _
      rw [hlaterSearches, hsearches, collect, List.append_assoc]
    · show _ = _ ++ (performAll rest (move.perform w)).store.replies
      rw [hpushed, ← List.append_assoc, hreplies, List.append_assoc, hlaterReplies, collect,
        List.append_assoc]

/-- Searches and counts get their replies in turn, whatever else happens in between. After every run
the recorded searches are those that were sent to an index that existed then, in order, and the
replies that were given out are the first ones that were queued. A question that comes next fails if
its query does not compile or its index does not exist, and then leaves the store as it is; and
otherwise it is recorded and given the reply that is due, or nothing if there is none. -/
theorem replies_in_turn (moves : List Move) (w : World) :
    let later := performAll moves w
    let queued := w.store.replies ++ moves.filterMap pushed?
    let taken := collect taken? moves w
    let due := (queued.drop taken.length).head?
    later.store.searches = w.store.searches ++ collect request? moves w ∧
      queued = taken ++ later.store.replies ∧
      ∀ question : Question,
        (ask question).taken? later.store = (question.request? later.store).bind (fun _ => due) ∧
          question.Answered due later.store (question.ask.perform later).1
            (question.ask.perform later).2.store := by
  intro later queued taken due
  obtain ⟨hsearches, hreplies⟩ := traffic_performAll moves w
  -- What is left in the queue is what has not been given out, so its head is the reply due.
  have hdue : due = later.store.replies.head? := by
    show ((w.store.replies ++ moves.filterMap pushed?).drop taken.length).head? = _
    rw [hreplies, List.drop_left]
  exact ⟨hsearches, hreplies, fun question => hdue ▸ ⟨rfl, question.answered later⟩⟩

end Move
end HybridSearch
