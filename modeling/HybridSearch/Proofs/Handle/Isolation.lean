import HybridSearch.Proofs.Document.Validity
import HybridSearch.Proofs.Handle.Dropping
import HybridSearch.Proofs.Schema.Keys
import HybridSearch.Proofs.Store.Contents

/-!
# Handles that share a store

Handles with different names and unrelated key prefixes do not notice each other: whatever the
others do with their indexes and documents, a handle answers as if it were alone, and finds its
documents as it left them.

* `IndexCall`, `IndexAnswer`: what is asked of a handle, and what it answers.
* `Handle.ownPart`: the part of a store that a handle sees.
* `IndexCall.perform_ownPart`: a call is answered from that part alone, and changes it alike.
* `IndexCall.ownPart_perform`: a call of an unrelated handle leaves it as it was.
* `IndexCall.answers_as_if_alone`: all answers in an interleaving of calls.
-/
namespace HybridSearch

open Text

/-- What can be asked of a handle about its index as a whole and about documents. -/
inductive IndexCall where
  | create (overwrite dropDocuments : Bool)
  | delete (dropDocuments : Bool)
  | exists?
  | load (records : List Record) (keyField : String) (preprocess : Record → Record)
  | fetch (id : String)

inductive IndexAnswer where
  | done (result : Except EngineError Unit)
  | present (result : Except EngineError Bool)
  | keys (result : Except EngineError (List String))
  | row (result : Except EngineError (Option Row))

namespace IndexCall

def perform (h : Handle) : IndexCall → World → IndexAnswer × World
  | create overwrite dropDocuments, w =>
    ((h.create overwrite dropDocuments).perform w).map .done id
  | delete dropDocuments, w => ((h.delete dropDocuments).perform w).map .done id
  | exists?, w => (h.exists?.perform w).map .present id
  | load records keyField preprocess, w =>
    ((h.loadWith records keyField preprocess).perform w).map .keys id
  | fetch id, w => ((h.fetch id).perform w).map .row fun w => w

/-- The answers to calls of some handles, one after the other, and the world that is left. -/
def performAll {ι : Type} (handles : ι → Handle) :
    List (ι × IndexCall) → World → List (ι × IndexAnswer) × World
  | [], w => ([], w)
  | (i, call) :: rest, w =>
    let step := call.perform (handles i) w
    let later := performAll handles rest step.2
    ((i, step.1) :: later.1, later.2)

end IndexCall

/-! ## The part of a store that a handle sees -/

def Store.documentsUnder (keyPrefix : String) (s : Store) : List (String × Body) :=
  s.documents.filter fun pair => startsWith pair.1 keyPrefix

namespace Handle

variable (h : Handle)

/-- A store with nothing in it but the index of a handle and the documents under its prefix. -/
def ownPart (s : Store) : Store :=
  { s with
    indexes := s.indexes.filter fun pair => pair.1 == h.name
    documents := s.documentsUnder h.schema.keyPrefix }

theorem lookUp?_ownPart (s : Store) :
    lookUp? h.name (h.ownPart s).indexes = lookUp? h.name s.indexes :=
  lookUp?_filter (p := fun name => name == h.name) (beq_self_eq_true _)

theorem hasIndex_ownPart (s : Store) : (h.ownPart s).hasIndex h.name = s.hasIndex h.name := by
  rw [Store.hasIndex, lookUp?_ownPart, Store.hasIndex]

theorem dropIndex_ownPart (dropDocuments : Bool) (s : Store) :
    (h.ownPart s).dropIndex h.name dropDocuments =
      ((s.dropIndex h.name dropDocuments).1,
        h.ownPart (s.dropIndex h.name dropDocuments).2) := by
  rw [Store.dropIndex, Store.dropIndex, lookUp?_ownPart]
  cases lookUp? h.name s.indexes with
  | none => rfl
  | some arguments =>
    cases dropDocuments <;>
      simp [ownPart, Store.dropCovered, Store.documentsUnder, List.filter_filter, Bool.and_comm]

theorem ownPart_record (arguments : List String) (s : Store) :
    h.ownPart { s with indexes := s.indexes ++ [(h.name, arguments)] } =
      { h.ownPart s with indexes := (h.ownPart s).indexes ++ [(h.name, arguments)] } := by
  simp [ownPart, Store.documentsUnder]

end Handle

/-- The documents of a batch stand under the prefix of their schema. -/
theorem Schema.startsWith_of_mem_documents {s : Schema} {keyField : String}
    {records : List Record} {documents : List Document}
    (h : s.documents keyField records = .ok documents) :
    ∀ d ∈ documents, startsWith d.key s.keyPrefix = true := by
  intro d hd
  obtain ⟨r, -, hr⟩ := (exists_of_forall₂_of_mem (documentsFrom_eq_ok_iff.mp h)).2 d hd
  obtain ⟨id, -, -, hkey⟩ := document_eq_ok_iff.mp hr
  rw [hkey]
  exact s.startsWith_key id

namespace IndexCall

/-- A call is answered as in a store that holds nothing but the part of its handle, and leaves of
that part the same. -/
theorem perform_ownPart (h : Handle) (call : IndexCall) (s : Store) (metrics metrics' : Metrics) :
    (call.perform h ⟨h.ownPart s, metrics'⟩).1 = (call.perform h ⟨s, metrics⟩).1 ∧
      (call.perform h ⟨h.ownPart s, metrics'⟩).2.store =
        h.ownPart (call.perform h ⟨s, metrics⟩).2.store := by
  cases call with
  | create overwrite dropDocuments =>
    obtain ⟨hanswer, hstore⟩ := h.perform_create overwrite dropDocuments ⟨s, metrics⟩
    obtain ⟨hanswer', hstore'⟩ := h.perform_create overwrite dropDocuments ⟨h.ownPart s, metrics'⟩
    dsimp only at hstore hstore'
    refine ⟨congrArg IndexAnswer.done (hanswer'.trans hanswer.symm), ?_⟩
    show ((h.create overwrite dropDocuments).perform ⟨h.ownPart s, metrics'⟩).2.store =
      h.ownPart ((h.create overwrite dropDocuments).perform ⟨s, metrics⟩).2.store
    rw [hstore, hstore', h.hasIndex_ownPart, h.dropIndex_ownPart]
    split
    · rfl
    · rw [h.ownPart_record]
  | delete dropDocuments =>
    simp only [perform, Handle.perform_delete, h.dropIndex_ownPart, Prod.map]
    exact ⟨trivial, rfl⟩
  | exists? =>
    simp only [perform, Handle.perform_exists?, h.hasIndex_ownPart, Prod.map]
    exact ⟨trivial, rfl⟩
  | load records keyField preprocess =>
    simp only [perform, Handle.perform_loadWith, Prod.map]
    cases hdocuments : h.schema.documents keyField (records.map preprocess) with
    | error fault => exact ⟨rfl, rfl⟩
    | ok documents =>
      have hload := Store.load_of_filter (p := fun key => startsWith key h.schema.keyPrefix)
        (Schema.startsWith_of_mem_documents hdocuments) (s := s) (t := h.ownPart s) rfl
      obtain ⟨stored, hframe⟩ := s.load_frame documents
      dsimp only
      rw [hload]
      refine ⟨rfl, ?_⟩
      simp only [id_eq, World.store_note, hframe]
      rfl
  | fetch id =>
    have hfetch : (h.ownPart s).fetch (h.key id) h.schema.storage =
        s.fetch (h.key id) h.schema.storage :=
      Store.fetch_congr (lookUp?_filter (p := fun key => startsWith key h.schema.keyPrefix)
        (h.schema.startsWith_key id)) _
    simp only [perform, Handle.perform_fetch, hfetch, Prod.map]
    exact ⟨trivial, rfl⟩

end IndexCall

/-! ## Unrelated handles -/

/-- Handles whose indexes have different names and cover no common key. The names of the first one
are none that a store would take for a keyword. -/
structure Handle.UnrelatedTo (other mine : Handle) : Prop where
  plain : other.HasPlainNames
  name_ne : other.name ≠ mine.name
  notWithin : startsWith other.schema.keyPrefix mine.schema.keyPrefix = false
  notAround : startsWith mine.schema.keyPrefix other.schema.keyPrefix = false

section Unrelated

variable {ι : Type} {handles : ι → Handle} {mine : ι}

/-- What a store has recorded under other names than that of one handle is the creation of other
handles. -/
def Store.RecordsOthers (handles : ι → Handle) (mine : ι) (s : Store) : Prop :=
  ∀ pair ∈ s.indexes, pair.1 ≠ (handles mine).name →
    ∃ other, other ≠ mine ∧ pair.2 = (handles other).creation

theorem Store.mem_indexes_dropIndex {s : Store} {name : String} {dropDocuments : Bool}
    {pair : String × List String} (h : pair ∈ (s.dropIndex name dropDocuments).2.indexes) :
    pair ∈ s.indexes := by
  rw [Store.dropIndex] at h
  cases hfound : lookUp? name s.indexes with
  | none => rwa [hfound] at h
  | some arguments =>
    rw [hfound] at h
    cases dropDocuments <;> exact (List.mem_filter.mp h).1

theorem IndexCall.indexes_perform (h : Handle) (call : IndexCall) (w : World) :
    ∀ pair ∈ (call.perform h w).2.store.indexes,
      pair ∈ w.store.indexes ∨ pair = (h.name, h.creation) := by
  intro pair hpair
  cases call with
  | create overwrite dropDocuments =>
    have hpair : pair ∈ ((h.create overwrite dropDocuments).perform w).2.store.indexes := hpair
    rw [(h.perform_create overwrite dropDocuments w).2] at hpair
    split at hpair
    · exact .inl hpair
    · rcases List.mem_append.mp hpair with hpair | hpair
      · exact .inl (Store.mem_indexes_dropIndex hpair)
      · exact .inr (List.mem_singleton.mp hpair)
  | delete dropDocuments => exact .inl (Store.mem_indexes_dropIndex hpair)
  | exists? => exact .inl hpair
  | load records keyField preprocess =>
    obtain ⟨stored, hstored⟩ := (Access.load h records keyField preprocess).store_perform w
    have hpair : pair ∈ ((Access.load h records keyField preprocess).perform w).store.indexes :=
      hpair
    rw [hstored] at hpair
    exact .inl hpair
  | fetch id => exact .inl hpair

theorem Store.RecordsOthers.perform {w : World} (hw : w.store.RecordsOthers handles mine) (i : ι)
    (call : IndexCall) : (call.perform (handles i) w).2.store.RecordsOthers handles mine := by
  intro pair hpair hname
  rcases IndexCall.indexes_perform (handles i) call w pair hpair with hpair | rfl
  · exact hw pair hpair hname
  · exact ⟨i, fun heq => hname (heq ▸ rfl), rfl⟩

variable (hothers : ∀ other, other ≠ mine → (handles other).UnrelatedTo (handles mine))
include hothers

theorem Handle.ownPart_dropIndex {s : Store} (hs : s.RecordsOthers handles mine) {name : String}
    (hname : name ≠ (handles mine).name) (dropDocuments : Bool) :
    (handles mine).ownPart (s.dropIndex name dropDocuments).2 = (handles mine).ownPart s := by
  have hindexes : ((s.indexes.filter fun pair => pair.1 != name).filter fun pair =>
      pair.1 == (handles mine).name) =
        s.indexes.filter fun pair => pair.1 == (handles mine).name := by
    rw [List.filter_filter]
    refine List.filter_congr fun pair _ => ?_
    by_cases hpair : pair.1 = (handles mine).name
    · simp [hpair, hname.symm]
    · simp [hpair]
  rw [Store.dropIndex]
  cases hfound : lookUp? name s.indexes with
  | none => rfl
  | some arguments =>
    -- What is recorded under the name is the creation of an unrelated handle.
    obtain ⟨other, hother, harguments⟩ := hs _ (mem_of_lookUp?_eq_some hfound) hname
    obtain rfl : arguments = (handles other).creation := harguments
    have hunrelated := hothers other hother
    have hcovers := (handles other).covers_creation_iff.mpr hunrelated.plain
    have hdocuments : ((s.documents.filter fun pair =>
        !Store.covers (Store.coveredPrefixes (handles other).creation) pair.1).filter fun pair =>
          startsWith pair.1 (handles mine).schema.keyPrefix) =
        s.documents.filter fun pair => startsWith pair.1 (handles mine).schema.keyPrefix := by
      rw [List.filter_filter]
      refine List.filter_congr fun pair _ => ?_
      rw [hcovers]
      cases hmine : startsWith pair.1 (handles mine).schema.keyPrefix with
      | false => rfl
      | true =>
        rw [startsWith_eq_false hmine hunrelated.notAround hunrelated.notWithin]
        rfl
    cases dropDocuments with
    | false => simp only [Bool.false_eq_true, if_false, Handle.ownPart, hindexes]; rfl
    | true =>
      simp only [if_true, Handle.ownPart, Store.dropCovered, Store.documentsUnder, hindexes,
        hdocuments]

/-- A call of another handle leaves of the part that a handle sees everything as it was. -/
theorem IndexCall.ownPart_perform {w : World} (hw : w.store.RecordsOthers handles mine) {i : ι}
    (hi : i ≠ mine) (call : IndexCall) :
    (handles mine).ownPart (call.perform (handles i) w).2.store =
      (handles mine).ownPart w.store := by
  have hunrelated := hothers i hi
  have hdrop := Handle.ownPart_dropIndex hothers hw hunrelated.name_ne
  cases call with
  | create overwrite dropDocuments =>
    show (handles mine).ownPart
      (((handles i).create overwrite dropDocuments).perform w).2.store = _
    rw [((handles i).perform_create overwrite dropDocuments w).2]
    split
    · rfl
    · rw [← hdrop dropDocuments]
      simp [Handle.ownPart, Store.documentsUnder, hunrelated.name_ne]
  | delete dropDocuments => exact hdrop dropDocuments
  | exists? => rfl
  | load records keyField preprocess =>
    show (handles mine).ownPart
      (((handles i).loadWith records keyField preprocess).perform w).2.store = _
    rw [Handle.perform_loadWith]
    cases hdocuments : (handles i).schema.documents keyField (records.map preprocess) with
    | error fault => rfl
    | ok documents =>
      have hkeys : ∀ d ∈ documents,
          startsWith d.key (handles mine).schema.keyPrefix = false := fun d hd =>
        startsWith_eq_false (Schema.startsWith_of_mem_documents hdocuments d hd)
          hunrelated.notWithin hunrelated.notAround
      have hfilter := Store.filter_load_of_not
        (p := fun key => startsWith key (handles mine).schema.keyPrefix) hkeys w.store
      obtain ⟨stored, hframe⟩ := w.store.load_frame documents
      rw [hframe] at hfilter
      simp only [World.store_note, hframe, Handle.ownPart, Store.documentsUnder]
      rw [hfilter]
  | fetch id => rfl

/-- In an interleaving of calls a handle answers as it does alone in its part of the store, and
leaves the same of that part. -/
theorem IndexCall.performAll_ownPart [DecidableEq ι] (calls : List (ι × IndexCall)) {s : Store}
    (hs : s.RecordsOthers handles mine) (metrics metrics' : Metrics) :
    let alone := performAll handles (calls.filter fun call => call.1 = mine)
      ⟨(handles mine).ownPart s, metrics'⟩
    let together := performAll handles calls ⟨s, metrics⟩
    alone.1 = together.1.filter (fun answer => answer.1 = mine) ∧
      alone.2.store = (handles mine).ownPart together.2.store := by
  induction calls generalizing s metrics metrics' with
  | nil => exact ⟨rfl, rfl⟩
  | cons first rest ih =>
    obtain ⟨i, call⟩ := first
    intro alone together
    have hnext : (call.perform (handles i) ⟨s, metrics⟩).2.store.RecordsOthers handles mine :=
      Store.RecordsOthers.perform hs i call
    by_cases hi : i = mine
    · subst hi
      obtain ⟨hanswer, hstore⟩ := perform_ownPart (handles i) call s metrics metrics'
      obtain ⟨hanswers, hfinal⟩ := ih hnext (call.perform (handles i) ⟨s, metrics⟩).2.metrics
        (call.perform (handles i) ⟨(handles i).ownPart s, metrics'⟩).2.metrics
      rw [← hstore] at hanswers hfinal
      simp only [alone, together, List.filter_cons, performAll, decide_true, if_true]
      exact ⟨List.cons_eq_cons.mpr ⟨Prod.ext rfl hanswer, hanswers⟩, hfinal⟩
    · obtain ⟨hanswers, hfinal⟩ := ih hnext (call.perform (handles i) ⟨s, metrics⟩).2.metrics
        metrics'
      rw [ownPart_perform hothers hs hi call] at hanswers hfinal
      simp only [alone, together, List.filter_cons, performAll, hi, decide_false,
        Bool.false_eq_true, if_false]
      exact ⟨hanswers, hfinal⟩

/-- Handles that share a store from the start, each unrelated to one of them, do not interfere with
that one: in every interleaving of their calls it gives the answers that it gives without the calls
of the others, and the same documents are stored under its prefix in the end. -/
theorem IndexCall.answers_as_if_alone [DecidableEq ι] (calls : List (ι × IndexCall))
    (metrics : Metrics) :
    let alone := performAll handles (calls.filter fun call => call.1 = mine) ⟨{}, metrics⟩
    let together := performAll handles calls ⟨{}, metrics⟩
    together.1.filter (fun answer => answer.1 = mine) = alone.1 ∧
      together.2.store.documentsUnder (handles mine).schema.keyPrefix =
        alone.2.store.documentsUnder (handles mine).schema.keyPrefix := by
  intro alone together
  obtain ⟨hanswers, hstore⟩ :=
    performAll_ownPart hothers calls (s := {}) nofun metrics metrics
  have hstore : alone.2.store = (handles mine).ownPart together.2.store := hstore
  refine ⟨hanswers.symm, ?_⟩
  rw [hstore]
  simp [Handle.ownPart, Store.documentsUnder]

end Unrelated

/-- A handle for articles and one for users, with a prefix each. -/
def articlesAndUsers (users : Bool) : Handle :=
  if users then ⟨{ name := "users", keyPrefix := "user", checked := rfl }, {}⟩
  else ⟨{ name := "articles", keyPrefix := "article", checked := rfl }, {}⟩

def sharedCalls : List (Bool × IndexCall) :=
  let load := IndexCall.load [Record.ofEntries [("id", .string "7")]] "id" id
  [(true, .create false false), (false, .create false false), (false, load), (true, load),
    (false, .delete true), (true, .fetch "7"), (false, .create true true), (true, .exists?)]

/-- Users do not notice that the articles are dropped with their documents, and keep their own. -/
theorem users_answer_as_if_alone :
    (∀ other, other ≠ true → (articlesAndUsers other).UnrelatedTo (articlesAndUsers true)) ∧
      let alone := IndexCall.performAll articlesAndUsers
        (sharedCalls.filter fun call => call.1 = true) ⟨{}, {}⟩
      let together := IndexCall.performAll articlesAndUsers sharedCalls ⟨{}, {}⟩
      together.1.filter (fun answer => answer.1 = true) = alone.1 ∧
        together.2.store.documentsUnder "user" = alone.2.store.documentsUnder "user" ∧
        (together.2.store.documentsUnder "user").length = 1 := by
  have hunrelated : ∀ other, other ≠ true →
      (articlesAndUsers other).UnrelatedTo (articlesAndUsers true) := by
    intro other hother
    obtain rfl : other = false := Bool.eq_false_iff.mpr hother
    exact ⟨⟨by decide, by decide, by decide⟩, by decide, by decide, by decide⟩
  obtain ⟨hanswers, hdocuments⟩ := IndexCall.answers_as_if_alone hunrelated sharedCalls {}
  exact ⟨hunrelated, hanswers, hdocuments, by decide⟩

end HybridSearch
