import HybridSearch.Config
import HybridSearch.Engine
import HybridSearch.Metrics
import HybridSearch.Schema.Creation

/-!
# Handles

A schema bound to an engine. Every operation takes note of what it does in the metrics, whether it
succeeds or fails.

* `Handle.create`, `Handle.delete`, `Handle.exists?`: the index as a whole.
* `Handle.search`, `Handle.count`: questions.
* `Handle.load`, `Handle.fetch`: documents.
-/
namespace HybridSearch

abbrev Action (m : Type → Type) (α : Type) := ExceptT EngineError (StateT Metrics m) α

namespace Action

variable {m : Type → Type} [Monad m] {α : Type}

def note (e : Event) : StateT Metrics m Unit :=
  modify fun metrics => metrics.record e

def counted (operation : Operation) (call : m (Except EngineError α)) : Action m α :=
  ExceptT.mk do
    let result ← StateT.lift call
    note (.operated operation result.isOk)
    return result

end Action

def Query.compileCounted {m : Type → Type} [Monad m] (q : Query) (s : Schema) :
    StateT Metrics m (Except QueryError CompiledQuery) := do
  let result := q.compile s
  Action.note (.compiled q.kind result.isOk)
  Action.note (.compileTimed q.kind)
  return result

/-- A schema with the settings under which it is used. -/
structure Handle where
  schema : Schema
  config : Config := {}

namespace Handle

def connect (schema : Schema) (config : Config) : Except EngineError Handle :=
  match config.engineUrl with
  | none => .error (.connection .notConfigured)
  | some url =>
    match Address.ofText url with
    | .ok _ => .ok ⟨schema, config⟩
    | .error fault => .error (.connection (.address fault))

def name (h : Handle) : String :=
  h.config.indexName h.schema.name

def key (h : Handle) (id : String) : String :=
  h.schema.key id

def creation (h : Handle) : List String :=
  h.schema.creation h.config.nameSpace

/-! ## Making queries -/

/-- A query for the documents that a filter lets through, as many as the settings say. -/
def filterQuery (h : Handle) (f : Filter) : Query :=
  (Query.filter { filter := f }).paged 0 h.config.defaultLimit

/-- A vector query with the name of the distance and the number of documents that the settings
say. -/
def withDefaults (h : Handle) (q : Query) : Query :=
  (q.withAlias h.config.distanceAlias).paged 0 h.config.defaultLimit

def nearestQuery (h : Handle) (field : String) (values : List Binary64) (k : Nat) :
    Except QueryError Query :=
  (Query.ofNearest h.schema field (.values values) k).map h.withDefaults

def withinQuery (h : Handle) (field : String) (values : List Binary64) (threshold : Binary64) :
    Except QueryError Query :=
  (Query.ofWithin h.schema field (.values values) threshold).map h.withDefaults

/-! ## Asking the engine -/

variable {m : Type → Type} [Monad m] [Engine m]

def exists? (h : Handle) : Action m Bool :=
  Action.counted .info (Engine.indexExists h.name)

def delete (h : Handle) (dropDocuments : Bool) : Action m Unit :=
  Action.counted .drop (Engine.dropIndex h.name dropDocuments)

/-- Creates the index. One that exists is kept, or else removed first, on request with its
documents. -/
def create (h : Handle) (overwrite dropDocuments : Bool) : Action m Unit := do
  if ← h.exists? then
    if !overwrite then return
    h.delete dropDocuments
  Action.counted .create (Engine.createIndex h.creation)

def search (h : Handle) (q : Query) : Action m SearchResults :=
  ExceptT.mk do
    let result ←
      match ← q.compileCounted h.schema with
      | .ok compiled => StateT.lift (Engine.search h.name compiled)
      | .error e => pure (.error (.query e))
    Action.note (.searched result.isOk)
    Action.note .searchTimed
    return result

def count (h : Handle) (f : Filter) : Action m Nat := do
  return (← h.search (.count f)).total

/-- Writes records, each changed by `preprocess` first, and gives their keys. Nothing is written
unless every record has a document. -/
def loadWith (h : Handle) (records : List Record) (keyField : String)
    (preprocess : Record → Record) : Action m (List String) := do
  match h.schema.documents keyField (records.map preprocess) with
  | .error (position, fault) => throw (.invalidRecord position fault)
  | .ok documents =>
    Action.counted .load (Engine.load documents)
    return documents.map fun d => d.key

def load (h : Handle) (records : List Record) (keyField : String) : Action m (List String) :=
  h.loadWith records keyField id

def fetch (h : Handle) (id : String) : Action m (Option Row) :=
  Action.counted .fetch (Engine.fetch (h.key id) h.schema.storage)

end Handle
end HybridSearch
