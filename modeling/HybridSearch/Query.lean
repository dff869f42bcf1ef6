import HybridSearch.Filter
import HybridSearch.Query.Compiled

/-!
# Queries

What is asked of an index: the documents that a filter lets through, their nearest neighbours or
those within a distance of a vector, or their number; and which part of the answer is wanted.

* `Query.nearest`, `Query.within`: vector queries, checked against a schema when they are made.
* `Query.compile`: the compiled query. The filter is checked first, then the vector, the names, and
  the sort field.
-/
namespace HybridSearch

def dialect : Nat := 2

/-- The name of the distance in the answer, unless another one is chosen. -/
def defaultAlias : String := "vector_distance"

/-- The number of documents in an answer, unless another one is chosen. -/
def defaultLimit : Nat := 10

def vectorParam : String := "vector"

def thresholdParam : String := "distance_threshold"

/-- By what an answer is ordered. -/
structure SortKey where
  field : String
  ascending : Bool
  deriving DecidableEq

/-- The settings that queries for documents have in common. -/
structure QueryOptions where
  filter : Filter := .matchAll
  /-- The attributes to return; every field that is no vector if none are named. -/
  returnFields : Option (List String) := none
  sortBy : Option SortKey := none
  offset : Nat := 0
  /-- How many documents are returned at most. -/
  limit : Nat := defaultLimit
  deriving DecidableEq

/-- The vector of a query: the field that it is compared with, its stored form, and the name of the
distance in the answer. -/
structure QueryVector where
  field : String
  bytes : Bytes
  distanceName : String := defaultAlias
  deriving DecidableEq

inductive Query where
  | filter (options : QueryOptions)
  /-- Of those the `k` nearest to the vector. -/
  | nearest (vector : QueryVector) (k : Nat) (options : QueryOptions)
  | within (vector : QueryVector) (threshold : Binary64) (options : QueryOptions)
  | count (filter : Filter)
  deriving DecidableEq

inductive QueryKind where
  | filter
  | vector
  | range
  | count
  deriving DecidableEq, Repr

def QueryKind.name : QueryKind → String
  | filter => "filter"
  | vector => "vector"
  | range => "range"
  | count => "count"

namespace QueryOptions

/-- The attributes that are returned: those asked for, or every field that is no vector, and the
name of the distance if it is not among them. -/
def resolvedFields (o : QueryOptions) (s : Schema) (distanceName : Option String) : List String :=
  let fields := o.returnFields.getD
    ((s.fields.filter fun f => f.kind != .vector).map fun f => f.name)
  match distanceName with
  | some name => if fields.contains name then fields else fields ++ [name]
  | none => fields

/-- The names that a query brings into the command: the name of the distance and the attributes
asked for. -/
def names (o : QueryOptions) (distanceName : Option String) : List String :=
  distanceName.toList ++ o.returnFields.getD []

/-- Checks that the names are words, and that the sort field is declared or the distance. -/
def check (o : QueryOptions) (s : Schema) (distanceName : Option String) :
    Except QueryError Unit := do
  match (o.names distanceName).find? fun name => !Text.isWord name with
  | some name => throw (.invalidName name)
  | none => pure ()
  match o.sortBy with
  | some key =>
    if distanceName ≠ some key.field ∧ (s.field? key.field).isNone then
      throw (.invalidSortField key.field)
  | none => pure ()

def returnClause (fields : List String) : List String :=
  if fields.isEmpty then [] else "RETURN" :: toString fields.length :: fields

def sortClause : Option SortKey → List String
  | some key => ["SORTBY", key.field, if key.ascending then "ASC" else "DESC"]
  | none => []

/-- The arguments that shape the answer. Without a sort key the answer is ordered by the distance,
if there is one. -/
def clauses (o : QueryOptions) (s : Schema) (distanceName : Option String) : List String :=
  returnClause (o.resolvedFields s distanceName) ++
    sortClause (o.sortBy <|> distanceName.map fun field => ⟨field, true⟩) ++
    ["DIALECT", toString dialect, "LIMIT", toString o.offset, toString o.limit]

end QueryOptions

namespace QueryVector

/-- Checks that the field is a vector field and the vector as long as its vectors. -/
def check (v : QueryVector) (s : Schema) : Except QueryError Unit := do
  let options ← s.requireVector v.field
  if v.bytes.length ≠ options.byteLength then
    throw (.vectorLength v.field options.byteLength v.bytes.length)

def ofBytes (s : Schema) (field : String) (bytes : Bytes) : Except QueryError QueryVector := do
  let v : QueryVector := { field, bytes }
  v.check s
  return v

def ofValues (s : Schema) (field : String) (values : List Binary64) :
    Except QueryError QueryVector := do
  let options ← s.requireVector field
  ofBytes s field (options.elementType.encode values)

end QueryVector

inductive VectorInput where
  | bytes (bytes : Bytes)
  | values (values : List Binary64)
  | singles (values : List UInt32)

def VectorInput.resolve (input : VectorInput) (s : Schema) (field : String) :
    Except QueryError QueryVector :=
  match input with
  | bytes stored => QueryVector.ofBytes s field stored
  | values xs => QueryVector.ofValues s field xs
  | singles patterns => QueryVector.ofValues s field (patterns.map Binary64.widen)

namespace Query

def ofNearest (s : Schema) (field : String) (input : VectorInput) (k : Nat) :
    Except QueryError Query := do
  if k = 0 then throw .invalidCount
  return nearest (← input.resolve s field) k {}

def ofWithin (s : Schema) (field : String) (input : VectorInput) (threshold : Binary64) :
    Except QueryError Query := do
  if !(threshold.isFinite && decide (0 ≤ threshold.units)) then
    throw (.invalidThreshold threshold)
  return within (← input.resolve s field) threshold {}

def kind : Query → QueryKind
  | filter _ => .filter
  | nearest _ _ _ => .vector
  | within _ _ _ => .range
  | count _ => .count

/-- The query with its settings changed. A query for a number has only a filter. -/
def mapOptions (change : QueryOptions → QueryOptions) : Query → Query
  | filter o => filter (change o)
  | nearest v k o => nearest v k (change o)
  | within v t o => within v t (change o)
  | count f => count (change { filter := f }).filter

def withFilter (q : Query) (f : Filter) : Query :=
  q.mapOptions fun o => { o with filter := f }

def returning (q : Query) (fields : List String) : Query :=
  q.mapOptions fun o => { o with returnFields := some fields }

def sortedBy (q : Query) (field : String) (ascending : Bool) : Query :=
  q.mapOptions fun o => { o with sortBy := some ⟨field, ascending⟩ }

def paged (q : Query) (offset limit : Nat) : Query :=
  q.mapOptions fun o => { o with offset := offset, limit := limit }

def withAlias (q : Query) (name : String) : Query :=
  match q with
  | nearest v k o => nearest { v with distanceName := name } k o
  | within v t o => within { v with distanceName := name } t o
  | q => q

def nearestText (v : QueryVector) (k : Nat) (filter : String) : String :=
  filter ++ "=>[KNN " ++ toString k ++ " @" ++ v.field ++ " $" ++ vectorParam ++ " AS " ++
    v.distanceName ++ "]"

def rangeClause (v : QueryVector) : String :=
  "@" ++ v.field ++ ":[VECTOR_RANGE $" ++ thresholdParam ++ " $" ++ vectorParam ++
    "]=>\x7b$YIELD_DISTANCE_AS: " ++ v.distanceName ++ "\x7d"

/-- The clause for the documents within a distance, joined with the text of the filter unless every
document matches it. -/
def withinText (v : QueryVector) (filter : String) : String :=
  if filter = Predicate.matchAllText then rangeClause v
  else "(" ++ filter ++ " " ++ rangeClause v ++ ")"

def countClauses : List String :=
  ["NOCONTENT", "DIALECT", toString dialect, "LIMIT", "0", "0"]

def compile (q : Query) (s : Schema) : Except QueryError CompiledQuery :=
  match q with
  | filter o => do
    let text ← o.filter.compile s
    o.check s none
    return ⟨text, o.clauses s none, []⟩
  | nearest v k o => do
    let text ← o.filter.compile s
    v.check s
    o.check s (some v.distanceName)
    return ⟨nearestText v k text, o.clauses s (some v.distanceName), [(vectorParam, v.bytes)]⟩
  | within v threshold o => do
    let text ← o.filter.compile s
    v.check s
    o.check s (some v.distanceName)
    return ⟨withinText v text, o.clauses s (some v.distanceName),
      [(thresholdParam, Bytes.ofText threshold.text), (vectorParam, v.bytes)]⟩
  | count f => do
    let text ← f.compile s
    return ⟨text, countClauses, []⟩

end Query
end HybridSearch
