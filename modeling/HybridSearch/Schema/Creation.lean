import HybridSearch.Schema

/-!
# Creation arguments

The arguments with which the engine creates an index: its name, the storage, the key prefix that it
covers, and then one segment of arguments for each field.

* `VectorOptions.arguments`: a segment that carries the number of its own settings.
* `Field.arguments`: the segment of a field.
* `Schema.creation`: all arguments of an index.
-/
namespace HybridSearch

def Algorithm.settings : Algorithm → List String
  | flat none => []
  | flat (some size) => ["BLOCK_SIZE", toString size]
  | hnsw graph =>
    ["M", toString graph.m, "EF_CONSTRUCTION", toString graph.efConstruction,
      "EF_RUNTIME", toString graph.efRuntime, "EPSILON", graph.epsilon.text]

namespace VectorOptions

def settings (o : VectorOptions) : List String :=
  ["TYPE", o.elementType.keyword, "DIM", toString o.dims, "DISTANCE_METRIC", o.metric.keyword] ++
    (match o.initialCap with
      | some cap => ["INITIAL_CAP", toString cap]
      | none => []) ++
    o.algorithm.settings

def arguments (o : VectorOptions) : List String :=
  o.algorithm.keyword :: toString o.settings.length :: o.settings

end VectorOptions

/-- An argument that is given if a flag is set. -/
def flagArgument (flag : Bool) (keyword : String) : List String :=
  if flag then [keyword] else []

def FieldType.arguments : FieldType → List String
  | tag options =>
    ["SEPARATOR", String.singleton options.separator] ++
      flagArgument options.caseSensitive "CASESENSITIVE"
  | text options =>
    ["WEIGHT", options.weight.text] ++ flagArgument options.noStem "NOSTEM" ++
      (match options.phonetic with
        | some matcher => ["PHONETIC", matcher]
        | none => []) ++
      flagArgument options.suffixTrie "WITHSUFFIXTRIE"
  | numeric => []
  | geo => []
  | vector options => options.arguments

namespace Field

def effectivePath (f : Field) : String :=
  f.path.getD ("$." ++ f.name)

/-- The name of the field; in JSON documents after the place of its value. -/
def nameArguments (f : Field) : Storage → List String
  | .hash => [f.name]
  | .json => [f.effectivePath, "AS", f.name]

def arguments (f : Field) (storage : Storage) : List String :=
  f.nameArguments storage ++ [f.kind.keyword] ++ f.type.arguments ++
    flagArgument f.sortable "SORTABLE" ++ flagArgument f.noIndex "NOINDEX"

end Field

/-- The arguments that create the index of a schema; `nameSpace` stands in front of its name. -/
def Schema.creation (s : Schema) (nameSpace : String) : List String :=
  [nameSpace ++ s.name, "ON", s.storage.keyword] ++
    (if s.keyPrefix.isEmpty then [] else ["PREFIX", "1", s.keyPrefix]) ++
    ["SCHEMA"] ++ s.fields.flatMap fun f => f.arguments s.storage

end HybridSearch
