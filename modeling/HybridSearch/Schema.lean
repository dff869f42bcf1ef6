import HybridSearch.Field
import HybridSearch.Text.Affix
import HybridSearch.Text.Blank

/-!
# Schemas

A draft collects what is declared of an index; a schema is a draft that has passed every check. A
schema is changed by going back to its draft and building again.

* `Draft.positions`, `Draft.check`: the first thing that is wrong with a draft, in the order name,
  prefix, then field by field; if nothing is wrong, the positions of the fields by their names.
* `Draft.build`: the schema of a draft.
* `Schema.field?`, `Schema.key`: look-up of a field and the key of a document.
-/
namespace HybridSearch

inductive OptionFault where
  | blankSeparator
  | separatorLength (text : String)
  | weight (value : Binary64)
  | dimensions (value : Nat)
  | notPositive
  /-- A setting of the other algorithm; the algorithm that has it. -/
  | foreign (algorithm : String)
  | pathWithoutJson
  deriving DecidableEq

def maxDims : Nat :=
  32768

def OptionFault.message : OptionFault → String
  | blankSeparator => "must not be whitespace"
  | separatorLength text => "must be exactly one character, got '" ++ text ++ "'"
  | weight value => "must be > 0, got " ++ value.text
  | dimensions value =>
    "must be between 1 and " ++ toString maxDims ++ ", got " ++ toString value
  | notPositive => "must be > 0"
  | foreign algorithm => "only valid for " ++ algorithm
  | pathWithoutJson => "paths are only valid for json storage"

inductive SchemaError where
  | emptyIndexName
  | invalidFieldName (name : String)
  | duplicateField (name : String)
  | missingPrefix
  | invalidOption (field option : String) (fault : OptionFault)
  | unknownOption (kind : OptionKind) (text : String)
  | unknownFieldType (field : String)
  | unreadable (reason : String)
  deriving DecidableEq

def SchemaError.message : SchemaError → String
  | emptyIndexName => "Index name must not be empty"
  | invalidFieldName name =>
    "Invalid field name '" ++ name ++ "': only letters, digits and '_' are allowed"
  | duplicateField name => "Duplicate field name '" ++ name ++ "'"
  | missingPrefix => "Hash storage requires a non-empty key prefix"
  | invalidOption field option fault =>
    "Invalid option '" ++ option ++ "' on field '" ++ field ++ "': " ++ fault.message
  | unknownOption kind text => "Unknown " ++ kind.name ++ " '" ++ text ++ "'"
  | unknownFieldType field => "Unable to determine field type for '" ++ field ++ "'"
  | unreadable reason => "Invalid schema source: " ++ reason

def Storage.ofText (s : String) : Except SchemaError Storage :=
  match Storage.ofText? s with
  | some storage => .ok storage
  | none => .error (.unknownOption .storage s)

def Metric.ofText (s : String) : Except SchemaError Metric :=
  match Metric.ofText? s with
  | some metric => .ok metric
  | none => .error (.unknownOption .metric s)

def ElementType.ofText (s : String) : Except SchemaError ElementType :=
  match ElementType.ofText? s with
  | some type => .ok type
  | none => .error (.unknownOption .elementType s)

def Binary64.isPositive (x : Binary64) : Bool :=
  x.isFinite && decide (0 < x.units)

def FieldType.fault? : FieldType → Option (String × OptionFault)
  | tag options =>
    if Text.isBlank options.separator then some ("separator", .blankSeparator) else none
  | text options =>
    if options.weight.isPositive then none else some ("weight", .weight options.weight)
  | numeric => none
  | geo => none
  | vector options =>
    if options.dims = 0 ∨ maxDims < options.dims then some ("dims", .dimensions options.dims)
    else if options.initialCap = some 0 then some ("initial_cap", .notPositive)
    else
      match options.algorithm with
      | .flat blockSize => if blockSize = some 0 then some ("block_size", .notPositive) else none
      | .hnsw graph =>
        if graph.m = 0 then some ("m", .notPositive)
        else if graph.efConstruction = 0 then some ("ef_construction", .notPositive)
        else if graph.efRuntime = 0 then some ("ef_runtime", .notPositive)
        else if graph.epsilon.isPositive then none
        else some ("epsilon", .notPositive)

namespace Field

def check (f : Field) : Except SchemaError Unit :=
  if !Text.isWord f.name then .error (.invalidFieldName f.name)
  else
    match f.type.fault? with
    | some (option, fault) => .error (.invalidOption f.name option fault)
    | none => .ok ()

/-- Checks a field behind others that have been noted by their names. -/
def checkAfter (f : Field) (storage : Storage) (noted : List (String × Nat)) :
    Except SchemaError Unit := do
  f.check
  if storage = .hash ∧ f.path.isSome then
    throw (.invalidOption f.name "path" .pathWithoutJson)
  if noted.any fun entry => entry.1 == f.name then throw (.duplicateField f.name)

/-- Checks a row of fields from the left, the first of which has the given position, and notes the
position of each by its name. -/
def noteAll (storage : Storage) :
    (position : Nat) → (noted : List (String × Nat)) → List Field →
      Except SchemaError (List (String × Nat))
  | _, noted, [] => .ok noted
  | position, noted, f :: rest => do
    f.checkAfter storage noted
    noteAll storage (position + 1) ((f.name, position) :: noted) rest

end Field

/-- What is declared of an index. -/
structure Draft where
  name : String
  keyPrefix : String := "rvl"
  keySeparator : String := ":"
  storage : Storage := .hash
  fields : List Field := []
  deriving DecidableEq

namespace Draft

/-- Checks a draft, and gives the positions of its fields by their names. -/
def positions (d : Draft) : Except SchemaError (List (String × Nat)) := do
  if Text.isBlankText d.name then throw .emptyIndexName
  if d.storage = .hash ∧ d.keyPrefix.isEmpty then throw .missingPrefix
  Field.noteAll d.storage 0 [] d.fields

def check (d : Draft) : Except SchemaError Unit :=
  d.positions.map fun _ => ()

end Draft

/-- A draft without faults, with the positions of its fields by their names. The draft determines
them. -/
structure Schema extends Draft where
  positions : List (String × Nat) := toDraft.positions.toOption.getD []
  checked : toDraft.positions = .ok positions

def Draft.build (d : Draft) : Except SchemaError Schema :=
  match h : d.positions with
  | .ok positions => .ok ⟨d, positions, h⟩
  | .error e => .error e

namespace Schema

/-- The field at the position that is noted for a name. -/
def field? (s : Schema) (name : String) : Option Field :=
  (s.positions.find? fun entry => entry.1 == name).bind fun entry => s.fields[entry.2]?

/-- The key of the document with an id: the prefix, the separator unless the prefix ends in it, and
the id. Without a prefix it is the id. -/
def key (s : Schema) (id : String) : String :=
  if s.keyPrefix.isEmpty then id
  else if Text.endsWith s.keyPrefix s.keySeparator then s.keyPrefix ++ id
  else s.keyPrefix ++ s.keySeparator ++ id

end Schema
end HybridSearch
