import HybridSearch.Json
import HybridSearch.Schema
import HybridSearch.Bytes

/-!
# Documents

Records laid out for storage, and what comes back from a search or a look-up.

* `Schema.document`: the document of a record.
* `Schema.documents`: the documents of a batch of records, or the first record without one.
* `Row`: a document as it comes back.
-/
namespace HybridSearch

abbrev Attributes := List (String × Bytes)

inductive Body where
  | hash (attributes : Attributes)
  | json (value : Json)

/-- A document, ready to be written. -/
structure Document where
  key : String
  body : Body

inductive RecordFault where
  | missingKey (field : String)
  | badKey (field : String) (value : Json)
  | vectorItems (field : String)
  | vectorLength (field : String) (actual expected : Nat)
  | listItems (field : String)
  | nested (field : String)
  | empty

def RecordFault.message : RecordFault → String
  | missingKey field => "missing key field '" ++ field ++ "'"
  | badKey field value =>
    "key field '" ++ field ++ "' must be a non-empty string or a number, got " ++ value.text
  | vectorItems field => "vector field '" ++ field ++ "' must hold numbers"
  | vectorLength field actual expected =>
    "vector field '" ++ field ++ "' has " ++ toString actual ++ " values, expected " ++
      toString expected
  | listItems field => "list field '" ++ field ++ "' must hold strings"
  | nested field => "field '" ++ field ++ "' is an object; use JSON storage"
  | empty => "record has no storable fields"

def FieldType.tagSeparator : FieldType → Char
  | tag options => options.separator
  | _ => ','

namespace Schema

def listBytes (s : Schema) (name : String) (items : List Json) : Except RecordFault Bytes :=
  match (s.field? name).map Field.type with
  | some (.vector options) =>
    match items.mapM Json.binary64? with
    | none => .error (.vectorItems name)
    | some values =>
      if values.length = options.dims then .ok (options.elementType.encode values)
      else .error (.vectorLength name values.length options.dims)
  | type =>
    match items.mapM Json.string? with
    | none => .error (.listItems name)
    | some tags =>
      let separator := (type.map FieldType.tagSeparator).getD ','
      .ok (Bytes.ofText ((String.singleton separator).intercalate tags))

/-- The stored value of an attribute; null is not stored. -/
def attributeBytes? (s : Schema) (name : String) : Json → Except RecordFault (Option Bytes)
  | .null => .ok none
  | .string text => .ok (some (Bytes.ofText text))
  | .number n => .ok (some (Bytes.ofText n.text))
  | .bool b => .ok (some (Bytes.ofText (if b then "1" else "0")))
  | .array items => (s.listBytes name items).map some
  | .object _ => .error (.nested name)

def entryAttributes (s : Schema) : List (String × Json) → Except RecordFault Attributes
  | [] => .ok []
  | entry :: rest => do
    let value ← s.attributeBytes? entry.1 entry.2
    let attributes ← s.entryAttributes rest
    match value with
    | some bytes => return (entry.1, bytes) :: attributes
    | none => return attributes

def attributes (s : Schema) (r : Record) : Except RecordFault Attributes := do
  let attributes ← s.entryAttributes r.entries
  if attributes.isEmpty then throw .empty
  return attributes

def body (s : Schema) (r : Record) : Except RecordFault Body :=
  match s.storage with
  | .json => .ok (.json r.toJson)
  | .hash => (s.attributes r).map .hash

end Schema

def Record.id (r : Record) (keyField : String) : Except RecordFault String :=
  match r.get? keyField with
  | none => .error (.missingKey keyField)
  | some (.string text) =>
    if text.isEmpty then .error (.badKey keyField (.string text)) else .ok text
  | some (.number n) => .ok n.text
  | some value => .error (.badKey keyField value)

namespace Schema

def document (s : Schema) (keyField : String) (r : Record) : Except RecordFault Document := do
  let id ← r.id keyField
  let body ← s.body r
  return ⟨s.key id, body⟩

/-- The documents of a batch of records, the first of which has the given position; or the position
of the first record without a document, and why it has none. -/
def documentsFrom (s : Schema) (keyField : String) :
    (position : Nat) → List Record → Except (Nat × RecordFault) (List Document)
  | _, [] => .ok []
  | position, r :: rest => do
    let document ← (s.document keyField r).mapError fun fault => (position, fault)
    let documents ← s.documentsFrom keyField (position + 1) rest
    return document :: documents

def documents (s : Schema) (keyField : String) (records : List Record) :
    Except (Nat × RecordFault) (List Document) :=
  s.documentsFrom keyField 0 records

end Schema

/-- A document as it comes back: its key and the returned attributes in order. -/
structure Row where
  id : String
  attributes : Attributes := []
  deriving DecidableEq

namespace Row

def get? (row : Row) (name : String) : Option Bytes :=
  (row.attributes.find? fun pair => pair.1 == name).map (·.2)

def getText? (row : Row) (name : String) : Option String :=
  (row.get? name).bind Bytes.text?

/-- The value of a JSON attribute as it comes back: a text as it is, any other value as JSON. -/
def memberBytes : Json → Bytes
  | .string text => Bytes.ofText text
  | value => Bytes.ofText value.text

/-- The row of a stored JSON value: the members of an object; any other value as a whole. -/
def ofJson (id : String) : Json → Row
  | .object entries => ⟨id, entries.map fun entry => (entry.1, memberBytes entry.2)⟩
  | value => ⟨id, [("$", Bytes.ofText value.text)]⟩

end Row

/-- The answer to a search. -/
structure SearchResults where
  total : Nat := 0
  rows : List Row := []
  deriving DecidableEq

instance : Inhabited SearchResults := ⟨{}⟩

end HybridSearch
