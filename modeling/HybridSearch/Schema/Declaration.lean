import HybridSearch.Json.Reading
import HybridSearch.Json.Shape
import HybridSearch.Schema

/-!
# Declarations

The declarative form of a schema: settings of the index, and the fields grouped by kind with their
options spelled out.

* `FieldDeclarations.fields`: the declared fields, group by group.
* `Declaration.draft`: the draft of a declaration.
* `Schema.ofJson`, `Schema.ofText`: the schema that a JSON value or a JSON text declares.
-/
namespace HybridSearch

/-- A tag field as it is declared. -/
structure TagDeclaration where
  name : String := ""
  path : Option String := none
  separator : Option String := none
  caseSensitive : Bool := false
  sortable : Bool := false
  noIndex : Bool := false
  deriving DecidableEq

/-- A text field as it is declared. -/
structure TextDeclaration where
  name : String := ""
  path : Option String := none
  weight : Option Binary64 := none
  noStem : Bool := false
  phonetic : Option String := none
  suffixTrie : Bool := false
  sortable : Bool := false
  noIndex : Bool := false
  deriving DecidableEq

/-- A field of a kind without options as it is declared. -/
structure PlainDeclaration where
  name : String := ""
  path : Option String := none
  sortable : Bool := false
  noIndex : Bool := false
  deriving DecidableEq

/-- A vector field as it is declared. -/
structure VectorDeclaration where
  name : String := ""
  path : Option String := none
  dims : Nat := 0
  algorithm : String := ""
  elementType : ElementType := .float32
  metric : Metric := .cosine
  initialCap : Option Nat := none
  blockSize : Option Nat := none
  m : Option Nat := none
  efConstruction : Option Nat := none
  efRuntime : Option Nat := none
  epsilon : Option Binary64 := none
  deriving DecidableEq

/-- Declared fields, grouped by kind. -/
structure FieldDeclarations where
  tag : List TagDeclaration := []
  text : List TextDeclaration := []
  numeric : List PlainDeclaration := []
  geo : List PlainDeclaration := []
  vector : List VectorDeclaration := []
  deriving DecidableEq

/-- The settings of an index as they are declared. -/
structure IndexDeclaration where
  name : String := ""
  keyPrefix : Option String := some "rvl"
  keySeparator : Option String := some ":"
  storage : Storage := .hash
  deriving DecidableEq

/-- An index with its fields as they are declared. -/
structure Declaration where
  index : IndexDeclaration := {}
  fields : FieldDeclarations := {}
  deriving DecidableEq

/-! ## From declarations to fields -/

def TagDeclaration.separatorChar (d : TagDeclaration) : Except SchemaError Char :=
  match d.separator with
  | none => .ok ','
  | some s =>
    match s.toList with
    | [c] => .ok c
    | _ => .error (.invalidOption d.name "separator" (.separatorLength s))

def TagDeclaration.field (d : TagDeclaration) : Except SchemaError Field := do
  let separator ← d.separatorChar
  return ⟨d.name, d.path, .tag ⟨separator, d.caseSensitive⟩, d.sortable, d.noIndex⟩

def TextDeclaration.field (d : TextDeclaration) : Field :=
  let weight := d.weight.getD (Binary64.ofInt 1)
  ⟨d.name, d.path, .text ⟨weight, d.noStem, d.phonetic, d.suffixTrie⟩, d.sortable, d.noIndex⟩

def PlainDeclaration.field (type : FieldType) (d : PlainDeclaration) : Field :=
  ⟨d.name, d.path, type, d.sortable, d.noIndex⟩

namespace VectorDeclaration

/-- The first setting that only a graph has. -/
def graphSetting? (d : VectorDeclaration) : Option String :=
  if d.m.isSome then some "m"
  else if d.efConstruction.isSome then some "ef_construction"
  else if d.efRuntime.isSome then some "ef_runtime"
  else if d.epsilon.isSome then some "epsilon"
  else none

def graph (d : VectorDeclaration) : GraphOptions :=
  let defaults : GraphOptions := {}
  { m := d.m.getD defaults.m
    efConstruction := d.efConstruction.getD defaults.efConstruction
    efRuntime := d.efRuntime.getD defaults.efRuntime
    epsilon := d.epsilon.getD defaults.epsilon }

/-- The algorithm that a declaration names, with its settings. No setting of the other algorithm may
be given. -/
def algorithmOptions (d : VectorDeclaration) : Except SchemaError Algorithm :=
  match Text.lowerAscii d.algorithm with
  | "flat" =>
    match d.graphSetting? with
    | some setting => .error (.invalidOption d.name setting (.foreign "hnsw"))
    | none => .ok (.flat d.blockSize)
  | "hnsw" =>
    if d.blockSize.isSome then .error (.invalidOption d.name "block_size" (.foreign "flat"))
    else .ok (.hnsw d.graph)
  | _ => .error (.unknownOption .algorithm d.algorithm)

def field (d : VectorDeclaration) : Except SchemaError Field := do
  let algorithm ← d.algorithmOptions
  return { name := d.name, path := d.path,
           type := .vector ⟨d.dims, algorithm, d.elementType, d.metric, d.initialCap⟩ }

end VectorDeclaration

namespace FieldDeclarations

def isEmpty (d : FieldDeclarations) : Bool :=
  d.tag.isEmpty && d.text.isEmpty && d.numeric.isEmpty && d.geo.isEmpty && d.vector.isEmpty

/-- The declared fields in the order tag, text, numeric, geo, vector, each group in its own
order. -/
def fields (d : FieldDeclarations) : Except SchemaError (List Field) := do
  let tags ← d.tag.mapM TagDeclaration.field
  let vectors ← d.vector.mapM VectorDeclaration.field
  return tags ++ d.text.map TextDeclaration.field ++
    d.numeric.map (PlainDeclaration.field .numeric) ++ d.geo.map (PlainDeclaration.field .geo) ++
    vectors

end FieldDeclarations

def Declaration.draft (d : Declaration) : Except SchemaError Draft := do
  let fields ← d.fields.fields
  return { name := d.index.name
           keyPrefix := d.index.keyPrefix.getD ""
           keySeparator := d.index.keySeparator.getD ":"
           storage := d.index.storage
           fields := fields }

def Declaration.schema (d : Declaration) : Except SchemaError Schema := do
  (← d.draft).build

/-! ## From JSON to declarations -/

open Json Json.Reader

def TagDeclaration.shape : Shape TagDeclaration where
  name := "TagFieldSource"
  slots :=
    [ .of "name" true string fun v d => { d with name := v },
      .of "path" false (optional string) fun v d => { d with path := v },
      .of "separator" false (optional string) fun v d => { d with separator := v },
      .of "case_sensitive" false boolean fun v d => { d with caseSensitive := v },
      .of "sortable" false boolean fun v d => { d with sortable := v },
      .of "no_index" false boolean fun v d => { d with noIndex := v } ]
  start := {}

def TextDeclaration.shape : Shape TextDeclaration where
  name := "TextFieldSource"
  slots :=
    [ .of "name" true string fun v d => { d with name := v },
      .of "path" false (optional string) fun v d => { d with path := v },
      .of "weight" false (optional real) fun v d => { d with weight := v },
      .of "no_stem" false boolean fun v d => { d with noStem := v },
      .of "phonetic_matcher" false (optional string) fun v d => { d with phonetic := v },
      .of "withsuffixtrie" false boolean fun v d => { d with suffixTrie := v },
      .of "sortable" false boolean fun v d => { d with sortable := v },
      .of "no_index" false boolean fun v d => { d with noIndex := v } ]
  start := {}

def PlainDeclaration.shape : Shape PlainDeclaration where
  name := "PlainFieldSource"
  slots :=
    [ .of "name" true string fun v d => { d with name := v },
      .of "path" false (optional string) fun v d => { d with path := v },
      .of "sortable" false boolean fun v d => { d with sortable := v },
      .of "no_index" false boolean fun v d => { d with noIndex := v } ]
  start := {}

def VectorDeclaration.shape : Shape VectorDeclaration where
  name := "VectorFieldSource"
  slots :=
    [ .of "name" true string fun v d => { d with name := v },
      .of "path" false (optional string) fun v d => { d with path := v },
      .of "dims" true natural fun v d => { d with dims := v },
      .of "algorithm" true string fun v d => { d with algorithm := v },
      .of "datatype" false (named ElementType.ofText SchemaError.message) fun v d =>
        { d with elementType := v },
      .of "distance_metric" false (named Metric.ofText SchemaError.message) fun v d =>
        { d with metric := v },
      .of "initial_cap" false (optional natural) fun v d => { d with initialCap := v },
      .of "block_size" false (optional natural) fun v d => { d with blockSize := v },
      .of "m" false (optional natural) fun v d => { d with m := v },
      .of "ef_construction" false (optional natural) fun v d => { d with efConstruction := v },
      .of "ef_runtime" false (optional natural) fun v d => { d with efRuntime := v },
      .of "epsilon" false (optional real) fun v d => { d with epsilon := v } ]
  start := {}

def FieldDeclarations.shape : Shape FieldDeclarations where
  name := "FieldsSource"
  slots :=
    [ .of "tag" false (list TagDeclaration.shape.read) fun v d => { d with tag := v },
      .of "text" false (list TextDeclaration.shape.read) fun v d => { d with text := v },
      .of "numeric" false (list PlainDeclaration.shape.read) fun v d => { d with numeric := v },
      .of "geo" false (list PlainDeclaration.shape.read) fun v d => { d with geo := v },
      .of "vector" false (list VectorDeclaration.shape.read) fun v d => { d with vector := v } ]
  start := {}

def IndexDeclaration.shape : Shape IndexDeclaration where
  name := "IndexSource"
  slots :=
    [ .of "name" true string fun v d => { d with name := v },
      .of "prefix" false (optional string) fun v d => { d with keyPrefix := v },
      .of "key_separator" false (optional string) fun v d => { d with keySeparator := v },
      .of "storage_type" false (named Storage.ofText SchemaError.message) fun v d =>
        { d with storage := v } ]
  start := {}

def Declaration.shape : Shape Declaration where
  name := "SchemaSource"
  slots :=
    [ .of "index" true IndexDeclaration.shape.read fun v d => { d with index := v },
      .of "fields" false FieldDeclarations.shape.read fun v d => { d with fields := v } ]
  start := {}

def Schema.ofTree (t : Tree) : Except SchemaError Schema :=
  match Declaration.shape.read t with
  | .ok d => d.schema
  | .error fault => .error (.unreadable fault.message)

def Schema.ofJson (value : Json) : Except SchemaError Schema :=
  Schema.ofTree value.tree

def Schema.ofText (s : String) : Except SchemaError Schema :=
  match Tree.ofText? s with
  | some t => Schema.ofTree t
  | none => .error (.unreadable "not a JSON text")

end HybridSearch
