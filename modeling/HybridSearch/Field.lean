import HybridSearch.Bytes
import HybridSearch.Number.Style
import HybridSearch.Text.Word

/-!
# Fields

What an index knows of an attribute: its name, its kind with the options of that kind, and where the
value is found.

* `VectorOptions.byteLength`: the length of a stored vector.
* `ElementType.encode`: the stored form of a vector.
-/
namespace HybridSearch

inductive FieldKind where
  | tag
  | text
  | numeric
  | geo
  | vector
  deriving DecidableEq, Repr

namespace FieldKind

def name : FieldKind → String
  | tag => "tag"
  | text => "text"
  | numeric => "numeric"
  | geo => "geo"
  | vector => "vector"

def keyword : FieldKind → String
  | tag => "TAG"
  | text => "TEXT"
  | numeric => "NUMERIC"
  | geo => "GEO"
  | vector => "VECTOR"

end FieldKind

/-- The options that are named by a word, and the name of such an option in messages. -/
inductive OptionKind where
  | metric
  | elementType
  | storage
  | algorithm
  deriving DecidableEq, Repr

def OptionKind.name : OptionKind → String
  | metric => "distance metric"
  | elementType => "vector datatype"
  | storage => "storage type"
  | algorithm => "vector algorithm"

inductive Storage where
  | hash
  | json
  deriving DecidableEq, Repr, Inhabited

namespace Storage

def name : Storage → String
  | hash => "hash"
  | json => "json"

def keyword : Storage → String
  | hash => "HASH"
  | json => "JSON"

def ofText? (s : String) : Option Storage :=
  match Text.lowerAscii s with
  | "hash" => some hash
  | "json" => some json
  | _ => none

end Storage

inductive Metric where
  | cosine
  | euclidean
  | innerProduct
  deriving DecidableEq, Repr, Inhabited

namespace Metric

def keyword : Metric → String
  | cosine => "COSINE"
  | euclidean => "L2"
  | innerProduct => "IP"

def ofText? (s : String) : Option Metric :=
  match Text.lowerAscii s with
  | "cosine" => some cosine
  | "l2" => some euclidean
  | "ip" => some innerProduct
  | _ => none

end Metric

inductive ElementType where
  | float32
  | float64
  deriving DecidableEq, Repr, Inhabited

namespace ElementType

def keyword : ElementType → String
  | float32 => "FLOAT32"
  | float64 => "FLOAT64"

def ofText? (s : String) : Option ElementType :=
  match Text.lowerAscii s with
  | "float32" => some float32
  | "float64" => some float64
  | _ => none

def size : ElementType → Nat
  | float32 => 4
  | float64 => 8

def encodeOne (type : ElementType) (x : Binary64) : Bytes :=
  match type with
  | float32 => Bytes.littleEndian 4 x.narrow.toNat
  | float64 => Bytes.littleEndian 8 x.bits.toNat

def encode (type : ElementType) (values : List Binary64) : Bytes :=
  values.flatMap type.encodeOne

theorem length_encode (type : ElementType) (values : List Binary64) :
    (type.encode values).length = values.length * type.size := by
  induction values with
  | nil => simp [encode]
  | cons x values ih =>
    have hone : (type.encodeOne x).length = type.size := by
      cases type <;> exact Bytes.length_littleEndian _ _
    have happend : type.encode (x :: values) = type.encodeOne x ++ type.encode values := rfl
    rw [happend, List.length_append, hone, ih, List.length_cons, Nat.add_mul, Nat.one_mul,
      Nat.add_comm]

end ElementType

/-- The tuning of a graph of near neighbours. -/
structure GraphOptions where
  m : Nat := 16
  efConstruction : Nat := 200
  efRuntime : Nat := 10
  epsilon : Binary64 := Binary64.ofDecimal false 1 (-2)
  deriving DecidableEq

inductive Algorithm where
  | flat (blockSize : Option Nat)
  | hnsw (options : GraphOptions)
  deriving DecidableEq

namespace Algorithm

def keyword : Algorithm → String
  | flat _ => "FLAT"
  | hnsw _ => "HNSW"

end Algorithm

/-- The options of a vector field. -/
structure VectorOptions where
  dims : Nat
  algorithm : Algorithm := .hnsw {}
  elementType : ElementType := .float32
  metric : Metric := .cosine
  initialCap : Option Nat := none
  deriving DecidableEq

def maxSize : Nat :=
  UInt64.size - 1

/-- The number of bytes of a stored vector. A length that no memory can hold counts as the greatest
one. -/
def VectorOptions.byteLength (o : VectorOptions) : Nat :=
  min (o.dims * o.elementType.size) maxSize

/-- The options of a tag field. -/
structure TagOptions where
  separator : Char := ','
  caseSensitive : Bool := false
  deriving DecidableEq

/-- The options of a text field. -/
structure TextOptions where
  weight : Binary64 := Binary64.ofInt 1
  noStem : Bool := false
  /-- The phonetic matcher, for example `dm:en`. -/
  phonetic : Option String := none
  suffixTrie : Bool := false
  deriving DecidableEq

inductive FieldType where
  | tag (options : TagOptions)
  | text (options : TextOptions)
  | numeric
  | geo
  | vector (options : VectorOptions)
  deriving DecidableEq

def FieldType.kind : FieldType → FieldKind
  | tag _ => .tag
  | text _ => .text
  | numeric => .numeric
  | geo => .geo
  | vector _ => .vector

/-- A declared field. -/
structure Field where
  name : String
  /-- Where a JSON document holds the value; the member with the name of the field if none is
  given. -/
  path : Option String := none
  type : FieldType
  sortable : Bool := false
  /-- Whether the field is kept for sorting and returning only. -/
  noIndex : Bool := false
  deriving DecidableEq

namespace Field

def kind (f : Field) : FieldKind :=
  f.type.kind

end Field
end HybridSearch
