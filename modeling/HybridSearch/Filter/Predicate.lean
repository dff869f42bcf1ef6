import HybridSearch.Query.Error
import HybridSearch.Schema
import HybridSearch.Text.Escaped

/-!
# Predicates

A condition on one field of a document.

* `Predicate.checkOperands`: whether a condition makes sense in itself.
* `Predicate.check`: whether it also fits the schema.
* `Predicate.fragment`: the condition in a query text.
-/
namespace HybridSearch

inductive Bound where
  | unbounded
  | inclusive (value : Binary64)
  | exclusive (value : Binary64)
  deriving DecidableEq

namespace Bound

/-- The number at the end of a range, if it has one. -/
def value? : Bound → Option Binary64
  | unbounded => none
  | inclusive value => some value
  | exclusive value => some value

def isInclusive : Bound → Bool
  | inclusive _ => true
  | _ => false

/-- The end of a range as text; `infinity` stands for an end without a number. -/
def text (infinity : String) : Bound → String
  | unbounded => infinity
  | inclusive value => value.text
  | exclusive value => "(" ++ value.text

def lowerText : Bound → String :=
  text "-inf"

def upperText : Bound → String :=
  text "+inf"

def same : Bound → Bound → Bool
  | unbounded, unbounded => true
  | inclusive x, inclusive y => x.same y
  | exclusive x, exclusive y => x.same y
  | _, _ => false

end Bound

inductive GeoUnit where
  | meters
  | kilometers
  | miles
  | feet
  deriving DecidableEq, Repr

def GeoUnit.text : GeoUnit → String
  | meters => "m"
  | kilometers => "km"
  | miles => "mi"
  | feet => "ft"

/-- The unit of a distance that names none. -/
instance : Inhabited GeoUnit := ⟨.kilometers⟩

def circleText (lon lat radius : Binary64) (unit : GeoUnit) : String :=
  Number.sixPlaces lon ++ " " ++ Number.sixPlaces lat ++ " " ++ radius.text ++ " " ++ unit.text

/-- A condition on one field, or none at all. -/
inductive Predicate where
  | tag (field : String) (values : List String)
  | range (field : String) (lower upper : Bound)
  | geo (field : String) (lon lat radius : Binary64) (unit : GeoUnit)
  /-- The field is a text with the words of a pattern; a fuzzy pattern may have wildcards. -/
  | text (field : String) (pattern : String) (fuzzy : Bool)
  | all
  deriving DecidableEq

namespace Predicate

def target? : Predicate → Option (String × FieldKind)
  | tag field _ => some (field, .tag)
  | range field _ _ => some (field, .numeric)
  | geo field _ _ _ _ => some (field, .geo)
  | text field _ _ => some (field, .text)
  | all => none

def field? (p : Predicate) : Option String :=
  p.target?.map (·.1)

def rangeFault? (lower upper : Bound) : Option RangeFault :=
  match (lower.value?.toList ++ upper.value?.toList).find? fun x => !x.isFinite with
  | some bound => some (.notFinite bound)
  | none =>
    match lower.value?, upper.value? with
    | some lo, some hi =>
      if hi.less lo then some (.reversed lo hi)
      else if lo.same hi && !(lower.isInclusive && upper.isInclusive) then some (.empty lo hi)
      else none
    | _, _ => none

/-- Whether a number lies between `-limit` and `limit`. -/
def isWithin (limit : Nat) (x : Binary64) : Bool :=
  (Binary64.ofInt (-limit)).atMost x && x.atMost (Binary64.ofInt limit)

def geoFault? (lon lat radius : Binary64) : Option GeoFault :=
  if !isWithin 180 lon then some (.longitude lon)
  else if !isWithin 90 lat then some (.latitude lat)
  else if !radius.isPositive then some (.radius radius)
  else none

def operandFault? : Predicate → Option QueryError
  | tag field values =>
    if values.isEmpty || values.any String.isEmpty then some (.emptyValue field) else none
  | range field lower upper => (rangeFault? lower upper).map (.invalidRange field)
  | geo field lon lat radius _ => (geoFault? lon lat radius).map (.invalidGeo field)
  | text field pattern _ => if Text.isBlankText pattern then some (.emptyValue field) else none
  | all => none

def checkOperands (p : Predicate) : Except QueryError Unit :=
  match p.operandFault? with
  | some fault => .error fault
  | none => .ok ()

/-- The condition, if it makes sense in itself. -/
def make (p : Predicate) : Except QueryError Predicate := do
  p.checkOperands
  return p

def tagText (values : List String) : String :=
  "\x7b" ++ "|".intercalate (values.map Text.escapeTag) ++ "\x7d"

/-- A pattern without blanks around it, escaped. A fuzzy pattern without a wildcard gets one at its
end, so that it matches beginnings of words. -/
def patternText (pattern : String) (fuzzy : Bool) : String :=
  let escaped := Text.escapeText (Text.trim pattern) fuzzy
  if fuzzy && !escaped.toList.any Text.isWildcard then escaped ++ "*" else escaped

def phraseText (pattern : String) : String :=
  if pattern.toList.any Text.isBlank then "(" ++ pattern ++ ")" else pattern

def operandText : Predicate → String
  | tag _ values => tagText values
  | range _ lower upper => "[" ++ lower.lowerText ++ " " ++ upper.upperText ++ "]"
  | geo _ lon lat radius unit => "[" ++ circleText lon lat radius unit ++ "]"
  | text _ pattern fuzzy => phraseText (patternText pattern fuzzy)
  | all => ""

def matchAllText : String := "*"

def fragment (p : Predicate) : String :=
  match p.field? with
  | some field => "@" ++ field ++ ":" ++ p.operandText
  | none => matchAllText

def same : Predicate → Predicate → Bool
  | tag f v, tag g w => f == g && v == w
  | range f a b, range g c d => f == g && a.same c && b.same d
  | geo f a b c u, geo g x y z v => f == g && a.same x && b.same y && c.same z && u == v
  | text f p x, text g q y => f == g && p == q && x == y
  | all, all => true
  | _, _ => false

end Predicate

namespace Schema

def requireField (s : Schema) (name : String) (kind : FieldKind) : Except QueryError Field :=
  match s.field? name with
  | none => .error (.unknownField name)
  | some field =>
    if field.kind = kind then .ok field else .error (.typeMismatch name kind field.kind)

def requireVector (s : Schema) (name : String) : Except QueryError VectorOptions :=
  match s.field? name with
  | none => .error (.unknownField name)
  | some field =>
    match field.type with
    | .vector options => .ok options
    | type => .error (.typeMismatch name .vector type.kind)

end Schema

namespace Predicate

def check (p : Predicate) (s : Schema) : Except QueryError Unit := do
  p.checkOperands
  match p.target? with
  | some (field, kind) => discard (s.requireField field kind)
  | none => return

/-- The condition in a query text, if it fits the schema. -/
def compile (p : Predicate) (s : Schema) : Except QueryError String := do
  p.check s
  return p.fragment

end Predicate
end HybridSearch
