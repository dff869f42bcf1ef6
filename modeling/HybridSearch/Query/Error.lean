import HybridSearch.Field

/-!
# Query errors

Why a predicate or a query is refused, when it is made or when it is compiled.
-/
namespace HybridSearch

inductive RangeFault where
  | notFinite (bound : Binary64)
  | reversed (lower upper : Binary64)
  | empty (lower upper : Binary64)
  deriving DecidableEq

def RangeFault.message : RangeFault → String
  | notFinite bound => "bound " ++ bound.text ++ " is not a finite number"
  | reversed lower upper =>
    "lower bound " ++ lower.text ++ " exceeds upper bound " ++ upper.text
  | empty lower upper => "range (" ++ lower.text ++ " " ++ upper.text ++ ") is empty"

inductive GeoFault where
  | longitude (value : Binary64)
  | latitude (value : Binary64)
  | radius (value : Binary64)
  deriving DecidableEq

def GeoFault.message : GeoFault → String
  | longitude value => "longitude " ++ value.text ++ " outside [-180, 180]"
  | latitude value => "latitude " ++ value.text ++ " outside [-90, 90]"
  | radius value => "radius " ++ value.text ++ " must be > 0"

inductive QueryError where
  | unknownField (field : String)
  | typeMismatch (field : String) (expected actual : FieldKind)
  | invalidRange (field : String) (fault : RangeFault)
  | invalidGeo (field : String) (fault : GeoFault)
  | vectorLength (field : String) (expected actual : Nat)
  | invalidCount
  | invalidThreshold (threshold : Binary64)
  | emptyValue (field : String)
  | negatedMatchAll
  | invalidSortField (field : String)
  | invalidName (name : String)
  deriving DecidableEq

def QueryError.message : QueryError → String
  | unknownField field => "Field '" ++ field ++ "' is not declared in the schema"
  | typeMismatch field expected actual =>
    "Field '" ++ field ++ "' is declared as " ++ actual.name ++ ", expected " ++ expected.name
  | invalidRange field fault => "Invalid numeric range on '" ++ field ++ "': " ++ fault.message
  | invalidGeo field fault => "Invalid geo filter on '" ++ field ++ "': " ++ fault.message
  | vectorLength field expected actual =>
    "Vector for '" ++ field ++ "' is " ++ toString actual ++ " bytes, expected " ++
      toString expected
  | invalidCount => "K must be at least 1"
  | invalidThreshold threshold =>
    "Distance threshold must be a non-negative number, got " ++ threshold.text
  | emptyValue field => "Empty value for field '" ++ field ++ "'"
  | negatedMatchAll => "Cannot negate an expression that matches everything"
  | invalidSortField field => "Cannot sort by '" ++ field ++ "': not a declared field"
  | invalidName name =>
    "Invalid name '" ++ name ++ "': only ASCII letters, digits and '_' are allowed"

end HybridSearch
