import HybridSearch.Query

/-!
# Metrics

What has happened, one event after the other, and the counts of it by name and labels.
-/
namespace HybridSearch

inductive Operation where
  | info
  | drop
  | create
  | load
  | fetch
  deriving DecidableEq, Repr

def Operation.name : Operation → String
  | info => "info"
  | drop => "drop"
  | create => "create"
  | load => "load"
  | fetch => "fetch"

inductive Event where
  | compiled (kind : QueryKind) (success : Bool)
  | compileTimed (kind : QueryKind)
  | searched (success : Bool)
  | searchTimed
  | operated (operation : Operation) (success : Bool)
  deriving DecidableEq

namespace Event

def statusLabel (success : Bool) : String × String :=
  ("status", if success then "success" else "error")

def name : Event → String
  | compiled _ _ => "redisvl_query_compile_total"
  | compileTimed _ => "redisvl_query_compile_seconds"
  | searched _ => "redisvl_search_total"
  | searchTimed => "redisvl_search_seconds"
  | operated _ _ => "redisvl_index_operations_total"

def labels : Event → List (String × String)
  | compiled kind success => [("kind", kind.name), statusLabel success]
  | compileTimed kind => [("kind", kind.name)]
  | searched success => [statusLabel success]
  | searchTimed => []
  | operated operation success => [("operation", operation.name), statusLabel success]

def text (e : Event) : String :=
  let labels := e.labels.map fun label => label.1 ++ "=" ++ label.2
  e.name ++ "\x7b" ++ ",".intercalate labels ++ "\x7d"

end Event

/-- What has happened so far. -/
structure Metrics where
  events : List Event := []

namespace Metrics

def record (m : Metrics) (e : Event) : Metrics :=
  ⟨e :: m.events⟩

def count (m : Metrics) (e : Event) : Nat :=
  m.events.count e

/-- A line for each event that has happened, with its count, in ascending order. -/
def report (m : Metrics) : List String :=
  (m.events.eraseDups.map fun e => e.text ++ " " ++ toString (m.count e)).mergeSort
    fun a b => decide (a ≤ b)

end Metrics
end HybridSearch
