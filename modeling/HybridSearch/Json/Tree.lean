import HybridSearch.Json
import HybridSearch.Number.Reading

/-!
# JSON syntax trees

A JSON text as it was written: entries in the order of the text, repeated keys kept. Some strings
and numbers are well formed but stand for no value; they only matter where a value is asked for.

* `Json.Tree.value?`: the value that a tree stands for, for trees that are not nested too deeply.
* `Json.tree`: the tree of a value.
-/
namespace HybridSearch.Json

inductive Tree where
  | null
  | bool (b : Bool)
  /-- A number; none if it lies beyond the greatest double-precision number. -/
  | number (n : Option JsonNumber)
  /-- A string; none if it holds half of a surrogate pair. -/
  | string (s : Option String)
  | array (items : List Tree)
  | object (entries : List (Option String × Tree))
  deriving Inhabited

namespace Tree

/-- The greatest depth of arrays and objects inside one another that a value may have. -/
def depthLimit : Nat :=
  127

mutual

/-- The value that a tree of at most the given depth stands for. Of several entries with one key
the last counts. -/
def valueWithin? (limit : Nat) : Tree → Option Json
  | null => some .null
  | bool b => some (.bool b)
  | number n => n.map .number
  | string s => s.map .string
  | array items =>
    match limit with
    | 0 => none
    | limit + 1 => (itemsWithin? limit items).map .array
  | object entries =>
    match limit with
    | 0 => none
    | limit + 1 => do
      let values ← entriesWithin? limit entries
      return (Record.ofEntries values).toJson

def itemsWithin? (limit : Nat) : List Tree → Option (List Json)
  | [] => some []
  | item :: rest => do
    let value ← valueWithin? limit item
    let values ← itemsWithin? limit rest
    return value :: values

def entriesWithin? (limit : Nat) : List (Option String × Tree) → Option (List (String × Json))
  | [] => some []
  | entry :: rest => do
    let value ← entryWithin? limit entry
    let values ← entriesWithin? limit rest
    return value :: values

def entryWithin? (limit : Nat) : Option String × Tree → Option (String × Json)
  | (key, tree) => do
    let key ← key
    let value ← valueWithin? limit tree
    return (key, value)

end

def value? (t : Tree) : Option Json :=
  t.valueWithin? depthLimit

end Tree

mutual

def tree : Json → Tree
  | null => .null
  | bool b => .bool b
  | number n => .number (some n)
  | string s => .string (some s)
  | array items => .array (itemTrees items)
  | object entries => .object (entryTrees entries)

def itemTrees : List Json → List Tree
  | [] => []
  | item :: rest => item.tree :: itemTrees rest

def entryTrees : List (String × Json) → List (Option String × Tree)
  | [] => []
  | entry :: rest => entryTree entry :: entryTrees rest

def entryTree : String × Json → Option String × Tree
  | (key, value) => (some key, value.tree)

end

end HybridSearch.Json
