import HybridSearch.Schema

/-!
# Registries

Schemas that can be found by the name of their index or by the key of a document.

* `Registry.register`, `Registry.unregister`, `Registry.clear`: changes.
* `Registry.get?`: the schema with a name.
* `Registry.findByKey?`: the schema with the longest prefix that a key begins with.
-/
namespace HybridSearch

/-- A collection of schemas, in descending order of the length of their prefixes in bytes. -/
structure Registry where
  schemas : List Schema := []

namespace Registry

/-- Puts a schema in the place of the first one with the same name, or at the end. -/
def replace (schema : Schema) : List Schema → List Schema
  | [] => [schema]
  | first :: rest =>
    if first.name = schema.name then schema :: rest else first :: replace schema rest

/-- Orders schemas by the length of their prefixes, the longest first; schemas with prefixes of one
length stay in their order. -/
def arrange (schemas : List Schema) : List Schema :=
  schemas.mergeSort fun a b => decide (b.keyPrefix.utf8ByteSize ≤ a.keyPrefix.utf8ByteSize)

def register (r : Registry) (schema : Schema) : Registry :=
  ⟨arrange (replace schema r.schemas)⟩

/-- Whether a schema with a name is registered; what taking it out answers. -/
def contains (r : Registry) (name : String) : Bool :=
  r.schemas.any fun s => s.name == name

/-- The registry without the schema with a name. -/
def unregister (r : Registry) (name : String) : Registry :=
  ⟨r.schemas.eraseP fun s => s.name == name⟩

def clear (_ : Registry) : Registry :=
  {}

def get? (r : Registry) (name : String) : Option Schema :=
  r.schemas.find? fun s => s.name == name

def findByKey? (r : Registry) (key : String) : Option Schema :=
  r.schemas.find? fun s => Text.startsWith key s.keyPrefix

def names (r : Registry) : List String :=
  (r.schemas.map fun s => s.name).mergeSort fun a b => decide (a ≤ b)

def size (r : Registry) : Nat :=
  r.schemas.length

def isEmpty (r : Registry) : Bool :=
  r.schemas.isEmpty

end Registry
end HybridSearch
