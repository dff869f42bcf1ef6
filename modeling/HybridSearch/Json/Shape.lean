import HybridSearch.Json.Tree
import HybridSearch.Text.Quoted

/-!
# Reading structures from JSON

A shape says how a structure is read from a JSON tree: from an object, whose entries are taken in
order and whose unknown keys are passed over, or from an array with the fields in the order of their
declaration. The first entry that cannot be read decides the fault; fields that are missing are
looked for afterwards.

* `Shape.read`: a structure from a tree.
* `Fault.message`: what is wrong, as text.
-/
namespace HybridSearch.Json

inductive Fault where
  | wrongKind (found wanted : String)
  | outOfRange (n : Int) (wanted : String)
  | missing (field : String)
  | repeated (field : String)
  /-- An array that ends before a field that must be given: the place of the field, the name of the
  structure and the number of its fields. -/
  | tooShort (place : Nat) (structureName : String) (fields : Nat)
  | tooLong (items : Nat)
  /-- A text that names none of the options of a field. -/
  | rejected (reason : String)
  | unreadable
  deriving DecidableEq

def Fault.message : Fault → String
  | wrongKind found wanted => "invalid type: " ++ found ++ ", expected " ++ wanted
  | outOfRange n wanted => "invalid value: integer `" ++ toString n ++ "`, expected " ++ wanted
  | missing field => "missing field `" ++ field ++ "`"
  | repeated field => "duplicate field `" ++ field ++ "`"
  | tooShort place name fields =>
    "invalid length " ++ toString place ++ ", expected struct " ++ name ++ " with " ++
      toString fields ++ (if fields = 1 then " element" else " elements")
  | tooLong items => "invalid length " ++ toString items ++ ", expected fewer elements in array"
  | rejected reason => reason
  | unreadable => "value cannot be read"

abbrev Reader (α : Type) := Tree → Except Fault α

namespace Reader

def unexpected (wanted : String) : Tree → Fault
  | .null => .wrongKind "null" wanted
  | .bool b => .wrongKind ("boolean `" ++ toString b ++ "`") wanted
  | .number (some (.integer n)) => .wrongKind ("integer `" ++ toString n ++ "`") wanted
  | .number (some (.real x)) =>
    .wrongKind ("floating point `" ++ (JsonNumber.real x).text ++ "`") wanted
  | .number none => .unreadable
  | .string (some s) => .wrongKind ("string " ++ Text.quoted s) wanted
  | .string none => .unreadable
  | .array _ => .wrongKind "sequence" wanted
  | .object _ => .wrongKind "map" wanted

def string : Reader String
  | .string (some s) => .ok s
  | t => .error (unexpected "a string" t)

def boolean : Reader Bool
  | .bool b => .ok b
  | t => .error (unexpected "a boolean" t)

/-- A natural number below `2 ^ 64`. -/
def natural : Reader Nat
  | .number (some (.integer n)) =>
    if 0 ≤ n ∧ n < UInt64.size then .ok n.toNat else .error (.outOfRange n "usize")
  | t => .error (unexpected "usize" t)

def real : Reader Binary64
  | .number (some n) => .ok n.toBinary64
  | t => .error (unexpected "f64" t)

def optional (read : Reader α) : Reader (Option α)
  | .null => .ok none
  | t => (read t).map some

def list (read : Reader α) : Reader (List α)
  | .array items => items.mapM read
  | t => .error (unexpected "a sequence" t)

def named (parse : String → Except ε α) (message : ε → String) : Reader α := fun t => do
  let s ← string t
  (parse s).mapError fun e => .rejected (message e)

end Reader

/-- A field of a structure. -/
structure Slot (σ : Type) where
  name : String
  required : Bool
  put : Tree → σ → Except Fault σ

/-- A field that is read by `read` and stored by `store`. -/
def Slot.of (name : String) (required : Bool) (read : Reader α) (store : α → σ → σ) : Slot σ :=
  ⟨name, required, fun t s => (read t).map fun value => store value s⟩

/-- The fields of a structure, and the structure with every field at its default. -/
structure Shape (σ : Type) where
  name : String
  slots : List (Slot σ)
  start : σ

namespace Shape

/-- Takes up the entries of an object in order, with the names of the fields that were given. -/
def takeEntries (shape : Shape σ) :
    List (Option String × Tree) → List String → σ → Except Fault (List String × σ)
  | [], given, s => .ok (given, s)
  | (none, _) :: _, _, _ => .error .unreadable
  | (some key, t) :: rest, given, s =>
    match shape.slots.find? (·.name == key) with
    | none => takeEntries shape rest given s
    | some slot =>
      if given.contains key then .error (.repeated key)
      else do takeEntries shape rest (key :: given) (← slot.put t s)

/-- Takes up the items of an array, one for each field from the place `place` on. -/
def takeItems (shape : Shape σ) (size : Nat) :
    (place : Nat) → List (Slot σ) → List Tree → σ → Except Fault σ
  | _, [], [], s => .ok s
  | _, [], _ :: _, _ => .error (.tooLong size)
  | place, slot :: slots, [], s =>
    if slot.required then .error (.tooShort place shape.name shape.slots.length)
    else takeItems shape size (place + 1) slots [] s
  | place, slot :: slots, item :: items, s => do
    takeItems shape size (place + 1) slots items (← slot.put item s)

def read (shape : Shape σ) : Reader σ
  | .object entries => do
    let (given, s) ← shape.takeEntries entries [] shape.start
    match shape.slots.find? fun slot => slot.required && !given.contains slot.name with
    | some slot => .error (.missing slot.name)
    | none => .ok s
  | .array items => shape.takeItems items.length 0 shape.slots items shape.start
  | t => .error (Reader.unexpected ("struct " ++ shape.name) t)

end Shape
end HybridSearch.Json
