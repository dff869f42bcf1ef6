import HybridSearch.Number.Style

/-!
# JSON values

Values as records and stored documents hold them, their text, and records: JSON objects whose keys
are in ascending order without repetition.

* `Json.text`: the compact text of a value.
* `Record.get?`, `Record.insert`, `Record.erase`: the object as a map from keys to values.
-/
namespace HybridSearch

/-- A JSON number. A numeral without fraction and exponent that fits in 64 bits stays an integer. -/
inductive JsonNumber where
  | integer (n : Int)
  | real (x : Binary64)
  deriving DecidableEq

namespace JsonNumber

def text : JsonNumber → String
  | integer n => toString n
  | real x => Number.Style.json.text x

def toBinary64 : JsonNumber → Binary64
  | integer n => Binary64.ofInt n
  | real x => x

end JsonNumber

inductive Json where
  | null
  | bool (b : Bool)
  | number (n : JsonNumber)
  | string (s : String)
  | array (items : List Json)
  | object (entries : List (String × Json))
  deriving Inhabited

namespace Json

def escapeChar (c : Char) : List Char :=
  match c with
  | '"' => ['\\', '"']
  | '\\' => ['\\', '\\']
  | '\x08' => ['\\', 'b']
  | '\x0c' => ['\\', 'f']
  | '\n' => ['\\', 'n']
  | '\r' => ['\\', 'r']
  | '\t' => ['\\', 't']
  | c =>
    if c.toNat < 0x20 then
      ['\\', 'u', '0', '0', Nat.digitChar (c.toNat / 16), Nat.digitChar (c.toNat % 16)]
    else [c]

def stringText (s : String) : String :=
  String.ofList ('"' :: s.toList.flatMap escapeChar ++ ['"'])

mutual

def text : Json → String
  | null => "null"
  | bool true => "true"
  | bool false => "false"
  | number n => n.text
  | string s => stringText s
  | array items => "[" ++ ",".intercalate (itemTexts items) ++ "]"
  | object entries => "\x7b" ++ ",".intercalate (entryTexts entries) ++ "\x7d"

def itemTexts : List Json → List String
  | [] => []
  | item :: rest => item.text :: itemTexts rest

def entryTexts : List (String × Json) → List String
  | [] => []
  | entry :: rest => entryText entry :: entryTexts rest

def entryText : String × Json → String
  | (key, value) => stringText key ++ ":" ++ value.text

end

def string? : Json → Option String
  | string s => some s
  | _ => none

def binary64? : Json → Option Binary64
  | number n => some n.toBinary64
  | _ => none

end Json

/-- Puts an entry into a list of entries in ascending order of their keys, in the place of an entry
with the same key if there is one. -/
def insertEntry (key : String) (value : α) : List (String × α) → List (String × α)
  | [] => [(key, value)]
  | entry :: rest =>
    if key < entry.1 then (key, value) :: entry :: rest
    else if key = entry.1 then (key, value) :: rest
    else entry :: insertEntry key value rest

def Ascending (entries : List (String × α)) : Prop :=
  entries.Pairwise fun a b => a.1 < b.1

theorem mem_insertEntry {key : String} {value : α} {entries : List (String × α)}
    {entry : String × α} (h : entry ∈ insertEntry key value entries) :
    entry = (key, value) ∨ entry ∈ entries := by
  induction entries with
  | nil => simpa [insertEntry] using h
  | cons first rest ih =>
    unfold insertEntry at h
    split at h
    · simpa using h
    · split at h
      · rcases List.mem_cons.1 h with h | h
        · exact .inl h
        · exact .inr (List.mem_cons_of_mem _ h)
      · rcases List.mem_cons.1 h with rfl | h
        · exact .inr List.mem_cons_self
        · exact (ih h).imp id (List.mem_cons_of_mem _)

theorem Ascending.insertEntry {entries : List (String × α)} (h : Ascending entries)
    (key : String) (value : α) : Ascending (insertEntry key value entries) := by
  induction entries with
  | nil => simp [HybridSearch.insertEntry, Ascending]
  | cons first rest ih =>
    have hfirst := List.pairwise_cons.1 h
    unfold HybridSearch.insertEntry
    split
    · rename_i hlt
      refine List.pairwise_cons.2 ⟨fun entry hmem => ?_, h⟩
      rcases List.mem_cons.1 hmem with rfl | hmem
      · exact hlt
      · exact String.lt_trans hlt (hfirst.1 entry hmem)
    · split
      · rename_i _ heq
        exact List.pairwise_cons.2 ⟨fun entry hmem => heq ▸ hfirst.1 entry hmem, hfirst.2⟩
      · rename_i hlt hne
        refine List.pairwise_cons.2 ⟨fun entry hmem => ?_, ih hfirst.2⟩
        rcases mem_insertEntry hmem with rfl | hmem
        · exact Decidable.by_contra fun hnot =>
            hne (String.le_antisymm (String.not_lt.1 hnot) (String.not_lt.1 hlt))
        · exact hfirst.1 entry hmem

/-- A JSON object as a map: its keys ascend, so no key occurs twice. -/
structure Record where
  entries : List (String × Json)
  ascending : Ascending entries := by exact List.Pairwise.nil

namespace Record

def empty : Record :=
  ⟨[], List.Pairwise.nil⟩

def get? (r : Record) (key : String) : Option Json :=
  (r.entries.find? fun entry => entry.1 == key).map (·.2)

def insert (r : Record) (key : String) (value : Json) : Record :=
  ⟨insertEntry key value r.entries, r.ascending.insertEntry key value⟩

def erase (r : Record) (key : String) : Record :=
  ⟨r.entries.filter fun entry => entry.1 != key, r.ascending.filter _⟩

/-- The object that holds the given entries; of several entries with one key the last counts. -/
def ofEntries (entries : List (String × Json)) : Record :=
  entries.foldl (fun r entry => r.insert entry.1 entry.2) empty

def toJson (r : Record) : Json :=
  .object r.entries

end Record
end HybridSearch
