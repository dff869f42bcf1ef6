import HybridSearch.Engine
import HybridSearch.Number.Reading
import HybridSearch.Text.Affix

/-!
# Stores

An engine in memory. Indexes are kept by name with their creation arguments, and documents by key;
searches are recorded and answered with replies that were queued beforehand.

* `Store.coveredPrefixes`: the key prefixes that creation arguments name.
* `Store.createIndex`, `Store.dropIndex`, `Store.load`, `Store.fetch`, `Store.search`: the commands.
-/
namespace HybridSearch

def lookUp? (key : String) (pairs : List (String × α)) : Option α :=
  (pairs.find? fun pair => pair.1 == key).map (·.2)

/-- The pairs with a value put in the place of the first one under a key, or at the end. -/
def putAt (key : String) (value : α) : List (String × α) → List (String × α)
  | [] => [(key, value)]
  | pair :: rest => if pair.1 = key then (key, value) :: rest else pair :: putAt key value rest

/-- An engine in memory. -/
structure Store where
  /-- The creation arguments of the indexes, by name. -/
  indexes : List (String × List String) := []
  /-- The searches so far with the names of their indexes, the oldest first. -/
  searches : List (String × CompiledQuery) := []
  replies : List SearchResults := []
  documents : List (String × Body) := []

namespace Store

/-- The natural number below `2 ^ 64` that a text is the decimal form of. A plus sign may stand in
front of it. -/
def natural? (s : String) : Option Nat :=
  let digits :=
    match s.toList with
    | '+' :: rest => rest
    | cs => cs
  if digits.isEmpty || !digits.all Char.isDigit then none
  else
    let n := Number.digitsValue digits
    if n < UInt64.size then some n else none

/-- The key prefixes that creation arguments name in front of the fields: after the word `PREFIX`
their number and then the prefixes. Without that word the index covers every key. -/
def coveredPrefixes (arguments : List String) : List String :=
  match (arguments.takeWhile (· ≠ "SCHEMA")).dropWhile (· ≠ "PREFIX") with
  | [] => [""]
  | [_] => []
  | _ :: count :: rest => rest.take ((natural? count).getD 0)

def covers (keyPrefixes : List String) (key : String) : Bool :=
  keyPrefixes.any fun keyPrefix => Text.startsWith key keyPrefix

def hasIndex (s : Store) (name : String) : Bool :=
  (lookUp? name s.indexes).isSome

def pushReply (s : Store) (reply : SearchResults) : Store :=
  { s with replies := s.replies ++ [reply] }

def createIndex (arguments : List String) (s : Store) : Except EngineError Unit × Store :=
  match arguments with
  | [] => (.error (.command .nameless), s)
  | name :: _ =>
    if s.hasIndex name then (.error (.command .indexExists), s)
    else (.ok (), { s with indexes := s.indexes ++ [(name, arguments)] })

def dropCovered (s : Store) (keyPrefixes : List String) : Store :=
  { s with documents := s.documents.filter fun pair => !covers keyPrefixes pair.1 }

def dropIndex (name : String) (dropDocuments : Bool) (s : Store) :
    Except EngineError Unit × Store :=
  match lookUp? name s.indexes with
  | none => (.error (.command .unknownIndex), s)
  | some arguments =>
    let rest := { s with indexes := s.indexes.filter fun pair => pair.1 != name }
    (.ok (), if dropDocuments then rest.dropCovered (coveredPrefixes arguments) else rest)

/-- Records a search and answers it with the oldest queued reply, or with nothing. -/
def search (index : String) (query : CompiledQuery) (s : Store) :
    Except EngineError SearchResults × Store :=
  if s.hasIndex index then
    (.ok (s.replies.headD {}),
      { s with searches := s.searches ++ [(index, query)], replies := s.replies.tail })
  else (.error (.command (.noSuchIndex index)), s)

/-- The attributes of a document after others have been written into it, one after the other. -/
def mergeAttributes (stored written : Attributes) : Attributes :=
  written.foldl (fun attributes pair => putAt pair.1 pair.2 attributes) stored

/-- The contents under a key after a document has been written; none if they do not go together. -/
def mergeBody? : (stored : Option Body) → (written : Body) → Option Body
  | some (.hash stored), .hash written => some (.hash (mergeAttributes stored written))
  | some (.json _), .hash _ => none
  | _, written => some written

/-- Writes documents in order, up to the first one that does not fit what is stored. -/
def load : List Document → Store → Except EngineError Unit × Store
  | [], s => (.ok (), s)
  | d :: rest, s =>
    match mergeBody? (lookUp? d.key s.documents) d.body with
    | none => (.error (.command (.holdsJson d.key)), s)
    | some body => load rest { s with documents := putAt d.key body s.documents }

def fetch (key : String) (storage : Storage) (s : Store) : Except EngineError (Option Row) :=
  match lookUp? key s.documents, storage with
  | none, _ => .ok none
  | some (.hash attributes), .hash => .ok (some ⟨key, attributes⟩)
  | some (.json value), .json => .ok (some (Row.ofJson key value))
  | some _, _ => .error (.command (.otherStorage key))

instance : Engine (StateM Store) where
  createIndex := createIndex
  dropIndex := dropIndex
  indexExists name := fun s => (.ok (s.hasIndex name), s)
  search := search
  load := load
  fetch key storage := fun s => (fetch key storage s, s)

end Store
end HybridSearch
