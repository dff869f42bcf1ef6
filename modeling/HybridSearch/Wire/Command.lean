import HybridSearch.Engine
import HybridSearch.Json.Reading

/-!
# Commands and what their replies mean

The commands that a server is sent, and the reading of its replies.

* `Command.create`, `Command.drop`, `Command.list`, `Command.search`, `Command.write`,
  `Command.read`: the commands.
* `SearchResults.ofReply`: the answer to a search.
* `Row.ofReply`: the answer to a look-up.
-/
namespace HybridSearch

abbrev Command := List Bytes

namespace Command

def ofTexts (arguments : List String) : Command :=
  arguments.map Bytes.ofText

def create (arguments : List String) : Command :=
  ofTexts ("FT.CREATE" :: arguments)

def drop (name : String) (dropDocuments : Bool) : Command :=
  ofTexts (["FT.DROPINDEX", name] ++ if dropDocuments then ["DD"] else [])

def list : Command :=
  ofTexts ["FT._LIST"]

def search (index : String) (query : CompiledQuery) : Command :=
  ofTexts ["FT.SEARCH", index] ++ query.arguments

def write (d : Document) : Command :=
  match d.body with
  | .hash attributes =>
    ofTexts ["HSET", d.key] ++ attributes.flatMap fun pair => [Bytes.ofText pair.1, pair.2]
  | .json value => ofTexts ["JSON.SET", d.key, "$", value.text]

def read (key : String) : Storage → Command
  | .hash => ofTexts ["HGETALL", key]
  | .json => ofTexts ["JSON.GET", key]

end Command

namespace Reply

def text (r : Reply) : Except ReplyFault String :=
  match r.text? with
  | some s => .ok s
  | none => .error (.expectedText r)

/-- The attribute that a name and a value stand for. The value is read before the name. -/
def attributeOf (badValue : Reply → ReplyFault) (name value : Reply) :
    Except ReplyFault (String × Bytes) := do
  let bytes ←
    match value.bytes? with
    | some bytes => pure bytes
    | none => throw (badValue value)
  return (← name.text, bytes)

/-- Names and values in turn, as attributes; none if the last name has no value. -/
def attributes (odd : ReplyFault) (badValue : Reply → ReplyFault) :
    List Reply → Except ReplyFault Attributes
  | [] => .ok []
  | [_] => .error odd
  | name :: value :: rest => do
    let first ← attributeOf badValue name value
    return first :: (← attributes odd badValue rest)

/-- Names and values in turn, as pairs, without a last name that has no value. -/
def pairUp : List Reply → List (Reply × Reply)
  | name :: value :: rest => (name, value) :: pairUp rest
  | _ => []

def names : Reply → Except CommandFault (List String)
  | nil => .ok []
  | array items => items.mapM nameOf
  | set items => items.mapM nameOf
  | bulk bytes => (nameOf (.bulk bytes)).map fun name => [name]
  | map entries => entries.mapM fun entry => .error (.incompatible "string" (map [entry]))
  | r => .error (.incompatible "vector" r)
where
  nameOf : Reply → Except CommandFault String
    | annotated content _ => plainNameOf content
    | r => plainNameOf r
  plainNameOf : Reply → Except CommandFault String
    | okay => .ok "OK"
    | bulk bytes =>
      match Bytes.text? bytes with
      | some s => .ok s
      | none => .error .notUtf8
    | verbatim _ s => .ok s
    | r =>
      match r.text? with
      | some s => .ok s
      | none => .error (.incompatible "string" r)

end Reply

namespace SearchResults

/-- The rows of an answer to a search: ids, each of which may be followed by an array of names and
values in turn. -/
def rowsOfReplies : List Reply → Except ReplyFault (List Row)
  | [] => .ok []
  | id :: .array items :: rest => do
    let id ← id.text
    let attributes ← Reply.attributes (.oddDocument id) .attributeValue items
    return ⟨id, attributes⟩ :: (← rowsOfReplies rest)
  | id :: rest => do
    let id ← id.text
    return ⟨id, []⟩ :: (← rowsOfReplies rest)

/-- The answer to a search: an array with the number of matching documents and then the rows. -/
def ofReply : Reply → Except ReplyFault SearchResults
  | .array (.integer n :: rest) =>
    if 0 ≤ n then do return ⟨n.toNat, ← rowsOfReplies rest⟩
    else .error (.expectedCount (some (.integer n)))
  | .array items => .error (.expectedCount items.head?)
  | r => .error (.expectedArray r)

end SearchResults

namespace Row

/-- The row of a hash from the names and values that it has. -/
def ofHash (key : String) (entries : List (Reply × Reply)) : Except ReplyFault Row := do
  return ⟨key, ← entries.mapM fun entry => Reply.attributeOf .hashValue entry.1 entry.2⟩

/-- The answer to a look-up. A key without a document gives nil or no attributes. -/
def ofReply (key : String) : Storage → Reply → Except ReplyFault (Option Row)
  | _, .nil => .ok none
  | .hash, .array [] => .ok none
  | .hash, .map [] => .ok none
  | .hash, .array items =>
    if items.length % 2 = 1 then .error (.oddAttributes key)
    else (ofHash key (Reply.pairUp items)).map some
  | .hash, .map entries => (ofHash key entries).map some
  | .hash, r => .error (.expectedAttributes key r)
  | .json, r => do
    match Json.ofText? (← r.text) with
    | some value => return some (ofJson key value)
    | none => throw (.invalidJson key)

end Row
end HybridSearch
