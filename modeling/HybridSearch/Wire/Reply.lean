import HybridSearch.Bytes
import HybridSearch.Number.Style
import HybridSearch.Text.Quoted

/-!
# Replies

What a server answers to a command.

* `Reply.bytes?`, `Reply.text?`: the value of a reply that stands for bytes or for a text.
* `Reply.description`: a reply as it is shown in messages.
* `Reply.failure?`: the first error inside a reply.
* `ServerError.message`: an error line as text.
-/
namespace HybridSearch

inductive Reply where
  | nil
  | okay
  | integer (n : Int)
  | bulk (bytes : Bytes)
  | simple (s : String)
  | array (items : List Reply)
  | map (entries : List (Reply × Reply))
  | double (x : Binary64)
  | boolean (b : Bool)
  | failure (line : String)
  | set (items : List Reply)
  | bigNumber (n : Int)
  /-- A text with the name of its format, as it is shown. -/
  | verbatim (format s : String)
  /-- A reply with remarks that belong to it. -/
  | annotated (content : Reply) (remarks : List (Reply × Reply))
  /-- What a server says unasked, with the kind of it, as it is shown. -/
  | push (kind : String) (items : List Reply)
  deriving Inhabited

/-- An error line of a server, cut at the first space. -/
structure ServerError where
  code : String
  detail : Option String
  deriving DecidableEq

namespace ServerError

def ofLine (line : String) : ServerError :=
  let cs := line.toList
  let code := String.ofList (cs.takeWhile (· ≠ ' '))
  match cs.dropWhile (· ≠ ' ') with
  | [] => ⟨code, none⟩
  | _ :: detail => ⟨code, some (String.ofList detail)⟩

def kindName? : (code : String) → Option String
  | "ERR" => some "ResponseError"
  | "EXECABORT" => some "ExecAbortError"
  | "LOADING" => some "BusyLoadingError"
  | "NOSCRIPT" => some "NoScriptError"
  | "MOVED" => some "Moved"
  | "ASK" => some "Ask"
  | "TRYAGAIN" => some "TryAgain"
  | "CLUSTERDOWN" => some "ClusterDown"
  | "CROSSSLOT" => some "CrossSlot"
  | "MASTERDOWN" => some "MasterDown"
  | "READONLY" => some "ReadOnly"
  | "NOTBUSY" => some "NotBusy"
  | "NOSUB" => some "NoSub"
  | _ => none

def message (e : ServerError) : String :=
  match kindName? e.code, e.detail with
  | some kind, some detail => "An error was signalled by the server - " ++ kind ++ ": " ++ detail
  | some kind, none => "An error was signalled by the server- " ++ kind
  | none, some detail => e.code ++ ": " ++ detail
  | none, none => e.code ++ ": Unknown extension error encountered"

end ServerError

namespace Reply

def bytes? : Reply → Option Bytes
  | bulk bytes => some bytes
  | simple s => some (Bytes.ofText s)
  | integer n => some (Bytes.ofText (toString n))
  | double x => some (Bytes.ofText x.text)
  | _ => none

def text? (r : Reply) : Option String :=
  r.bytes?.bind Bytes.text?

/-- Bytes as they are shown in messages: as a text in quotes, or as numbers if they are none. -/
def bytesDescription (bytes : Bytes) : String :=
  match Bytes.text? bytes with
  | some s => "bulk-string('" ++ Text.quoted s ++ "')"
  | none =>
    "binary-data([" ++ ", ".intercalate (bytes.map fun byte => toString byte.toNat) ++ "])"

mutual

def description : Reply → String
  | nil => "nil"
  | okay => "ok"
  | integer n => "int(" ++ toString n ++ ")"
  | bulk bytes => bytesDescription bytes
  | simple s => "simple-string(" ++ Text.quoted s ++ ")"
  | array items => "array([" ++ ", ".intercalate (itemDescriptions items) ++ "])"
  | map entries => "map([" ++ ", ".intercalate (entryDescriptions entries) ++ "])"
  | double x => "double(" ++ Number.Style.tagged.text x ++ ")"
  | boolean b => "boolean(" ++ toString b ++ ")"
  | failure line => "server-error(" ++ Text.quoted line ++ ")"
  | set items => "set([" ++ ", ".intercalate (itemDescriptions items) ++ "])"
  | bigNumber n => "big-number(" ++ toString n ++ ")"
  | verbatim format s => "verbatim-string(" ++ format ++ "," ++ Text.quoted s ++ ")"
  | annotated content _ => "attribute(" ++ content.description ++ ")"
  | push kind items =>
    "push(" ++ kind ++ ", [" ++ ", ".intercalate (itemDescriptions items) ++ "])"

def itemDescriptions : List Reply → List String
  | [] => []
  | item :: rest => item.description :: itemDescriptions rest

def entryDescriptions : List (Reply × Reply) → List String
  | [] => []
  | entry :: rest => entryDescription entry :: entryDescriptions rest

def entryDescription : Reply × Reply → String
  | (key, value) => "(" ++ key.description ++ ", " ++ value.description ++ ")"

end

mutual

def failure? : Reply → Option String
  | failure line => some line
  | array items => itemsFailure? items
  | map entries => entriesFailure? entries
  | set items => itemsFailure? items
  | annotated content remarks => content.failure?.orElse fun _ => entriesFailure? remarks
  | push _ items => itemsFailure? items
  | _ => none

def itemsFailure? : List Reply → Option String
  | [] => none
  | item :: rest => item.failure?.orElse fun _ => itemsFailure? rest

def entriesFailure? : List (Reply × Reply) → Option String
  | [] => none
  | entry :: rest => (entryFailure? entry).orElse fun _ => entriesFailure? rest

def entryFailure? : Reply × Reply → Option String
  | (key, value) => key.failure?.orElse fun _ => value.failure?

end

end Reply
end HybridSearch
