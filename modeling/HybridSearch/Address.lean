import HybridSearch.Address.Host
import HybridSearch.Text.Percent
import HybridSearch.Text.Word

/-!
# Addresses

Where an engine is reached: a URL that names a host, or a socket in the file system.

* `Address.parse?`: the parts of a URL. Controls and spaces around it and tabs and line ends inside
  it do not count.
* `Address.check`: the first thing that keeps the parts from being the address of an engine.
* `Address.ofText`: the address that a text stands for.
-/
namespace HybridSearch

inductive AddressFault where
  | malformed
  | noHost
  | encrypted
  | databaseNumber
  | userNotUtf8
  | passwordNotUtf8
  | protocolVersion (found : String)
  | noPath
  deriving DecidableEq

def AddressFault.message : AddressFault → String
  | malformed => "Redis URL did not parse- InvalidClientConfig"
  | noHost => "Missing hostname- InvalidClientConfig"
  | encrypted => "can't connect with TLS, the feature is not enabled- InvalidClientConfig"
  | databaseNumber => "Invalid database number- InvalidClientConfig"
  | userNotUtf8 => "Username is not valid UTF-8 string- InvalidClientConfig"
  | passwordNotUtf8 => "Password is not valid UTF-8 string- InvalidClientConfig"
  | protocolVersion found => "Invalid protocol version - InvalidClientConfig: " ++ found
  | noPath => "Missing path- InvalidClientConfig"

inductive Scheme where
  | plain
  | encrypted
  | socket
  deriving DecidableEq

def Scheme.ofName? : String → Option Scheme
  | "redis" => some plain
  | "rediss" => some encrypted
  | "redis+unix" => some socket
  | "unix" => some socket
  | _ => none

/-- Who connects to which host. -/
structure Authority where
  user : List Char := []
  password : List Char := []
  /-- Empty if no host is named. -/
  host : List Char := []

/-- An address in its parts, as they were written. -/
structure Address where
  scheme : Scheme
  authority : Authority
  path : List Char
  form : List Char

/-! ## The parts of a URL -/

/-- The parts of a text between `//` and the path, and the part that belongs to the path already:
what stands behind a port and a backslash. -/
def Authority.parse? (cs : List Char) : Option (Authority × List Char) := do
  let (credentials, location) := (Text.cutLast? '@' cs).getD ([], cs)
  let (user, password) := Text.cutFirst ':' credentials
  let (host, port) := Host.cutPort false location
  let named := !host.isEmpty
  guard (Host.isValid host)
  guard (named || user.isEmpty && password.isEmpty && port.isNone)
  let (digits, rest) := (port.getD []).span Char.isDigit
  guard (Number.digitsValue digits < 65536)
  guard (rest.isEmpty || rest.head? == some '\\')
  return (⟨user, password, host⟩, rest)

namespace Address

def significant (cs : List Char) : List Char :=
  let trimmed := ((cs.dropWhile (· ≤ ' ')).reverse.dropWhile (· ≤ ' ')).reverse
  trimmed.filter fun c => !(['\t', '\n', '\r'].contains c)

def takeScheme? (cs : List Char) : Option (String × List Char) :=
  match cs.span fun c => c.isAlphanum || ['+', '-', '.'].contains c with
  | (c :: name, ':' :: rest) =>
    if c.isAlpha then some (Text.lowerAscii (String.ofList (c :: name)), rest) else none
  | _ => none

/-- A path, and the form behind its question mark, without the fragment at the end. -/
def cutForm (cs : List Char) : List Char × List Char :=
  Text.cutFirst '?' (Text.cutFirst '#' cs).1

def parse? (s : String) : Option Address := do
  let (name, rest) ← takeScheme? (significant s.toList)
  let scheme ← Scheme.ofName? name
  match rest with
  | '/' :: '/' :: rest =>
    let (authority, rest) := rest.span fun c => !(['/', '?', '#'].contains c)
    guard (rest.isEmpty || authority != ['@'])
    let (authority, more) ← Authority.parse? authority
    let (path, form) := cutForm rest
    return ⟨scheme, authority, if more.isEmpty then path else '/' :: more ++ path, form⟩
  | rest =>
    let (path, form) := cutForm rest
    return ⟨scheme, {}, path, form⟩

/-! ## What an engine needs -/

/-- The segments of a path. A dot is left out, and two dots take back the segment before them. -/
def segments (path : List Char) : List (List Char) :=
  ((Text.parts '/' path).foldl step []).reverse
where
  /-- Takes one more segment; `done` are those before it, the last one first. -/
  step (done : List (List Char)) (segment : List Char) : List (List Char) :=
    match String.ofList (dots segment) with
    | "." => done
    | ".." => done.drop 1
    | _ => segment :: done
  dots : List Char → List Char
    | [] => []
    | '%' :: '2' :: e :: rest =>
      if e = 'e' ∨ e = 'E' then '.' :: dots rest else '%' :: '2' :: e :: dots rest
    | c :: rest => c :: dots rest

def isInt64 (cs : List Char) : Bool :=
  let (negative, digits) := Number.takeSign cs
  let size := Number.digitsValue digits
  !digits.isEmpty && digits.all Char.isDigit &&
    (if negative then size ≤ Nat.pow 2 63 else size < Nat.pow 2 63)

def namesDatabase (path : List Char) : Bool :=
  match (segments path).filter fun segment => !segment.isEmpty with
  | [] => true
  | [number] => isInt64 number
  | _ => false

/-- Checks the version of the protocol, if one is named. -/
def checkProtocol (a : Address) : Except AddressFault Unit :=
  match Text.formValue? a.form "protocol" with
  | none => .ok ()
  | some version =>
    if ["2", "resp2", "3", "resp3"].contains version then .ok ()
    else .error (.protocolVersion version)

def checkSocket (a : Address) : Except AddressFault Unit := do
  unless ["", "localhost"].contains (String.ofList a.authority.host) && a.path.head? == some '/' do
    throw .noPath
  unless ((Text.formValue? a.form "db").map fun number => isInt64 number.toList).getD true do
    throw .databaseNumber
  a.checkProtocol

def checkHost (a : Address) : Except AddressFault Unit := do
  if a.authority.host.isEmpty then throw .noHost
  if a.scheme = .encrypted then throw .encrypted
  unless namesDatabase a.path do throw .databaseNumber
  if (Bytes.text? (Text.percentDecoded a.authority.user)).isNone then throw .userNotUtf8
  if (Bytes.text? (Text.percentDecoded a.authority.password)).isNone then throw .passwordNotUtf8
  a.checkProtocol

def check (a : Address) : Except AddressFault Unit :=
  match a.scheme with
  | .socket => a.checkSocket
  | _ => a.checkHost

/-- The address that a text stands for, if an engine can be reached under it. -/
def ofText (s : String) : Except AddressFault Address :=
  match parse? s with
  | none => .error .malformed
  | some a => a.check.map fun _ => a

end Address
end HybridSearch
