import HybridSearch.Number.Reading
import HybridSearch.Text.Parts

/-!
# Hosts

The names of hosts that may stand in an address: names without the characters that an address uses
for itself, and IPv6 addresses in brackets.

* `Host.isIpv6`: eight groups of hexadecimal digits, of which two colons leave out at least one.
* `Host.isValid`: whether a text names a host.
-/
namespace HybridSearch.Host

def isGroup (cs : List Char) : Bool :=
  !cs.isEmpty && cs.length ≤ 4 && cs.all fun c => (Number.hexDigit? c).isSome

def isOctet (cs : List Char) : Bool :=
  !cs.isEmpty && cs.all Char.isDigit && (cs.length == 1 || cs.head? != some '0') &&
    Number.digitsValue cs ≤ 255

def isIpv4 (cs : List Char) : Bool :=
  let octets := Text.parts '.' cs
  octets.length == 4 && octets.all isOctet

/-- The number of groups that texts stand for. The last one may be an IPv4 address, if that is
allowed; it stands for two. -/
def groupCount? (ipv4 : Bool) : List (List Char) → Option Nat
  | [] => some 0
  | [last] =>
    if isGroup last then some 1
    else if ipv4 && isIpv4 last then some 2
    else none
  | group :: rest => if isGroup group then (groupCount? ipv4 rest).map (· + 1) else none

def groups (cs : List Char) : List (List Char) :=
  if cs.isEmpty then [] else Text.parts ':' cs

def cutGap : List Char → List Char × Option (List Char)
  | [] => ([], none)
  | ':' :: ':' :: rest => ([], some rest)
  | c :: rest =>
    let (before, after) := cutGap rest
    (c :: before, after)

def isIpv6 (cs : List Char) : Bool :=
  match cutGap cs with
  | (all, none) => groupCount? true (groups all) == some 8
  | (before, some after) =>
    match groupCount? false (groups before), groupCount? true (groups after) with
    | some m, some n => m + n < 8
    | _, _ => false

def reserved : List Char :=
  ['\x00', '\t', '\n', '\r', ' ', '#', '/', ':', '<', '>', '?', '@', '[', '\\', ']', '^', '|']

/-- Whether a text names a host. An empty text names none and is valid. -/
def isValid : List Char → Bool
  | '[' :: rest => rest.getLast? == some ']' && isIpv6 rest.dropLast
  | cs => cs.all fun c => !reserved.contains c

def cutPort (inBrackets : Bool) : List Char → List Char × Option (List Char)
  | [] => ([], none)
  | c :: rest =>
    if c = ':' && !inBrackets then ([], some rest)
    else
      let (host, port) := cutPort (c = '[' || inBrackets && c ≠ ']') rest
      (c :: host, port)

end HybridSearch.Host
