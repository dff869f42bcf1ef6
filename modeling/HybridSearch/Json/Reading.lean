import HybridSearch.Json.Tree

/-!
# Reading JSON texts

The tree of a JSON text. A text has a tree exactly if it follows the grammar of JSON.

* `Numeral.json?`: the number that a numeral stands for.
* `Json.Tree.ofText?`: the tree of a text.
-/
namespace HybridSearch

namespace Number.Numeral

/-- Digits added to the end of a number as long as it stays below `2 ^ 64`, with the count of the
digits that were added. -/
def accumulate (n : Nat) : List Char → Nat × Nat
  | [] => (n, 0)
  | c :: rest =>
    let next := digitsValue [c] + 10 * n
    if next < UInt64.size then
      let (result, count) := accumulate next rest
      (result, count + 1)
    else (n, 0)

/-- A number times a power of ten, with one rounding for each power between `10 ^ -308` and
`10 ^ 308` that it takes; none if the result is not finite. -/
def scale? (x : Binary64) (exponent : Int) : (powers : Nat) → Option Binary64
  | 0 => some x
  | powers + 1 =>
    if exponent.natAbs ≤ 308 then
      let power := Binary64.ofDecimal false 1 exponent.natAbs
      if 0 ≤ exponent then
        let product := x.mul power
        if product.isFinite then some product else none
      else some (x.div power)
    else if x.size = 0 then some x
    else if 0 ≤ exponent then none
    else scale? (x.div (Binary64.ofDecimal false 1 308)) (exponent + 308) powers

/-- The number that a numeral with a fraction or an exponent stands for in a JSON text. Only the
leading digits that fit in 64 bits are taken; they are rounded, and rounded again by each power of
ten. An exponent of more than 31 bits is too great unless it is negative or the digits are zero. -/
def real? (n : Numeral) : Option Binary64 :=
  let (whole, wholeCount) := accumulate 0 n.whole
  let (leading, fractionCount) := accumulate whole n.fraction
  let signed (x : Binary64) := if n.negative then x.neg else x
  if Nat.pow 2 31 ≤ digitsValue n.exponent then
    if leading ≠ 0 ∧ !n.exponentNegative then none else some (signed (Binary64.zero false))
  else
    let exponent : Int := n.power + (n.whole.length - wholeCount : Nat) - fractionCount
    (scale? (Binary64.ofInt leading) exponent 4).map signed

/-- The number that a numeral stands for in a JSON text. An integer stays one if it fits in 64 bits,
with or without a sign; negative zero has no integer. -/
def json? (n : Numeral) : Option JsonNumber :=
  let size := digitsValue n.whole
  if n.fraction.isEmpty && n.exponent.isEmpty then
    if !n.negative && size < UInt64.size then some (.integer size)
    else if n.negative && 0 < size && size ≤ UInt64.size / 2 then some (.integer (-(size : Int)))
    else n.real?.map .real
  else n.real?.map .real

end Number.Numeral

namespace Json

open Number

def isSpace (c : Char) : Bool :=
  c == ' ' || c == '\n' || c == '\r' || c == '\t'

def skipSpace (cs : List Char) : List Char :=
  cs.dropWhile isSpace

def hexCode? (a b c d : Char) : Option Nat := do
  [a, b, c, d].foldlM (fun code digit => do return code * 16 + (← Number.hexDigit? digit)) 0

/-- The character behind a backslash that stands for itself or for a control character. -/
def shortEscape? : Char → Option Char
  | '"' => some '"'
  | '\\' => some '\\'
  | '/' => some '/'
  | 'b' => some '\x08'
  | 'f' => some '\x0c'
  | 'n' => some '\n'
  | 'r' => some '\r'
  | 't' => some '\t'
  | _ => none

/-- The codes of the characters up to the closing quote, and what follows it. -/
def readCodes? : List Char → Option (List Nat × List Char)
  | [] => none
  | '"' :: rest => some ([], rest)
  | '\\' :: 'u' :: a :: b :: c :: d :: rest => do
    let code ← hexCode? a b c d
    let (codes, rest) ← readCodes? rest
    return (code :: codes, rest)
  | '\\' :: c :: rest => do
    let c ← shortEscape? c
    let (codes, rest) ← readCodes? rest
    return (c.toNat :: codes, rest)
  | c :: rest =>
    if c.toNat < 0x20 then none
    else do
      let (codes, rest) ← readCodes? rest
      return (c.toNat :: codes, rest)

/-- The text of a row of codes, in which two surrogates in the right order stand for one character;
none if a surrogate is left alone. -/
def charsOfCodes? : List Nat → Option (List Char)
  | [] => some []
  | [code] => if 0xD800 ≤ code && code < 0xE000 then none else some [Char.ofNat code]
  | code :: next :: rest =>
    if 0xD800 ≤ code && code < 0xDC00 then
      if 0xDC00 ≤ next && next < 0xE000 then do
        let cs ← charsOfCodes? rest
        return Char.ofNat (0x10000 + (code - 0xD800) * 0x400 + (next - 0xDC00)) :: cs
      else none
    else if 0xDC00 ≤ code && code < 0xE000 then none
    else do
      let cs ← charsOfCodes? (next :: rest)
      return Char.ofNat code :: cs

def readString? (cs : List Char) : Option (Option String × List Char) := do
  let (codes, rest) ← readCodes? cs
  return ((charsOfCodes? codes).map String.ofList, rest)

/-- The number at the start of a text, and what follows it. The whole part has no needless zero in
front, and a point is followed by a digit. -/
def readNumber? (cs : List Char) : Option (Option JsonNumber × List Char) := do
  let (negative, rest) :=
    match cs with
    | '-' :: rest => (true, rest)
    | rest => (false, rest)
  let (whole, rest) := takeDigits rest
  if whole.isEmpty || (whole.head? == some '0' && 1 < whole.length) then none
  else
    let pointed := rest.head? == some '.'
    let (fraction, rest) := takeFraction rest
    if pointed && fraction.isEmpty then none
    else
      let ((exponentNegative, exponent), rest) ← takeExponent? rest
      return ((⟨negative, whole, fraction, exponentNegative, exponent⟩ : Numeral).json?, rest)

def afterWord? : (word : List Char) → List Char → Option (List Char)
  | [], rest => some rest
  | c :: word, d :: rest => if c = d then afterWord? word rest else none
  | _ :: _, [] => none

mutual

/-- The tree at the start of a text, and what follows it. Every step uses up a character, so the
length of the text bounds the number of steps. -/
def readTree? : (steps : Nat) → List Char → Option (Tree × List Char)
  | 0, _ => none
  | steps + 1, cs =>
    match skipSpace cs with
    | '\x7b' :: rest =>
      match skipSpace rest with
      | '\x7d' :: rest => some (.object [], rest)
      | rest => (readEntries? steps rest).map fun (entries, rest) => (.object entries, rest)
    | '[' :: rest =>
      match skipSpace rest with
      | ']' :: rest => some (.array [], rest)
      | rest => (readItems? steps rest).map fun (items, rest) => (.array items, rest)
    | '"' :: rest => (readString? rest).map fun (s, rest) => (.string s, rest)
    | 't' :: rest => (afterWord? "rue".toList rest).map fun rest => (.bool true, rest)
    | 'f' :: rest => (afterWord? "alse".toList rest).map fun rest => (.bool false, rest)
    | 'n' :: rest => (afterWord? "ull".toList rest).map fun rest => (.null, rest)
    | rest => (readNumber? rest).map fun (n, rest) => (.number n, rest)

/-- The items up to the end of an array, and what follows it. -/
def readItems? : (steps : Nat) → List Char → Option (List Tree × List Char)
  | 0, _ => none
  | steps + 1, cs => do
    let (item, rest) ← readTree? steps cs
    match skipSpace rest with
    | ',' :: rest =>
      let (items, rest) ← readItems? steps rest
      return (item :: items, rest)
    | ']' :: rest => return ([item], rest)
    | _ => none

/-- The entries up to the end of an object, and what follows it. -/
def readEntries? : (steps : Nat) → List Char → Option (List (Option String × Tree) × List Char)
  | 0, _ => none
  | steps + 1, cs =>
    match skipSpace cs with
    | '"' :: rest => do
      let (key, rest) ← readString? rest
      match skipSpace rest with
      | ':' :: rest =>
        let (tree, rest) ← readTree? steps rest
        match skipSpace rest with
        | ',' :: rest =>
          let (entries, rest) ← readEntries? steps rest
          return ((key, tree) :: entries, rest)
        | '\x7d' :: rest => return ([(key, tree)], rest)
        | _ => none
      | _ => none
    | _ => none

end

/-- The tree of a text, with nothing but space around it. -/
def Tree.ofText? (s : String) : Option Tree :=
  let cs := s.toList
  match readTree? (2 * cs.length + 2) cs with
  | some (tree, rest) => if (skipSpace rest).isEmpty then some tree else none
  | none => none

def ofText? (s : String) : Option Json :=
  (Tree.ofText? s).bind Tree.value?

end Json
end HybridSearch
