import HybridSearch.Number.Binary64
import HybridSearch.Text.Word

/-!
# Numbers written in decimal

The number that a text stands for. A numeral is a sign, digits with a point at any place among or
beside them, and an exponent; what may be left out is decided by the reader of the text. The
numerals that a query operand may use are read to the nearest number.
-/
namespace HybridSearch.Number

def digitsValue (digits : List Char) : Nat :=
  digits.foldl (fun n c => 10 * n + (c.toNat - '0'.toNat)) 0

def hexDigit? (c : Char) : Option Nat :=
  if c.isDigit then some (c.toNat - '0'.toNat)
  else if 'a' ≤ c ∧ c ≤ 'f' then some (c.toNat - 'a'.toNat + 10)
  else if 'A' ≤ c ∧ c ≤ 'F' then some (c.toNat - 'A'.toNat + 10)
  else none

/-- A numeral, its parts as they were written. -/
structure Numeral where
  negative : Bool
  whole : List Char
  fraction : List Char
  exponentNegative : Bool
  /-- Empty if there is no exponent. -/
  exponent : List Char

def takeDigits (cs : List Char) : List Char × List Char :=
  cs.span Char.isDigit

def takeSign : List Char → Bool × List Char
  | '-' :: rest => (true, rest)
  | '+' :: rest => (false, rest)
  | rest => (false, rest)

/-- The fraction at the start of a text, and what follows it. Nothing stands for no fraction, so a
point alone is taken too. -/
def takeFraction : List Char → List Char × List Char
  | '.' :: rest => takeDigits rest
  | rest => ([], rest)

/-- The exponent at the start of a text, and what follows it. An exponent without digits is none. -/
def takeExponent? (cs : List Char) : Option ((Bool × List Char) × List Char) :=
  match cs with
  | c :: rest =>
    if c = 'e' ∨ c = 'E' then
      let (negative, rest) := takeSign rest
      let (digits, rest) := takeDigits rest
      if digits.isEmpty then none else some ((negative, digits), rest)
    else some ((false, []), cs)
  | [] => some ((false, []), [])

namespace Numeral

def power (n : Numeral) : Int :=
  let size : Int := digitsValue n.exponent
  if n.exponentNegative then -size else size

def nearest (n : Numeral) : Binary64 :=
  Binary64.ofDecimal n.negative (digitsValue (n.whole ++ n.fraction)) (n.power - n.fraction.length)

/-- A numeral without its sign that takes up the whole text. It has a digit before or after the
point. -/
def ofUnsigned? (negative : Bool) (cs : List Char) : Option Numeral :=
  let (whole, rest) := takeDigits cs
  let (fraction, rest) := takeFraction rest
  if whole.isEmpty && fraction.isEmpty then none
  else
    match takeExponent? rest with
    | some ((exponentNegative, exponent), []) =>
      some ⟨negative, whole, fraction, exponentNegative, exponent⟩
    | _ => none

end Numeral

/-- The number that a text stands for: a numeral, or in any case `inf`, `infinity` or `nan`, each
with or without a sign. -/
def ofText? (s : String) : Option Binary64 :=
  let (negative, rest) := takeSign s.toList
  match Numeral.ofUnsigned? negative rest with
  | some numeral => some numeral.nearest
  | none =>
    let word := rest.map Char.toLower
    if word = "inf".toList ∨ word = "infinity".toList then some (Binary64.infinite negative)
    else if word = "nan".toList then
      some (if negative then Binary64.nan.neg else Binary64.nan)
    else none

end HybridSearch.Number
