import HybridSearch.Number.Shortest

/-!
# Number styles

How a number becomes text. The digits are those of its shortest decimal; a style says where an
exponent is written and how.

* `Style.plain`: query texts, index arguments and messages. Never an exponent.
* `Style.json`: JSON texts.
* `Style.tagged`: numbers inside the description of a reply.
* `sixPlaces`: coordinates, with exactly six decimal places.
-/
namespace HybridSearch.Number

/-- The decisions that turn digits into text. -/
structure Style where
  tie : Tie
  positional : Int → Bool
  pointZero : Bool
  plus : List Char

namespace Style

def plain : Style :=
  ⟨.up, fun _ => true, false, []⟩

def json : Style :=
  ⟨.even, fun exponent => -5 ≤ exponent && exponent ≤ 15, true, ['+']⟩

def tagged : Style :=
  ⟨.up, fun exponent => -4 ≤ exponent && exponent ≤ 15, true, []⟩

def positionalText (digits : List Char) (exponent : Int) (pointZero : Bool) : List Char :=
  if 0 ≤ exponent then
    digits ++ List.replicate exponent.toNat '0' ++ (if pointZero then ['.', '0'] else [])
  else
    let places := (-exponent).toNat
    let padded := List.replicate (places + 1 - digits.length) '0' ++ digits
    padded.take (padded.length - places) ++ '.' :: padded.drop (padded.length - places)

def exponentText (digits : List Char) (exponent : Int) (plus : List Char) : List Char :=
  let fraction := digits.drop 1
  digits.take 1 ++ (if fraction.isEmpty then [] else '.' :: fraction) ++ 'e' ::
    ((if exponent < 0 then ['-'] else plus) ++ Nat.toDigits 10 exponent.natAbs)

def sizeText (style : Style) (field : Nat) : List Char :=
  if field = 0 then positionalText ['0'] 0 style.pointZero
  else
    let decimal := shortest style.tie field
    let digits := Nat.toDigits 10 decimal.coefficient
    let exponent := decimal.exponent + (digits.length - 1 : Nat)
    if style.positional exponent then
      positionalText digits decimal.exponent style.pointZero
    else exponentText digits exponent style.plus

def text (style : Style) (x : Binary64) : String :=
  if x.isNaN then "NaN"
  else
    let size := if x.isFinite then style.sizeText x.field else ['i', 'n', 'f']
    String.ofList (if x.negative then '-' :: size else size)

end Style

/-- A number with exactly six decimal places: the nearest one, of two equally near ones the even
one. A sign is kept in front of a zero. -/
def sixPlaces (x : Binary64) : String :=
  if x.isFinite then
    let digits := Nat.toDigits 10 (roundHalfEven (x.size * 1000000) Binary64.unitsPerOne)
    let size := Style.positionalText digits (-6) false
    String.ofList (if x.negative then '-' :: size else size)
  else Style.plain.text x

end HybridSearch.Number

namespace HybridSearch

def Binary64.text (x : Binary64) : String :=
  Number.Style.plain.text x

end HybridSearch
