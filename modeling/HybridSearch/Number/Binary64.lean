import HybridSearch.Number.Rounding

/-!
# Numbers in 64 bits

The double-precision numbers, taken as bit patterns. Every operation is carried out on exact
integers and rounded once at the end.

* `Binary64.units`: the number behind a pattern, as a multiple of `2 ^ (-1074)`.
* `Binary64.ofRatio`: the nearest number to a quotient.
* `Binary64.narrow`, `Binary64.widen`: the way to the 32-bit format and back.
-/
namespace HybridSearch

open Number

/-- A double-precision number, infinity, or one of the patterns that stand for no number. -/
structure Binary64 where
  bits : UInt64
  deriving DecidableEq, Inhabited

namespace Binary64

def ofField (negative : Bool) (field : Nat) : Binary64 :=
  ⟨UInt64.ofNat (if negative then field + Format.double.signBit else field)⟩

def negative (x : Binary64) : Bool :=
  Format.double.signBit ≤ x.bits.toNat

def field (x : Binary64) : Nat :=
  x.bits.toNat % Format.double.signBit

def isNaN (x : Binary64) : Bool :=
  Format.double.infinity < x.field

def isFinite (x : Binary64) : Bool :=
  x.field < Format.double.infinity

theorem isNaN_of_isFinite {x : Binary64} (h : x.isFinite = true) : x.isNaN = false := by
  rw [isFinite, decide_eq_true_iff] at h
  rw [isNaN, decide_eq_false_iff_not]
  omega

/-- The size of the number in units of `2 ^ (-1074)`. -/
def size (x : Binary64) : Nat :=
  Format.double.units x.field

/-- The number in units of `2 ^ (-1074)`. The infinities lie beyond every finite number. -/
def units (x : Binary64) : Int :=
  if x.negative then -(x.size : Int) else x.size

def unitsPerOne : Nat :=
  Nat.pow 2 Format.double.scale

/-- Whether `x < y`; nothing is less or greater than a pattern that stands for no number. -/
def less (x y : Binary64) : Bool :=
  !x.isNaN && !y.isNaN && decide (x.units < y.units)

/-- Whether `x ≤ y`. -/
def atMost (x y : Binary64) : Bool :=
  !x.isNaN && !y.isNaN && decide (x.units ≤ y.units)

/-- Whether two patterns stand for the same number. The two zeros do, and a pattern that stands for
no number equals nothing. -/
def same (x y : Binary64) : Bool :=
  !x.isNaN && !y.isNaN && x.units == y.units

def nan : Binary64 :=
  ofField false (Format.double.infinity + Nat.pow 2 (Format.double.fraction - 1))

def infinite (negative : Bool) : Binary64 :=
  ofField negative Format.double.infinity

def zero (negative : Bool) : Binary64 :=
  ofField negative 0

/-- The number nearest to `num / den` with a sign. -/
def ofRatio (negative : Bool) (num den : Nat) : Binary64 :=
  ofField negative (Format.double.nearest num den)

def ofInt (n : Int) : Binary64 :=
  ofRatio (n < 0) n.natAbs 1

/-- The number nearest to a multiple of the unit; an exact zero takes the given sign. -/
def ofUnits (zeroNegative : Bool) (n : Int) : Binary64 :=
  if n = 0 then zero zeroNegative else ofRatio (n < 0) n.natAbs unitsPerOne

def neg (x : Binary64) : Binary64 :=
  ofField (!x.negative) x.field

def add (x y : Binary64) : Binary64 :=
  if x.isNaN || y.isNaN then nan
  else if !x.isFinite then
    if !y.isFinite && x.negative != y.negative then nan else x
  else if !y.isFinite then y
  else ofUnits (x.negative && y.negative) (x.units + y.units)

def mul (x y : Binary64) : Binary64 :=
  let negative := x.negative != y.negative
  if x.isNaN || y.isNaN then nan
  else if !x.isFinite || !y.isFinite then
    if x.size = 0 || y.size = 0 then nan else infinite negative
  else ofRatio negative (x.size * y.size) (unitsPerOne * unitsPerOne)

def div (x y : Binary64) : Binary64 :=
  let negative := x.negative != y.negative
  if x.isNaN || y.isNaN then nan
  else if !x.isFinite then
    if !y.isFinite then nan else infinite negative
  else if !y.isFinite then zero negative
  else if y.size = 0 then
    if x.size = 0 then nan else infinite negative
  else ofRatio negative x.size y.size

/-- A power with a natural exponent, by repeated squaring: the factors for the set bits of the
exponent are multiplied together from the lowest bit up, each product rounded. -/
def pow (x : Binary64) (exponent : Nat) : Binary64 :=
  go x exponent (ofInt 1)
where
  /-- Multiplies `product` by `square` to the power of `exponent`. -/
  go (square : Binary64) (exponent : Nat) (product : Binary64) : Binary64 :=
    let product := if exponent % 2 = 1 then product.mul square else product
    if exponent < 2 then product else go (square.mul square) (exponent / 2) product
  termination_by exponent

/-- The number nearest to `coefficient * 10 ^ exponent`. Exponents so far out that the answer is
infinity or zero are settled by the count of digits. -/
def ofDecimal (negative : Bool) (coefficient : Nat) (exponent : Int) : Binary64 :=
  if coefficient = 0 then zero negative
  else
    let decade := exponent + (Nat.toDigits 10 coefficient).length
    if 310 < decade then infinite negative
    else if decade < -330 then zero negative
    else if 0 ≤ exponent then ofRatio negative (coefficient * Nat.pow 10 exponent.toNat) 1
    else ofRatio negative coefficient (Nat.pow 10 (-exponent).toNat)

def fractionStep : Nat :=
  Nat.pow 2 (Format.double.fraction - Format.single.fraction)

/-- The nearest number in 32 bits, of two equally near ones the one with an even significand. What
stands for no number keeps its sign and the high bits of its fraction. -/
def narrow (x : Binary64) : UInt32 :=
  let single := Format.single
  let field :=
    if x.isNaN then
      single.infinity +
        ((x.field - Format.double.infinity) / fractionStep ||| Nat.pow 2 (single.fraction - 1))
    else if !x.isFinite then single.infinity
    else single.nearest x.size unitsPerOne
  UInt32.ofNat (if x.negative then field + single.signBit else field)

def widen (pattern : UInt32) : Binary64 :=
  let single := Format.single
  let negative := decide (single.signBit ≤ pattern.toNat)
  let field := pattern.toNat % single.signBit
  if single.infinity < field then
    ofField negative
      (Format.double.infinity +
        ((field - single.infinity) * fractionStep ||| Nat.pow 2 (Format.double.fraction - 1)))
  else if field = single.infinity then infinite negative
  else ofRatio negative (single.units field) (Nat.pow 2 single.scale)

end Binary64
end HybridSearch
