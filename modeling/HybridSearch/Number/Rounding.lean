/-!
# Rounding to a binary format

A quotient of two natural numbers, rounded to the nearest number of a binary interchange format.
The formats are described by three numbers, and a non-negative number of a format by its field: the
stored bits without the sign. Fields are in the order of the numbers they stand for.

* `roundHalfEven`: the nearest integer to a quotient, a half going to the even neighbour.
* `Format.nearest`: the field of the nearest number to a quotient.
* `Format.units`: the number behind a field, counted in the least positive number of the format.
-/
namespace HybridSearch.Number

/-- The integer nearest to `num / den`; of two equally near ones the even one. -/
def roundHalfEven (num den : Nat) : Nat :=
  let floor := num / den
  let rest := 2 * (num % den)
  if den < rest || (rest == den && floor % 2 == 1) then floor + 1 else floor

/-- A binary interchange format. -/
structure Format where
  fraction : Nat
  top : Nat
  /-- The least positive number is `2 ^ (-scale)`. -/
  scale : Nat
  bytes : Nat

namespace Format

def single : Format := ⟨23, 255, 149, 4⟩

def double : Format := ⟨52, 2047, 1074, 8⟩

def infinity (f : Format) : Nat :=
  f.top * Nat.pow 2 f.fraction

def signBit (f : Format) : Nat :=
  Nat.pow 2 (8 * f.bytes - 1)

def shift (f : Format) (field : Nat) : Nat :=
  field / Nat.pow 2 f.fraction - 1

def significand (f : Format) (field : Nat) : Nat :=
  field - f.shift field * Nat.pow 2 f.fraction

/-- The number behind a field, as a multiple of the least positive number. The field of infinity
counts as the number that would follow the greatest one. -/
def units (f : Format) (field : Nat) : Nat :=
  f.significand field * Nat.pow 2 (f.shift field)

/-- The field of the number nearest to `num / den`; of two equally near ones the one with an even
significand. A quotient beyond the greatest number by half a step or more gives infinity. -/
def nearest (f : Format) (num den : Nat) : Nat :=
  let scaled := num * Nat.pow 2 f.scale
  let shift := (scaled / den).log2 - f.fraction
  min (shift * Nat.pow 2 f.fraction + roundHalfEven scaled (den * Nat.pow 2 shift)) f.infinity

end Format
end HybridSearch.Number
