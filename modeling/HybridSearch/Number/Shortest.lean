import HybridSearch.Number.Binary64

/-!
# Shortest decimals

The decimal with the fewest digits among those that are read back as a given number, and of several
such decimals the nearest one. All comparisons are made on exact integers: the number is
`num / den`, and the reals that are read back as it form an interval around it.
-/
namespace HybridSearch.Number

/-- The number `coefficient * 10 ^ exponent`. -/
structure Decimal where
  coefficient : Nat
  exponent : Int
  deriving DecidableEq, Repr

inductive Tie where
  | up
  | even
  deriving DecidableEq, Repr

/-- The reals that are read back as a number, as fractions over a common denominator. -/
structure Interval where
  den : Nat
  low : Nat
  middle : Nat
  high : Nat
  closed : Bool

namespace Interval

/-- The interval of a finite number that is not zero. Below a power of two the numbers lie twice as
close, so the lower end is half as far away there. -/
def ofField (f : Format) (field : Nat) : Interval :=
  let significand := f.significand field
  let step := Nat.pow 2 (f.shift field)
  let below := if significand = Nat.pow 2 f.fraction ∧ f.shift field ≠ 0 then step else 2 * step
  { den := Nat.pow 2 (f.scale + 2)
    low := 4 * significand * step - below
    middle := 4 * significand * step
    high := 4 * significand * step + 2 * step
    closed := significand % 2 == 0 }

/-- Whether `n / scale` lies in the interval, all over its denominator. -/
def holds (i : Interval) (n scale : Nat) : Bool :=
  if i.closed then i.low * scale ≤ n && n ≤ i.high * scale
  else i.low * scale < n && n < i.high * scale

/-- The greatest `e` with `10 ^ e ≤ middle / den`. It is estimated from the binary logarithms, which
is one too low at most. -/
def decade (i : Interval) : Int :=
  let estimate := ((i.middle.log2 : Int) - i.den.log2 - 1) * 30103 / 100000
  let next := estimate + 1
  let reached :=
    if 0 ≤ next then i.den * Nat.pow 10 next.toNat ≤ i.middle
    else i.den ≤ i.middle * Nat.pow 10 (-next).toNat
  if reached then next else estimate

/-- The better of the two neighbours of the middle on the grid of multiples of `10 ^ exponent`, if
one of them lies in the interval. -/
def onGrid? (i : Interval) (tie : Tie) (exponent : Int) : Option Decimal :=
  let step := i.den * Nat.pow 10 exponent.toNat
  let scale := Nat.pow 10 (-exponent).toNat
  let floor := i.middle * scale / step
  let rest := 2 * (i.middle * scale % step)
  let takeUpper :=
    match i.holds (floor * step) scale, i.holds ((floor + 1) * step) scale with
    | false, false => none
    | true, false => some false
    | false, true => some true
    | true, true =>
      some <| step < rest || (rest == step &&
        match tie with
        | .up => true
        | .even => floor % 2 == 1)
  takeUpper.map fun upper => ⟨if upper then floor + 1 else floor, exponent⟩

end Interval

/-- The decimal without zeros at the end of its coefficient; `fuel` bounds their number. -/
def Decimal.trimZeros : (fuel : Nat) → Decimal → Decimal
  | 0, d => d
  | fuel + 1, d =>
    if d.coefficient ≠ 0 ∧ d.coefficient % 10 = 0 then
      trimZeros fuel ⟨d.coefficient / 10, d.exponent + 1⟩
    else d

/-- The shortest decimal of a finite number that is not zero, by its field. With 17 digits a
neighbour always lies in the interval. -/
def shortest (tie : Tie) (field : Nat) : Decimal :=
  let interval := Interval.ofField Format.double field
  let decade := interval.decade
  let found := (List.range 17).findSome? fun (digits : Nat) =>
    interval.onGrid? tie (decade - digits)
  (found.getD ⟨0, 0⟩).trimZeros 18

end HybridSearch.Number
