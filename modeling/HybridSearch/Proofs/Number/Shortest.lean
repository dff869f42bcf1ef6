import HybridSearch.Number.Shortest
import HybridSearch.Proofs.Number.Nearest
import Mathlib.Algebra.Order.Field.Power
import Mathlib.Tactic.NormNum

/-!
# Shortest decimals are read back

The decimal that stands for a number lies among the reals that are rounded to it. The interval that
the search goes by is the one between the midpoints to both neighbours, and on a grid of 17 digits
one of the two points around the number lies inside.

* `Interval.isNearest_of_contains`: what lies in the interval of a field is rounded to it.
* `Interval.decade_le`: the decade is not too high.
* `Interval.exists_onGrid?`: on a fine grid a point lies in the interval.
* `isNearest_shortest`: the shortest decimal is rounded to its number.
-/
namespace HybridSearch.Number

/-! ## Between the midpoints -/

namespace Format

variable {f : Format} {v : ℚ} {field other : Nat}

theorem prefers_of_lt (hlt : other < field)
    (h : f.value other + f.value field < 2 * v ∨
      f.value other + f.value field = 2 * v ∧ Even field) : f.Prefers v field other := by
  have hvalue := f.value_strictMono hlt
  have hfar : 0 ≤ v - f.value other := by
    rcases h with h | ⟨h, -⟩ <;> linarith
  rw [Prefers, abs_of_nonneg hfar]
  rcases h with h | ⟨h, heven⟩
  · left
    rw [abs_sub_lt_iff]
    constructor <;> linarith
  · right
    refine ⟨?_, heven⟩
    rw [abs_of_nonpos (by linarith)]
    linarith

theorem prefers_of_gt (hlt : field < other)
    (h : 2 * v < f.value field + f.value other ∨
      2 * v = f.value field + f.value other ∧ Even field) : f.Prefers v field other := by
  have hvalue := f.value_strictMono hlt
  have hfar : v - f.value other ≤ 0 := by
    rcases h with h | ⟨h, -⟩ <;> linarith
  rw [Prefers, abs_of_nonpos hfar]
  rcases h with h | ⟨h, heven⟩
  · left
    rw [abs_sub_lt_iff]
    constructor <;> linarith
  · right
    refine ⟨?_, heven⟩
    rw [abs_of_nonneg (by linarith)]
    linarith

/-- A number between the midpoints to both neighbours of a field is rounded to it, and one of the
midpoints themselves if the field is even. -/
theorem isNearest_of_between (hle : field + 1 ≤ f.infinity)
    (hlow : f.value field + f.value (field + 1) < 2 * v ∨
      f.value field + f.value (field + 1) = 2 * v ∧ Even (field + 1))
    (hhigh : 2 * v < f.value (field + 1) + f.value (field + 2) ∨
      2 * v = f.value (field + 1) + f.value (field + 2) ∧ Even (field + 1)) :
    f.IsNearest v (field + 1) := by
  refine ⟨hle, fun other _ hother => ?_⟩
  rcases Nat.lt_or_gt_of_ne hother with hbelow | habove
  · refine prefers_of_lt hbelow ?_
    rcases Nat.lt_or_eq_of_le (Nat.le_of_lt_succ hbelow) with hlt | rfl
    · have hvalue := f.value_strictMono hlt
      left
      rcases hlow with h | ⟨h, -⟩ <;> linarith
    · exact hlow
  · refine prefers_of_gt habove ?_
    rcases Nat.lt_or_eq_of_le (Nat.succ_le_of_lt habove) with hlt | rfl
    · have hvalue := f.value_strictMono hlt
      left
      rcases hhigh with h | ⟨h, -⟩ <;> linarith
    · exact hhigh

end Format

/-! ## The interval of a field -/

namespace Interval

/-- A number lies in an interval. -/
def Contains (i : Interval) (v : ℚ) : Prop :=
  if i.closed then i.low ≤ v * i.den ∧ v * i.den ≤ i.high
  else i.low < v * i.den ∧ v * i.den < i.high

theorem holds_iff {i : Interval} {n scale : Nat} (hden : 0 < i.den) (hscale : 0 < scale) :
    i.holds n scale = true ↔ i.Contains (n / (scale * i.den : Nat)) := by
  have hcast : (0 : ℚ) < scale := by exact_mod_cast hscale
  have hcast' : (i.den : ℚ) ≠ 0 := by exact_mod_cast hden.ne'
  have hquotient : (n / (scale * i.den : Nat) : ℚ) * i.den = n / scale := by
    push_cast
    field_simp
  rw [holds, Contains, hquotient, le_div_iff₀ hcast, div_le_iff₀ hcast, lt_div_iff₀ hcast,
    div_lt_iff₀ hcast]
  cases i.closed with
  | true =>
    simp only [if_true, Bool.and_eq_true, decide_eq_true_eq]
    exact_mod_cast Iff.rfl
  | false =>
    simp only [Bool.false_eq_true, if_false, Bool.and_eq_true, decide_eq_true_eq]
    exact_mod_cast Iff.rfl

end Interval

namespace Format

variable {f : Format} {field : Nat}

theorem even_significand_iff (hf : 0 < f.fraction) :
    f.significand field % 2 = 0 ↔ Even field := by
  obtain ⟨hfield, -, -⟩ := f.significand_bounds field
  have heven : Even (f.shift field * 2 ^ f.fraction) :=
    (Nat.even_pow.mpr ⟨even_two, hf.ne'⟩).mul_left _
  rw [← Nat.even_iff]
  conv_rhs => rw [← hfield, Nat.even_add]
  simp [heven]

/-- The step from a field to the next one, said of the next one. It is half as great as the step
behind that one if a new shift begins there. -/
theorem two_pow_shift (f : Format) (field : Nat) : 2 * 2 ^ f.shift field =
    if f.significand (field + 1) = 2 ^ f.fraction ∧ f.shift (field + 1) ≠ 0 then
      2 ^ f.shift (field + 1) else 2 * 2 ^ f.shift (field + 1) := by
  have hpow : 0 < 2 ^ f.fraction := Nat.two_pow_pos _
  obtain ⟨hfield, hlt, hnormal⟩ := f.significand_bounds field
  rcases Nat.lt_or_eq_of_le (Nat.succ_le_of_lt hlt) with hnext | hnext
  · obtain ⟨hshift, hsignificand⟩ :=
      f.parts_of_lt hnext (hnormal.imp_right fun h => Nat.le_succ_of_le h)
    rw [Nat.succ_eq_add_one, ← Nat.add_assoc, hfield] at hshift hsignificand
    rw [hshift, hsignificand, if_neg]
    omega
  · have hsum : field + 1 = (f.shift field + 1) * 2 ^ f.fraction + 2 ^ f.fraction := by
      rw [Nat.add_mul]
      omega
    obtain ⟨hshift, hsignificand⟩ : f.shift _ = f.shift field + 1 ∧ f.significand _ = _ :=
      f.parts_of_lt (show 2 ^ f.fraction < 2 * 2 ^ f.fraction by omega) (.inr le_rfl)
    rw [hsum, hshift, hsignificand, if_pos ⟨rfl, Nat.succ_ne_zero _⟩, Nat.pow_succ, Nat.mul_comm]

end Format

namespace Interval

variable {f : Format} {field : Nat}

theorem den_ofField (f : Format) (field : Nat) : (ofField f field).den = 2 ^ (f.scale + 2) :=
  rfl

theorem middle_ofField (f : Format) (field : Nat) :
    (ofField f field).middle = 4 * f.units field := by
  rw [ofField, Format.units, Nat.mul_assoc]

theorem high_ofField (f : Format) (field : Nat) :
    (ofField f field).high = 2 * (f.units field + f.units (field + 1)) := by
  have hmiddle := middle_ofField f field
  have hhigh : (ofField f field).high = (ofField f field).middle + 2 * 2 ^ f.shift field := rfl
  rw [hhigh, hmiddle, f.units_succ field]
  ring

theorem low_ofField (f : Format) (field : Nat) :
    (ofField f (field + 1)).low = 2 * (f.units field + f.units (field + 1)) := by
  have hmiddle := middle_ofField f (field + 1)
  have hlow : (ofField f (field + 1)).low =
      (ofField f (field + 1)).middle - 2 * 2 ^ f.shift field := by
    rw [f.two_pow_shift]
    rfl
  rw [hlow, hmiddle, f.units_succ field]
  omega

theorem low_lt_middle (f : Format) (field : Nat) :
    (ofField f (field + 1)).low < (ofField f (field + 1)).middle := by
  have hunits := f.units_strictMono (Nat.lt_add_one field)
  rw [low_ofField, middle_ofField]
  omega

theorem middle_lt_high (f : Format) (field : Nat) :
    (ofField f field).middle < (ofField f field).high := by
  have hunits := f.units_strictMono (Nat.lt_add_one field)
  rw [high_ofField, middle_ofField]
  omega

/-- What lies in the interval of a field is rounded to it. -/
theorem isNearest_of_contains (hf : 0 < f.fraction) (hle : field + 1 ≤ f.infinity) {v : ℚ}
    (h : (ofField f (field + 1)).Contains v) : f.IsNearest v (field + 1) := by
  have hclosed : (ofField f (field + 1)).closed = (f.significand (field + 1) % 2 == 0) := rfl
  have hunits : ∀ n, (f.units n : ℚ) = f.value n * 2 ^ f.scale := by
    intro n
    rw [Format.value, div_mul_cancel₀ _ (by positivity)]
  have hpow : (0 : ℚ) < 2 ^ f.scale := by positivity
  have hscaled : v * (2 ^ (f.scale + 2) : Nat) = 2 ^ f.scale * (4 * v) := by
    push_cast
    rw [pow_add]
    ring
  have hsum : ∀ a b, ((2 * (f.units a + f.units b) : Nat) : ℚ) =
      2 ^ f.scale * (2 * (f.value a + f.value b)) := by
    intro a b
    push_cast
    rw [hunits, hunits]
    ring
  rw [Contains, hclosed, den_ofField, low_ofField, high_ofField, hscaled, hsum, hsum,
    mul_le_mul_iff_right₀ hpow, mul_le_mul_iff_right₀ hpow, mul_lt_mul_iff_right₀ hpow,
    mul_lt_mul_iff_right₀ hpow] at h
  split at h
  · rename_i heven
    have heven := (f.even_significand_iff hf).mp (beq_iff_eq.mp heven)
    obtain ⟨hlow, hhigh⟩ := h
    refine f.isNearest_of_between hle ?_ ?_
    · rcases lt_or_eq_of_le hlow with hlt | heq
      · exact .inl (by linarith)
      · exact .inr ⟨by linarith, heven⟩
    · rcases lt_or_eq_of_le hhigh with hlt | heq
      · exact .inl (by linarith)
      · exact .inr ⟨by linarith, heven⟩
  · obtain ⟨hlow, hhigh⟩ := h
    exact f.isNearest_of_between hle (.inl (by linarith)) (.inl (by linarith))

end Interval

/-! ## Decades -/

/-- The number that a decimal stands for. -/
def Decimal.value (d : Decimal) : ℚ :=
  d.coefficient * 10 ^ d.exponent

theorem ten_zpow_eq_div (e : Int) :
    (10 : ℚ) ^ e = (10 ^ e.toNat : Nat) / (10 ^ (-e).toNat : Nat) := by
  push_cast
  rcases le_total 0 e with h | h
  · obtain ⟨n, rfl⟩ := Int.eq_ofNat_of_zero_le h
    simp
  · obtain ⟨n, hn⟩ := Int.exists_eq_neg_ofNat h
    subst hn
    simp

/-- Powers of ten are compared with powers of two along one comparison of large ones. -/
theorem ten_zpow_le {e n : Int} {a b : Nat} (ha : a ≠ 0)
    (h : ((10 : ℚ) ^ a) ^ e ≤ ((2 : ℚ) ^ b) ^ e) (hexponent : b * e ≤ a * n) :
    (10 : ℚ) ^ e ≤ 2 ^ n := by
  have hpower : ((10 : ℚ) ^ e) ^ a ≤ ((2 : ℚ) ^ n) ^ a := by
    calc ((10 : ℚ) ^ e) ^ a = ((10 : ℚ) ^ a) ^ e := by
          rw [← zpow_natCast, ← zpow_natCast, zpow_comm]
      _ ≤ ((2 : ℚ) ^ b) ^ e := h
      _ = (2 : ℚ) ^ ((b : Int) * e) := by rw [← zpow_natCast, zpow_mul]
      _ ≤ (2 : ℚ) ^ ((a : Int) * n) := zpow_le_zpow_right₀ one_le_two hexponent
      _ = ((2 : ℚ) ^ n) ^ a := by rw [mul_comm, zpow_mul, zpow_natCast]
  exact (pow_le_pow_iff_left₀ (by positivity) (by positivity) ha).mp hpower

/-- The decimal logarithm of 2 is a little less than the factor of the estimate, which is made good
by one binary place as long as the exponents are small. -/
theorem ten_zpow_estimate_le {places : Int} (hlow : -5000 ≤ places) (hhigh : places ≤ 30000) :
    (10 : ℚ) ^ (places * 30103 / 100000) ≤ 2 ^ (places + 1) := by
  have hdiv : places * 30103 / 100000 * 100000 ≤ places * 30103 :=
    Int.ediv_mul_le _ (by decide)
  generalize places * 30103 / 100000 = e at *
  rcases le_total 0 e with hsign | hsign
  · have hlarge : ((10 : ℚ) ^ 59) ^ e ≤ ((2 : ℚ) ^ 196) ^ e :=
      zpow_le_zpow_left₀ hsign (by positivity) (by norm_num)
    exact ten_zpow_le (by decide) hlarge (by omega)
  · have hlarge : ((10 : ℚ) ^ 28) ^ e ≤ ((2 : ℚ) ^ 93) ^ e := by
      rw [← neg_neg e, zpow_neg, zpow_neg _ (-e)]
      refine inv_anti₀ (by positivity) ?_
      exact zpow_le_zpow_left₀ (neg_nonneg.mpr hsign) (by positivity) (by norm_num)
    exact ten_zpow_le (by decide) hlarge (by omega)

namespace Interval

variable {i : Interval}

/-- The decade by the binary logarithms alone. -/
def estimate (i : Interval) : Int :=
  ((i.middle.log2 : Int) - i.den.log2 - 1) * 30103 / 100000

/-- Whether a decade is not above the middle, on integers. -/
def Reaches (i : Interval) (e : Int) : Prop :=
  if 0 ≤ e then i.den * Nat.pow 10 e.toNat ≤ i.middle
  else i.den ≤ i.middle * Nat.pow 10 (-e).toNat

instance (i : Interval) (e : Int) : Decidable (i.Reaches e) :=
  inferInstanceAs (Decidable (ite _ _ _))

theorem decade_eq (i : Interval) :
    i.decade = if i.Reaches (i.estimate + 1) then i.estimate + 1 else i.estimate :=
  rfl

theorem reaches_iff (hden : 0 < i.den) {e : Int} :
    i.Reaches e ↔ (10 : ℚ) ^ e ≤ i.middle / i.den := by
  have hcast : (0 : ℚ) < i.den := by exact_mod_cast hden
  rw [ten_zpow_eq_div, div_le_div_iff₀ (by positivity) hcast, Reaches]
  split
  · rename_i hsign
    rw [Int.toNat_of_nonpos (show -e ≤ 0 by omega), Nat.pow_zero, Nat.cast_one, mul_one, mul_comm]
    exact_mod_cast Iff.rfl
  · rename_i hsign
    rw [Int.toNat_of_nonpos (show e ≤ 0 by omega), Nat.pow_zero, Nat.cast_one, one_mul]
    exact_mod_cast Iff.rfl

/-- The decade is not above the middle. -/
theorem decade_le {places : Nat} (hden : i.den = 2 ^ places) (hmiddle : i.middle ≠ 0)
    (hlow : places ≤ 4000) (hhigh : i.middle.log2 < 30000) :
    (10 : ℚ) ^ i.decade ≤ i.middle / i.den := by
  have hpos : 0 < i.den := hden ▸ Nat.two_pow_pos places
  rw [decade_eq]
  split
  · rename_i hreaches
    exact (reaches_iff hpos).mp hreaches
  · have hestimate : i.estimate = ((i.middle.log2 : Int) - places - 1) * 30103 / 100000 := by
      rw [estimate, hden, Nat.log2_two_pow]
    have hself : (2 : ℚ) ^ i.middle.log2 ≤ i.middle := by
      exact_mod_cast Nat.log2_self_le hmiddle
    calc (10 : ℚ) ^ i.estimate
        = 10 ^ (((i.middle.log2 : Int) - places - 1) * 30103 / 100000) := by rw [hestimate]
      _ ≤ 2 ^ ((i.middle.log2 : Int) - places - 1 + 1) :=
          ten_zpow_estimate_le (by omega) (by omega)
      _ = 2 ^ i.middle.log2 / (2 ^ places : Nat) := by
          rw [sub_add_cancel, zpow_sub₀ two_ne_zero, zpow_natCast, zpow_natCast]
          push_cast
          rfl
      _ ≤ i.middle / i.den := by
          rw [hden]
          exact div_le_div_of_nonneg_right hself (by positivity)

/-! ## Grids -/

theorem contains_of_lt {v : ℚ} (hlow : i.low < v * i.den) (hhigh : v * i.den < i.high) :
    i.Contains v := by
  rw [Contains]
  split
  · exact ⟨hlow.le, hhigh.le⟩
  · exact ⟨hlow, hhigh⟩

section Grid

variable {e : Int}

theorem holds_grid_iff (hden : 0 < i.den) (n : Nat) :
    i.holds (n * (i.den * Nat.pow 10 e.toNat)) (Nat.pow 10 (-e).toNat) = true ↔
      i.Contains (n * 10 ^ e) := by
  have hcast : (i.den : ℚ) ≠ 0 := by exact_mod_cast hden.ne'
  have hpoint : ((n * (i.den * Nat.pow 10 e.toNat) : Nat) : ℚ) /
      (Nat.pow 10 (-e).toNat * i.den : Nat) = n * 10 ^ e := by
    rw [ten_zpow_eq_div, Nat.pow_eq, Nat.pow_eq]
    push_cast
    field_simp
  have hscale : 0 < Nat.pow 10 (-e).toNat := Nat.pow_pos (by decide)
  rw [holds_iff hden hscale, hpoint]

/-- The middle lies between a point of the grid and the next one. -/
theorem floor_bounds (hden : 0 < i.den) {floor : Nat}
    (hfloor : floor = i.middle * Nat.pow 10 (-e).toNat / (i.den * Nat.pow 10 e.toNat)) :
    (floor * 10 ^ e : ℚ) * i.den ≤ i.middle ∧
      i.middle < ((floor + 1 : Nat) * 10 ^ e : ℚ) * i.den := by
  have hstep : 0 < i.den * Nat.pow 10 e.toNat := Nat.mul_pos hden (Nat.pow_pos (by decide))
  have hscale : (0 : ℚ) < (10 ^ (-e).toNat : Nat) := by positivity
  have hpoint : ∀ n : Nat, (n * 10 ^ e : ℚ) * i.den =
      (n * (i.den * Nat.pow 10 e.toNat) : Nat) / (10 ^ (-e).toNat : Nat) := by
    intro n
    rw [ten_zpow_eq_div, Nat.pow_eq]
    push_cast
    ring
  rw [hpoint, hpoint, div_le_iff₀ hscale, lt_div_iff₀ hscale, hfloor]
  constructor
  · exact_mod_cast Nat.div_mul_le_self _ _
  · rw [Nat.mul_comm (_ + 1)]
    exact_mod_cast Nat.lt_mul_div_succ _ hstep

/-- A point around the middle is taken from the grid if it lies in the interval, and if neither of
the two does, none is taken. -/
theorem onGrid?_spec (i : Interval) (tie : Tie) (e : Int) :
    let floor := i.middle * Nat.pow 10 (-e).toNat / (i.den * Nat.pow 10 e.toNat)
    let holds := fun n => i.holds (n * (i.den * Nat.pow 10 e.toNat)) (Nat.pow 10 (-e).toNat)
    (i.onGrid? tie e = none ∧ holds floor = false ∧ holds (floor + 1) = false) ∨
      ∃ n, i.onGrid? tie e = some ⟨n, e⟩ ∧ holds n = true := by
  intro floor holds
  rw [onGrid?.eq_def]
  dsimp only
  split
  · rename_i hbelow habove
    exact .inl ⟨rfl, hbelow, habove⟩
  · rename_i hbelow _
    exact .inr ⟨floor, rfl, hbelow⟩
  · rename_i _ habove
    exact .inr ⟨floor + 1, rfl, habove⟩
  · rename_i hbelow habove
    have heither : ∀ upper : Bool, holds (if upper then floor + 1 else floor) = true := by
      rintro (_ | _)
      · exact hbelow
      · exact habove
    exact .inr ⟨_, rfl, heither _⟩

theorem contains_of_onGrid? (hden : 0 < i.den) {tie : Tie} {d : Decimal}
    (h : i.onGrid? tie e = some d) : i.Contains d.value := by
  rcases i.onGrid?_spec tie e with ⟨hnone, -⟩ | ⟨n, hn, hholds⟩
  · cases hnone.symm.trans h
  · obtain rfl := Option.some.inj (hn.symm.trans h)
    exact (holds_grid_iff hden n).mp hholds

/-- If the grid is finer than the interval, one of the two points around the middle lies inside. -/
theorem exists_onGrid? (hden : 0 < i.den) (tie : Tie) (hlow : i.low < i.middle)
    (hhigh : i.middle < i.high) (hfine : (10 : ℚ) ^ e * i.den < i.high - i.low) :
    ∃ d, i.onGrid? tie e = some d := by
  obtain ⟨hfloor, hnext⟩ := floor_bounds (e := e) hden rfl
  have hlow : (i.low : ℚ) < i.middle := by exact_mod_cast hlow
  have hhigh : (i.middle : ℚ) < i.high := by exact_mod_cast hhigh
  push_cast at hnext
  rcases i.onGrid?_spec tie e with ⟨-, hbelow, habove⟩ | ⟨n, hn, -⟩
  · rw [← Bool.not_eq_true, holds_grid_iff hden] at hbelow habove
    push_cast at habove
    rcases lt_or_ge (i.low : ℚ) _ with hinside | houtside
    · exact absurd (contains_of_lt hinside (hfloor.trans_lt hhigh)) hbelow
    · exact absurd (contains_of_lt (by linarith) (by linarith)) habove
  · exact ⟨_, hn⟩

end Grid

end Interval

/-! ## Shortest decimals -/

/-- The interval of a number in 64 bits is wide beside the last of 17 digits. It is narrowest in
front of a new shift, where the significand is least. -/
theorem Interval.middle_lt (field : Nat) :
    (ofField Format.double (field + 1)).middle + 10 ^ 16 * (ofField Format.double (field + 1)).low <
      10 ^ 16 * (ofField Format.double (field + 1)).high := by
  obtain ⟨-, hsignificand, -⟩ := Format.double.significand_bounds (field + 1)
  have hbelow := Format.double.units_succ field
  have habove := Format.double.units_succ (field + 1)
  have hshift := Format.double.two_pow_shift field
  have hunits : Format.double.units (field + 1) =
      Format.double.significand (field + 1) * 2 ^ Format.double.shift (field + 1) := rfl
  rw [middle_ofField, high_ofField, low_ofField]
  generalize Format.double.units field = below at *
  generalize Format.double.units (field + 1 + 1) = above at *
  generalize Format.double.units (field + 1) = middle at *
  generalize Format.double.significand (field + 1) = significand at *
  have hstep : 0 < 2 ^ Format.double.shift (field + 1) := Nat.two_pow_pos _
  generalize 2 ^ Format.double.shift (field + 1) = step at *
  generalize 2 ^ Format.double.shift field = step' at *
  have hfraction : 2 ^ Format.double.fraction = 2 ^ 52 := rfl
  rw [hfraction] at hsignificand hshift
  split at hshift
  · rename_i hboundary
    rw [hboundary.1] at hunits
    omega
  · have hmiddle : middle ≤ 2 ^ 53 * step := by
      rw [hunits]
      exact Nat.mul_le_mul_right step (by omega)
    omega

theorem Decimal.value_trimZeros (fuel : Nat) (d : Decimal) :
    (d.trimZeros fuel).value = d.value := by
  induction fuel generalizing d with
  | zero => rfl
  | succ fuel ih =>
    rw [trimZeros]
    split
    · rename_i hzero
      rw [ih, value, value]
      have hdigit : (d.coefficient : ℚ) = (d.coefficient / 10 : Nat) * 10 := by
        exact_mod_cast (Nat.div_mul_cancel (Nat.dvd_of_mod_eq_zero hzero.2)).symm
      rw [hdigit, zpow_add_one₀ (by decide)]
      dsimp only
      ring
    · rfl

theorem Interval.log2_middle_lt {field : Nat} (hfield : field < Format.double.infinity) :
    (ofField Format.double field).middle.log2 < 30000 := by
  obtain ⟨-, hsignificand, -⟩ := Format.double.significand_bounds field
  have hshift : Format.double.shift field < 2047 := by
    have hquotient : field / 2 ^ 52 < 2047 := Nat.div_lt_of_lt_mul (Nat.mul_comm _ _ ▸ hfield)
    exact Nat.lt_of_le_of_lt (Nat.sub_le _ 1) hquotient
  have hlt : (ofField Format.double field).middle < 2 ^ (55 + Format.double.shift field) := by
    have hmiddle : (ofField Format.double field).middle =
        4 * Format.double.significand field * 2 ^ Format.double.shift field := rfl
    rw [hmiddle, Nat.pow_add]
    refine Nat.mul_lt_mul_of_pos_right ?_ (Nat.two_pow_pos _)
    have hfraction : 2 ^ Format.double.fraction = 2 ^ 52 := rfl
    omega
  rcases Nat.eq_zero_or_pos (ofField Format.double field).middle with hzero | hpos
  · rw [hzero]
    decide
  · have hlog := (Nat.log2_lt hpos.ne').mpr hlt
    omega

/-- A point is found with 17 digits at the latest if the interval is wide beside them. -/
theorem Interval.exists_found {i : Interval} (hden : 0 < i.den) (hlow : i.low < i.middle)
    (hhigh : i.middle < i.high) (hwide : i.middle + 10 ^ 16 * i.low < 10 ^ 16 * i.high)
    (hdecade : (10 : ℚ) ^ i.decade ≤ i.middle / i.den) (tie : Tie) :
    ∃ d, (List.range 17).findSome? (fun (digits : Nat) => i.onGrid? tie (i.decade - digits)) =
      some d ∧ i.Contains d.value := by
  have hfine : (10 : ℚ) ^ (i.decade - (16 : Nat)) * i.den < i.high - i.low := by
    have hcast : (0 : ℚ) < i.den := by exact_mod_cast hden
    have hmiddle := (le_div_iff₀ hcast).mp hdecade
    have hwide : (i.middle + 10 ^ 16 * i.low : ℚ) < 10 ^ 16 * i.high := by exact_mod_cast hwide
    rw [zpow_sub₀ (by decide), zpow_natCast, div_mul_eq_mul_div, div_lt_iff₀ (by positivity)]
    linarith
  obtain ⟨last, hlast⟩ := exists_onGrid? hden tie hlow hhigh hfine
  cases hfound : (List.range 17).findSome? fun (digits : Nat) =>
      i.onGrid? tie (i.decade - digits) with
  | none =>
    rw [List.findSome?_eq_none_iff.mp hfound 16 (by decide)] at hlast
    cases hlast
  | some d =>
    obtain ⟨digits, -, hgrid⟩ := List.exists_of_findSome?_eq_some hfound
    exact ⟨d, rfl, contains_of_onGrid? hden hgrid⟩

theorem contains_shortest (tie : Tie) {field : Nat} (hfield : field + 1 < Format.double.infinity) :
    (Interval.ofField Format.double (field + 1)).Contains (shortest tie (field + 1)).value := by
  have hden := Interval.den_ofField Format.double (field + 1)
  have hpos : 0 < (Interval.ofField Format.double (field + 1)).den := hden ▸ Nat.two_pow_pos _
  have hlow := Interval.low_lt_middle Format.double field
  have hdecade := Interval.decade_le hden (Nat.ne_zero_of_lt hlow) (by decide)
    (Interval.log2_middle_lt hfield)
  obtain ⟨d, hfound, hd⟩ := Interval.exists_found hpos hlow
    (Interval.middle_lt_high Format.double (field + 1)) (Interval.middle_lt field) hdecade tie
  rw [shortest, Decimal.value_trimZeros, hfound]
  exact hd

/-- The shortest decimal of a number is rounded to that number. -/
theorem isNearest_shortest (tie : Tie) {field : Nat}
    (hfield : field + 1 < Format.double.infinity) :
    Format.double.IsNearest (shortest tie (field + 1)).value (field + 1) :=
  Interval.isNearest_of_contains (by decide) hfield.le (contains_shortest tie hfield)

end HybridSearch.Number
