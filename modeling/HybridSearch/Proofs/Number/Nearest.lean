import HybridSearch.Number.Rounding
import Mathlib.Algebra.Order.Field.Rat
import Mathlib.Data.Nat.Cast.Order.Field
import Mathlib.Tactic.FieldSimp
import Mathlib.Tactic.Linarith
import Mathlib.Tactic.Positivity
import Mathlib.Tactic.Ring

/-!
# The nearest number of a format

`Format.nearest` scales, counts bits and rounds once. What it comes to is said here without any of
that: no other field stands for a number as near to the quotient, but that of two equally near ones
the even field is taken.

* `Format.value`: the number behind a field.
* `Format.IsNearest`: the field of the number nearest to a rational.
* `Format.value_strictMono`: fields are in the order of the numbers they stand for.
* `Format.nearest_eq_iff`: `nearest` gives that field, and no other field is one.
-/
namespace HybridSearch.Number

/-! ## Rounding to an integer -/

section RoundHalfEven

variable {num den : Nat}

/-- The rounded integer is at most half a step away, and half a step only if it is even. -/
theorem abs_sub_roundHalfEven (num : Nat) (hden : 0 < den) :
    |(num / den : ℚ) - roundHalfEven num den| < 1 / 2 ∨
      |(num / den : ℚ) - roundHalfEven num den| = 1 / 2 ∧ Even (roundHalfEven num den) := by
  have hpos : (0 : ℚ) < den := by exact_mod_cast hden
  have hsplit : (num / den : ℚ) = (num / den : Nat) + (num % den : Nat) / den := by
    have hnum : (num : ℚ) = den * (num / den : Nat) + (num % den : Nat) := by
      exact_mod_cast (Nat.div_add_mod num den).symm
    rw [hnum]
    field_simp
  have hrest : (num % den : Nat) / (den : ℚ) < 1 := by
    rw [div_lt_one hpos]
    exact_mod_cast Nat.mod_lt num hden
  have hnonneg : 0 ≤ (num % den : Nat) / (den : ℚ) := by positivity
  have hhalf : ∀ {n : Nat}, (n : ℚ) / den < 1 / 2 ↔ 2 * n < den := by
    intro n
    rw [div_lt_div_iff₀ hpos two_pos, one_mul, mul_comm]
    exact_mod_cast Iff.rfl
  have htie : ∀ {n : Nat}, (n : ℚ) / den = 1 / 2 ↔ 2 * n = den := by
    intro n
    rw [div_eq_div_iff hpos.ne' two_ne_zero, one_mul, mul_comm]
    exact_mod_cast Iff.rfl
  rw [hsplit]
  generalize hfloor : num / den = floor at *
  generalize hmod : num % den = rest at *
  rw [roundHalfEven, hfloor, hmod]
  rcases Nat.lt_trichotomy (2 * rest) den with hbelow | hequal | habove
  · -- The floor is nearer.
    left
    rw [if_neg (by simp; omega), add_sub_cancel_left, abs_of_nonneg hnonneg]
    exact hhalf.mpr hbelow
  · right
    have hrat := htie.mpr hequal
    by_cases hodd : floor % 2 = 1
    · rw [if_pos (by simp [hequal, hodd]), hrat]
      refine ⟨?_, Nat.even_iff.mpr (by omega)⟩
      push_cast
      rw [show (floor : ℚ) + 1 / 2 - (floor + 1) = -(1 / 2) by ring, abs_neg]
      exact abs_of_pos one_half_pos
    · rw [if_neg (by simp [hequal, hodd]), hrat, add_sub_cancel_left]
      exact ⟨abs_of_pos one_half_pos, Nat.even_iff.mpr (by omega)⟩
  · left
    have hmore : ¬(rest : ℚ) / den ≤ 1 / 2 := by
      rw [not_le, lt_div_iff₀ hpos]
      have hcast : (den : ℚ) < 2 * rest := by exact_mod_cast habove
      linarith
    rw [if_pos (by simp [habove])]
    push_cast
    rw [abs_sub_lt_iff]
    constructor <;> linarith

/-- No other integer is as near, but that of two equally near ones the even one is taken. -/
theorem roundHalfEven_nearest (hden : 0 < den) {n : Nat} (hn : n ≠ roundHalfEven num den) :
    |(num / den : ℚ) - roundHalfEven num den| < |(num / den : ℚ) - n| ∨
      |(num / den : ℚ) - roundHalfEven num den| = |(num / den : ℚ) - n| ∧
        Even (roundHalfEven num den) := by
  have hapart : (1 : ℚ) ≤ |(n : ℚ) - roundHalfEven num den| := by
    have hint : (1 : Int) ≤ |(n : Int) - roundHalfEven num den| :=
      Int.one_le_abs (sub_ne_zero.mpr (by exact_mod_cast hn))
    exact_mod_cast hint
  have htriangle := abs_sub_le (n : ℚ) (num / den) (roundHalfEven num den)
  rw [abs_sub_comm (n : ℚ) (num / den)] at htriangle
  rcases abs_sub_roundHalfEven num hden with hlt | ⟨heq, heven⟩
  · left
    linarith
  · rcases lt_or_eq_of_le (show (1 : ℚ) / 2 ≤ |(num / den : ℚ) - n| by linarith) with hlt | hsame
    · exact .inl (heq ▸ hlt)
    · exact .inr ⟨heq.trans hsame, heven⟩

end RoundHalfEven

namespace Format

variable {f : Format}

/-! ## Fields -/

/-- The number behind a field. -/
def value (f : Format) (field : Nat) : ℚ :=
  f.units field / 2 ^ f.scale

theorem value_nonneg (f : Format) (field : Nat) : 0 ≤ f.value field := by
  rw [value]
  positivity

theorem value_zero (f : Format) : f.value 0 = 0 := by
  rw [value, units, significand, Nat.zero_sub, Nat.zero_mul, Nat.cast_zero, zero_div]

/-- The number behind a sign and a field. -/
def signedValue (f : Format) (negative : Bool) (field : Nat) : ℚ :=
  if negative then -f.value field else f.value field

theorem abs_signedValue (f : Format) (negative : Bool) (field : Nat) :
    |f.signedValue negative field| = f.value field := by
  rw [signedValue]
  cases negative with
  | false => exact abs_of_nonneg (f.value_nonneg field)
  | true => rw [if_pos rfl, abs_neg, abs_of_nonneg (f.value_nonneg field)]

theorem one_pos (f : Format) : 0 < Nat.pow 2 f.scale :=
  Nat.two_pow_pos _

theorem value_eq_div (f : Format) (field : Nat) :
    f.value field = f.units field / (Nat.pow 2 f.scale : Nat) := by
  rw [value, Nat.pow_eq, Nat.cast_pow, Nat.cast_two]

/-- A significand and a shift are those of the field that they make up, unless the significand is
small behind a shift, or too great. -/
theorem parts_of_lt {shift significand : Nat} (hlt : significand < 2 * 2 ^ f.fraction)
    (hnormal : shift = 0 ∨ 2 ^ f.fraction ≤ significand) :
    f.shift (shift * 2 ^ f.fraction + significand) = shift ∧
      f.significand (shift * 2 ^ f.fraction + significand) = significand := by
  have hpow : 0 < 2 ^ f.fraction := Nat.two_pow_pos _
  have hshift : f.shift (shift * 2 ^ f.fraction + significand) = shift := by
    rw [Format.shift, Nat.pow_eq, Nat.add_comm, Nat.add_mul_div_right _ _ hpow]
    generalize 2 ^ f.fraction = one at *
    rcases Nat.lt_or_ge significand one with hsmall | hlarge
    · obtain rfl : shift = 0 := by omega
      rw [Nat.div_eq_of_lt hsmall]
    · have hquotient : significand / one = 1 := by
        rw [Nat.div_eq_iff hpow]
        omega
      rw [hquotient, Nat.add_sub_cancel_left]
  refine ⟨hshift, ?_⟩
  rw [Format.significand, hshift, Nat.pow_eq, Nat.add_sub_cancel_left]

/-- A significand and a shift that a number is rounded to: the significand may have become the one
that begins the next shift. -/
structure Fits (f : Format) (shift significand : Nat) : Prop where
  le : significand ≤ 2 * 2 ^ f.fraction
  normal : shift = 0 ∨ 2 ^ f.fraction ≤ significand

theorem units_of_fits {shift significand : Nat} (h : f.Fits shift significand) :
    f.units (shift * 2 ^ f.fraction + significand) = significand * 2 ^ shift := by
  have hpow : 0 < 2 ^ f.fraction := Nat.two_pow_pos _
  rcases Nat.lt_or_eq_of_le h.le with hlt | rfl
  · obtain ⟨hshift, hsignificand⟩ := f.parts_of_lt hlt h.normal
    rw [units, hshift, hsignificand, Nat.pow_eq]
  · have hfield : shift * 2 ^ f.fraction + 2 * 2 ^ f.fraction =
        (shift + 1) * 2 ^ f.fraction + 2 ^ f.fraction := by ring
    obtain ⟨hshift, hsignificand⟩ := f.parts_of_lt
      (show 2 ^ f.fraction < 2 * 2 ^ f.fraction by omega) (.inr le_rfl)
    rw [hfield, units, hshift, hsignificand, Nat.pow_eq, Nat.pow_succ]
    ring

theorem significand_bounds (f : Format) (field : Nat) :
    f.shift field * 2 ^ f.fraction + f.significand field = field ∧
      f.significand field < 2 * 2 ^ f.fraction ∧
      (f.shift field = 0 ∨ 2 ^ f.fraction ≤ f.significand field) := by
  have hpow : 0 < 2 ^ f.fraction := Nat.two_pow_pos _
  rw [Format.significand, Format.shift, Nat.pow_eq]
  generalize 2 ^ f.fraction = one at *
  have hdiv := Nat.div_add_mod field one
  have hmod := Nat.mod_lt field hpow
  rw [Nat.mul_comm] at hdiv
  rcases Nat.eq_zero_or_pos (field / one) with hzero | hpos
  · rw [hzero] at hdiv ⊢
    rw [Nat.zero_sub, Nat.zero_mul]
    omega
  · obtain ⟨shift, hshift⟩ := Nat.exists_eq_succ_of_ne_zero hpos.ne'
    rw [hshift, Nat.succ_mul] at hdiv
    rw [hshift, Nat.succ_sub_one]
    omega

theorem units_succ (f : Format) (field : Nat) :
    f.units (field + 1) = f.units field + 2 ^ f.shift field := by
  obtain ⟨hfield, hlt, hnormal⟩ := f.significand_bounds field
  have hnext : f.Fits (f.shift field) (f.significand field + 1) :=
    ⟨hlt, hnormal.imp_right fun h => Nat.le_succ_of_le h⟩
  have hunits := units_of_fits hnext
  rw [← Nat.add_assoc, hfield] at hunits
  rw [hunits, Nat.add_mul, Nat.one_mul, units, Nat.pow_eq]

theorem units_strictMono (f : Format) : StrictMono f.units := by
  refine strictMono_nat_of_lt_succ fun field => ?_
  rw [units_succ]
  exact Nat.lt_add_of_pos_right (Nat.two_pow_pos _)

theorem value_strictMono (f : Format) : StrictMono f.value := by
  intro a b h
  have hunits : (f.units a : ℚ) < f.units b := by exact_mod_cast f.units_strictMono h
  exact div_lt_div_of_pos_right hunits (by positivity)

/-! ## The nearest field -/

/-- A field is nearer to `v` than another one, or as near and even. A field is even if its
significand is. -/
def Prefers (f : Format) (v : ℚ) (field other : Nat) : Prop :=
  |v - f.value field| < |v - f.value other| ∨
    |v - f.value field| = |v - f.value other| ∧ Even field

theorem Prefers.le {v : ℚ} {field other : Nat} (h : f.Prefers v field other) :
    |v - f.value field| ≤ |v - f.value other| := by
  rcases h with h | ⟨h, -⟩
  · exact h.le
  · exact h.le

/-- The field of the number nearest to `v`, infinity being the number that would follow the greatest
one. -/
structure IsNearest (f : Format) (v : ℚ) (field : Nat) : Prop where
  le : field ≤ f.infinity
  prefers : ∀ other ≤ f.infinity, other ≠ field → f.Prefers v field other

theorem IsNearest.of_eq {v : ℚ} {field : Nat} (hle : field ≤ f.infinity)
    (hv : v = f.value field) : f.IsNearest v field := by
  refine ⟨hle, fun other _ hother => .inl ?_⟩
  rw [hv, sub_self, abs_zero, abs_pos, sub_ne_zero]
  exact fun h => hother (f.value_strictMono.injective h).symm

theorem IsNearest.unique {v : ℚ} {a b : Nat} (ha : f.IsNearest v a) (hb : f.IsNearest v b) :
    a = b := by
  by_contra hne
  wlog hlt : a < b generalizing a b
  · exact this hb ha (Ne.symm hne) (by omega)
  have hfirst := ha.prefers b hb.le (Ne.symm hne)
  have hsecond := hb.prefers a ha.le hne
  have heq : |v - f.value a| = |v - f.value b| := le_antisymm hfirst.le hsecond.le
  have heven : Even a := (hfirst.resolve_left (not_lt.mpr heq.ge)).2
  have heven' : Even b := (hsecond.resolve_left (not_lt.mpr heq.le)).2
  -- Both are even, so there is a field between them, and it is nearer.
  have hmiddle : a + 1 < b := by
    rcases Nat.lt_or_ge (a + 1) b with h | h
    · exact h
    · obtain rfl : b = a + 1 := by omega
      exact absurd heven' (Nat.not_even_iff_odd.mpr heven.add_one)
  have hbetween := (ha.prefers (a + 1) (hmiddle.le.trans hb.le) (Nat.succ_ne_self a)).le
  have hleft : f.value a < f.value (a + 1) := f.value_strictMono (Nat.lt_succ_self a)
  have hright : f.value (a + 1) < f.value b := f.value_strictMono hmiddle
  have hcentre : v = (f.value a + f.value b) / 2 := by
    rcases abs_eq_abs.mp heq with h | h <;> linarith
  rw [abs_of_pos (show 0 < v - f.value a by linarith)] at hbetween
  rcases le_abs'.mp hbetween with h | h <;> linarith

section Nearest

variable {num den : Nat}

/-- The bits of the quotient before the point, less those that a significand has. -/
def excess (f : Format) (num den : Nat) : Nat :=
  (num * 2 ^ f.scale / den).log2 - f.fraction

/-- The quotient in steps of the least bit that is kept. -/
def steps (f : Format) (num den : Nat) : ℚ :=
  (num * 2 ^ f.scale : Nat) / (den * 2 ^ f.excess num den : Nat)

def rounded (f : Format) (num den : Nat) : Nat :=
  roundHalfEven (num * 2 ^ f.scale) (den * 2 ^ f.excess num den)

theorem nearest_eq (num den : Nat) : f.nearest num den =
    min (f.excess num den * 2 ^ f.fraction + f.rounded num den) f.infinity :=
  rfl

theorem steps_lt (num : Nat) (hden : 0 < den) : f.steps num den < 2 * 2 ^ f.fraction := by
  have hstep : (0 : ℚ) < (den * 2 ^ f.excess num den : Nat) := by
    exact_mod_cast Nat.mul_pos hden (Nat.two_pow_pos _)
  have hpow : 2 ^ ((num * 2 ^ f.scale / den).log2 + 1) ≤
      2 ^ (1 + f.fraction + f.excess num den) := by
    apply Nat.pow_le_pow_right two_pos
    rw [excess]
    omega
  have hlt : num * 2 ^ f.scale < 2 * 2 ^ f.fraction * (den * 2 ^ f.excess num den) := by
    calc num * 2 ^ f.scale < 2 ^ (1 + f.fraction + f.excess num den) * den :=
          (Nat.div_lt_iff_lt_mul hden).mp (Nat.lt_log2_self.trans_le hpow)
      _ = 2 * 2 ^ f.fraction * (den * 2 ^ f.excess num den) := by
          rw [Nat.pow_add, Nat.pow_add, Nat.pow_one]
          ring
  rw [steps, div_lt_iff₀ hstep]
  exact_mod_cast hlt

theorem le_steps (hden : 0 < den) (hexcess : f.excess num den ≠ 0) :
    2 ^ f.fraction ≤ f.steps num den := by
  have hstep : (0 : ℚ) < (den * 2 ^ f.excess num den : Nat) := by
    exact_mod_cast Nat.mul_pos hden (Nat.two_pow_pos _)
  have hexponent : f.fraction + f.excess num den = (num * 2 ^ f.scale / den).log2 := by
    rw [excess] at hexcess ⊢
    omega
  have hquotient : num * 2 ^ f.scale / den ≠ 0 := by
    intro h
    rw [excess, h, Nat.log2_zero, Nat.zero_sub] at hexcess
    exact hexcess rfl
  have hpow : 2 ^ (f.fraction + f.excess num den) ≤ num * 2 ^ f.scale / den := by
    rw [hexponent]
    exact Nat.log2_self_le hquotient
  have hle : 2 ^ f.fraction * (den * 2 ^ f.excess num den) ≤ num * 2 ^ f.scale := by
    calc 2 ^ f.fraction * (den * 2 ^ f.excess num den)
        = 2 ^ (f.fraction + f.excess num den) * den := by rw [Nat.pow_add]; ring
      _ ≤ num * 2 ^ f.scale := (Nat.le_div_iff_mul_le hden).mp hpow
  rw [steps, le_div_iff₀ hstep]
  exact_mod_cast hle

theorem fits_rounded (num : Nat) (hden : 0 < den) :
    f.Fits (f.excess num den) (f.rounded num den) := by
  have hhalf : |f.steps num den - f.rounded num den| ≤ 1 / 2 := by
    have hstep : 0 < den * 2 ^ f.excess num den := Nat.mul_pos hden (Nat.two_pow_pos _)
    rcases abs_sub_roundHalfEven (num * 2 ^ f.scale) hstep with h | ⟨h, -⟩
    · exact h.le
    · exact h.le
  obtain ⟨hlow, hhigh⟩ := abs_le.mp hhalf
  constructor
  · have hlt : (f.rounded num den : ℚ) < (2 * 2 ^ f.fraction + 1 : Nat) := by
      push_cast
      linarith [f.steps_lt num hden]
    exact Nat.le_of_lt_succ (by exact_mod_cast hlt)
  · rcases Nat.eq_zero_or_pos (f.excess num den) with hzero | hpos
    · exact .inl hzero
    · have hlt : ((2 ^ f.fraction : Nat) : ℚ) < (f.rounded num den + 1 : Nat) := by
        push_cast
        linarith [f.le_steps hden hpos.ne']
      exact .inr (Nat.le_of_lt_succ (by exact_mod_cast hlt))

/-- Distances in the number are distances in steps, to one scale. -/
theorem abs_sub_value (hden : 0 < den) (field : Nat) : |(num / den : ℚ) - f.value field| =
    |f.steps num den - f.units field / 2 ^ f.excess num den| *
      (2 ^ f.excess num den / 2 ^ f.scale) := by
  have hpos : (den : ℚ) ≠ 0 := by exact_mod_cast hden.ne'
  rw [← abs_of_pos (show (0 : ℚ) < 2 ^ f.excess num den / 2 ^ f.scale by positivity), ← abs_mul,
    steps, value]
  push_cast
  congr 1
  field_simp

/-- A field is a whole number of steps, or lies below every field that may come out. -/
theorem units_div_cases (field shift : Nat) :
    (∃ n : Nat, (f.units field / 2 ^ shift : ℚ) = n) ∨
      shift ≠ 0 ∧ (f.units field / 2 ^ shift : ℚ) < 2 ^ f.fraction := by
  obtain ⟨-, hlt, -⟩ := f.significand_bounds field
  have hpow : (0 : ℚ) < 2 ^ shift := by positivity
  rcases Nat.lt_or_ge (f.shift field) shift with hbelow | habove
  · right
    have hunits : f.units field < 2 ^ f.fraction * 2 ^ shift := by
      calc f.units field < 2 * 2 ^ f.fraction * 2 ^ f.shift field := by
            rw [units, Nat.pow_eq]
            exact Nat.mul_lt_mul_of_pos_right hlt (Nat.two_pow_pos _)
        _ = 2 ^ f.fraction * 2 ^ (f.shift field + 1) := by rw [Nat.pow_succ]; ring
        _ ≤ 2 ^ f.fraction * 2 ^ shift :=
            Nat.mul_le_mul_left _ (Nat.pow_le_pow_right two_pos hbelow)
    rw [div_lt_iff₀ hpow]
    exact ⟨by omega, by exact_mod_cast hunits⟩
  · left
    refine ⟨f.significand field * 2 ^ (f.shift field - shift), ?_⟩
    rw [div_eq_iff hpow.ne', units, Nat.pow_eq]
    push_cast
    rw [mul_assoc, ← pow_add, Nat.sub_add_cancel habove]

/-- Before infinity is reached, no other field is as near, but that of two equally near ones the
even one is taken. -/
theorem prefers_rounded (hf : 0 < f.fraction) (hden : 0 < den) {other : Nat}
    (hother : other ≠ f.excess num den * 2 ^ f.fraction + f.rounded num den) :
    f.Prefers (num / den) (f.excess num den * 2 ^ f.fraction + f.rounded num den) other := by
  have hfits := f.fits_rounded num hden
  have hunits := units_of_fits hfits
  have hscale : (0 : ℚ) < 2 ^ f.excess num den / 2 ^ f.scale := by positivity
  have hpow : (2 : ℚ) ^ f.excess num den ≠ 0 := by positivity
  have hfield : (f.units (f.excess num den * 2 ^ f.fraction + f.rounded num den) /
      2 ^ f.excess num den : ℚ) = f.rounded num den := by
    rw [hunits]
    push_cast
    rw [mul_div_cancel_right₀ _ hpow]
  have hstep : 0 < den * 2 ^ f.excess num den := Nat.mul_pos hden (Nat.two_pow_pos _)
  have hinteger : ∀ {n : Nat}, n ≠ f.rounded num den →
      |f.steps num den - f.rounded num den| < |f.steps num den - n| ∨
        |f.steps num den - f.rounded num den| = |f.steps num den - n| ∧
          Even (f.rounded num den) := fun hn => roundHalfEven_nearest hstep hn
  rw [Prefers, abs_sub_value hden, abs_sub_value hden, hfield, mul_lt_mul_iff_left₀ hscale,
    mul_left_inj' hscale.ne']
  rcases f.units_div_cases other (f.excess num den) with ⟨n, hn⟩ | ⟨hexcess, hbelow⟩
  · have hne : n ≠ f.rounded num den := by
      rintro rfl
      refine hother (f.units_strictMono.injective ?_)
      have hsame := (div_eq_iff hpow).mp hn
      rw [hunits]
      exact_mod_cast hsame
    rw [hn]
    refine (hinteger hne).imp_right fun h => ⟨h.1, ?_⟩
    exact ((Nat.even_pow.mpr ⟨even_two, hf.ne'⟩).mul_left _).add h.2
  · -- The least significand lies between the other field and the quotient.
    left
    have hleast := f.le_steps hden hexcess
    have hnear : |f.steps num den - f.rounded num den| ≤ |f.steps num den - 2 ^ f.fraction| := by
      by_cases hsame : 2 ^ f.fraction = f.rounded num den
      · rw [← hsame]
        push_cast
        exact le_rfl
      · have hpower := hinteger hsame
        push_cast at hpower
        rcases hpower with h | ⟨h, -⟩
        · exact h.le
        · exact h.le
    rw [abs_of_nonneg (sub_nonneg.mpr hleast)] at hnear
    rw [abs_of_pos (show 0 < f.steps num den - f.units other / 2 ^ f.excess num den by linarith)]
    linarith

theorem isNearest_nearest (hf : 0 < f.fraction) (hden : 0 < den) :
    f.IsNearest (num / den) (f.nearest num den) := by
  have hprefers : ∀ other ≠ f.excess num den * 2 ^ f.fraction + f.rounded num den,
      f.Prefers (num / den) (f.excess num den * 2 ^ f.fraction + f.rounded num den) other :=
    fun _ hother => prefers_rounded hf hden hother
  rw [nearest_eq]
  generalize f.excess num den * 2 ^ f.fraction + f.rounded num den = field at *
  rcases Nat.lt_or_ge f.infinity field with hlt | hle
  · rw [Nat.min_eq_right hlt.le]
    refine ⟨le_rfl, fun other hother hne => .inl ?_⟩
    have hvalue : f.value f.infinity < f.value field := f.value_strictMono hlt
    have hbelow : f.value other < f.value f.infinity :=
      f.value_strictMono (lt_of_le_of_ne hother hne)
    -- Infinity is no nearer than a field behind it, so the quotient lies beyond infinity.
    have hbeyond : f.value f.infinity < num / den := by
      by_contra hnot
      have hfar := (hprefers f.infinity hlt.ne).le
      rw [abs_of_nonpos (by linarith), abs_of_nonpos (by linarith)] at hfar
      linarith
    rw [abs_of_pos (by linarith), abs_of_pos (by linarith)]
    linarith
  · rw [Nat.min_eq_left hle]
    exact ⟨hle, fun other _ hother => hprefers other hother⟩

/-- The nearest field is the only one that is as near as it. -/
theorem nearest_eq_iff (hf : 0 < f.fraction) (hden : 0 < den) {field : Nat} :
    f.nearest num den = field ↔ f.IsNearest (num / den) field := by
  constructor
  · rintro rfl
    exact isNearest_nearest hf hden
  · exact (isNearest_nearest hf hden).unique

end Nearest
end Format
end HybridSearch.Number
