import HybridSearch.Number.Binary64
import HybridSearch.Proofs.Number.Nearest

/-!
# The numbers behind bit patterns

A pattern is a sign and a field, in 64 bits as in 32. Comparisons look at the numbers behind the
patterns, and the way from one format to the other rounds them once.

* `Binary64.value`: the number behind a pattern in 64 bits.
* `Binary64.less_iff`, `Binary64.same_iff`: comparisons of finite numbers.
* `Binary64.between_iff`: what lies between two of them.
* `Single.Rounds`: a pattern in 32 bits is the nearest one to a number in 64 bits.
* `Single.rounds_narrow`, `Single.narrow_widen`: narrowing rounds, and undoes widening.
* `Binary64.RoundsInt`, `Binary64.roundsInt_iff`: the number nearest to an integer.
-/
namespace HybridSearch

open Number

/-! ## Signs and fields -/

/-- A sign bit in front of a field. -/
def signed (signBit : Nat) (negative : Bool) (field : Nat) : Nat :=
  if negative then field + signBit else field

section Signed

variable {signBit field : Nat}

theorem signed_mod (h : field < signBit) (negative : Bool) :
    signed signBit negative field % signBit = field := by
  cases negative with
  | false => exact Nat.mod_eq_of_lt h
  | true => rw [signed, if_pos rfl, Nat.add_mod_right, Nat.mod_eq_of_lt h]

theorem le_signed_iff (h : field < signBit) (negative : Bool) :
    signBit ≤ signed signBit negative field ↔ negative = true := by
  cases negative <;> simp [signed, h]

theorem signed_lt (h : field < signBit) (negative : Bool) :
    signed signBit negative field < 2 * signBit := by
  cases negative <;> simp only [signed, if_true, Bool.false_eq_true, if_false] <;> omega

theorem signed_of_lt {n : Nat} (h : n < 2 * signBit) :
    signed signBit (decide (signBit ≤ n)) (n % signBit) = n := by
  rw [signed]
  split
  · rename_i hle
    rw [decide_eq_true_eq] at hle
    rw [Nat.mod_eq_sub_mod hle, Nat.mod_eq_of_lt (by omega), Nat.sub_add_cancel hle]
  · rename_i hlt
    rw [decide_eq_true_eq, Nat.not_le] at hlt
    exact Nat.mod_eq_of_lt hlt

end Signed

namespace Binary64

variable {x y : Binary64}

theorem field_lt (x : Binary64) : x.field < Format.double.signBit :=
  Nat.mod_lt _ (by decide)

theorem infinity_lt_signBit : Format.double.infinity < Format.double.signBit := by
  decide

theorem toNat_bits_ofField (negative : Bool) {field : Nat} (h : field < Format.double.signBit) :
    (ofField negative field).bits.toNat = signed Format.double.signBit negative field :=
  UInt64.toNat_ofNat_of_lt' (signed_lt h negative)

theorem field_ofField (negative : Bool) {field : Nat} (h : field < Format.double.signBit) :
    (ofField negative field).field = field := by
  rw [Binary64.field, toNat_bits_ofField negative h, signed_mod h]

theorem negative_ofField (negative : Bool) {field : Nat} (h : field < Format.double.signBit) :
    (ofField negative field).negative = negative := by
  rw [Binary64.negative, toNat_bits_ofField negative h, Bool.eq_iff_iff, decide_eq_true_iff]
  exact le_signed_iff h negative

theorem ofField_field (x : Binary64) : ofField x.negative x.field = x := by
  have hbits : x.bits.toNat < 2 * Format.double.signBit := x.bits.toNat_lt
  have hpattern : ofField x.negative x.field =
      ⟨UInt64.ofNat (signed Format.double.signBit x.negative x.field)⟩ := rfl
  rw [hpattern, negative, field, signed_of_lt hbits, UInt64.ofNat_toNat]

/-! ## Numbers in 64 bits -/

/-- The number behind a pattern. The infinities count as the numbers that would follow the greatest
ones. -/
def value (x : Binary64) : ℚ :=
  Format.double.signedValue x.negative x.field

theorem value_eq_units (x : Binary64) : x.value = x.units / 2 ^ Format.double.scale := by
  rw [value, units, size, Format.signedValue, Format.value]
  cases x.negative with
  | false => simp
  | true =>
    rw [if_pos rfl, if_pos rfl]
    push_cast
    exact (neg_div _ _).symm

theorem abs_value (x : Binary64) : |x.value| = Format.double.value x.field :=
  Format.double.abs_signedValue x.negative x.field

theorem abs_value_eq_size (x : Binary64) : |x.value| = x.size / (unitsPerOne : Nat) := by
  unfold unitsPerOne
  rw [abs_value, Format.value_eq_div, size]

theorem units_nonneg_iff : 0 ≤ x.units ↔ 0 ≤ x.value := by
  rw [value_eq_units, le_div_iff₀ (by positivity), zero_mul]
  exact Int.cast_nonneg_iff.symm

theorem units_pos_iff : 0 < x.units ↔ 0 < x.value := by
  rw [value_eq_units, lt_div_iff₀ (by positivity), zero_mul]
  exact Int.cast_pos.symm

theorem units_lt_iff : x.units < y.units ↔ x.value < y.value := by
  rw [value_eq_units, value_eq_units, div_lt_div_iff_of_pos_right (by positivity)]
  exact Int.cast_lt.symm

theorem less_iff (hx : x.isFinite = true) (hy : y.isFinite = true) :
    x.less y = true ↔ x.value < y.value := by
  rw [less, isNaN_of_isFinite hx, isNaN_of_isFinite hy, ← units_lt_iff]
  exact decide_eq_true_iff

theorem same_iff (hx : x.isFinite = true) (hy : y.isFinite = true) :
    x.same y = true ↔ x.value = y.value := by
  rw [same, isNaN_of_isFinite hx, isNaN_of_isFinite hy, value_eq_units, value_eq_units,
    div_left_inj' (by positivity), Int.cast_inj]
  exact beq_iff_eq

theorem atMost_iff :
    x.atMost y = true ↔ x.isNaN = false ∧ y.isNaN = false ∧ x.value ≤ y.value := by
  rw [atMost, Bool.and_eq_true, Bool.and_eq_true, Bool.not_eq_true', Bool.not_eq_true',
    decide_eq_true_iff, and_assoc, ← not_lt, units_lt_iff, not_lt]

/-- What is not finite lies further out than any finite number. -/
theorem abs_value_lt (hx : x.isFinite = true) (hy : y.isFinite = false) :
    |x.value| < |y.value| := by
  have hxField : x.field < Format.double.infinity := of_decide_eq_true hx
  have hyField : ¬y.field < Format.double.infinity := of_decide_eq_false hy
  rw [abs_value, abs_value]
  exact Format.double.value_strictMono (hxField.trans_le (not_lt.mp hyField))

/-- A pattern between two finite numbers is a finite number itself. -/
theorem between_iff (hx : x.isFinite = true) (hy : y.isFinite = true) {z : Binary64} :
    (x.atMost z && z.atMost y) = true ↔
      z.isFinite = true ∧ x.value ≤ z.value ∧ z.value ≤ y.value := by
  rw [Bool.and_eq_true, atMost_iff, atMost_iff]
  constructor
  · rintro ⟨⟨-, -, hlower⟩, -, -, hupper⟩
    refine ⟨?_, hlower, hupper⟩
    by_contra hz
    have hz : z.isFinite = false := eq_false_of_ne_true hz
    have hbelow := abs_value_lt hx hz
    have habove := abs_value_lt hy hz
    have hbetween : |z.value| ≤ max |x.value| |y.value| := abs_le_max_abs_abs hlower hupper
    exact absurd (max_lt hbelow habove) (not_lt.mpr hbetween)
  · rintro ⟨hz, hlower, hupper⟩
    have hnan := isNaN_of_isFinite hz
    exact ⟨⟨isNaN_of_isFinite hx, hnan, hlower⟩, hnan, isNaN_of_isFinite hy, hupper⟩

/-! ## Rounded numbers -/

theorem unitsPerOne_pos : 0 < unitsPerOne := by
  unfold unitsPerOne
  exact Format.double.one_pos

theorem fraction_pos : 0 < Format.double.fraction := by
  decide

/-- A quotient that is nearest to a field is rounded to it. -/
theorem ofRatio_eq {num den : Nat} (hden : 0 < den) {field : Nat}
    (h : Format.double.IsNearest (num / den) field) (negative : Bool) :
    ofRatio negative num den = ofField negative field := by
  rw [ofRatio, (Format.nearest_eq_iff fraction_pos hden).mpr h]

end Binary64

/-! ## Numbers in 32 bits -/

namespace Single

def negative (p : UInt32) : Bool :=
  Format.single.signBit ≤ p.toNat

def field (p : UInt32) : Nat :=
  p.toNat % Format.single.signBit

def isNaN (p : UInt32) : Bool :=
  Format.single.infinity < field p

def value (p : UInt32) : ℚ :=
  Format.single.signedValue (negative p) (field p)

/-- A pattern is the nearest one to a number in 64 bits. The sign is kept, infinity stays infinity,
and what stands for no number does so in 32 bits too. -/
structure Rounds (x : Binary64) (p : UInt32) : Prop where
  negative_eq : negative p = x.negative
  nan : x.isNaN = true → isNaN p = true
  infinite : x.isNaN = false → x.isFinite = false → field p = Format.single.infinity
  finite : x.isFinite = true → Format.single.IsNearest |x.value| (field p)

def ofField (negative : Bool) (field : Nat) : UInt32 :=
  UInt32.ofNat (signed Format.single.signBit negative field)

theorem toNat_ofField (negative : Bool) {field : Nat} (h : field < Format.single.signBit) :
    (ofField negative field).toNat = signed Format.single.signBit negative field :=
  UInt32.toNat_ofNat_of_lt' (signed_lt h negative)

theorem field_ofField (negative : Bool) {field : Nat} (h : field < Format.single.signBit) :
    Single.field (ofField negative field) = field := by
  rw [Single.field, toNat_ofField negative h, signed_mod h]

theorem negative_ofField (negative : Bool) {field : Nat} (h : field < Format.single.signBit) :
    Single.negative (ofField negative field) = negative := by
  rw [Single.negative, toNat_ofField negative h, Bool.eq_iff_iff, decide_eq_true_iff]
  exact le_signed_iff h negative

theorem ofField_field (p : UInt32) : ofField (negative p) (field p) = p := by
  have hbits : p.toNat < 2 * Format.single.signBit := p.toNat_lt
  rw [ofField, negative, field, signed_of_lt hbits, UInt32.ofNat_toNat]

/-- The field of the narrowed number. -/
def narrowField (x : Binary64) : Nat :=
  if x.isNaN then
    Format.single.infinity + ((x.field - Format.double.infinity) / Binary64.fractionStep |||
      Nat.pow 2 (Format.single.fraction - 1))
  else if !x.isFinite then Format.single.infinity
  else Format.single.nearest x.size Binary64.unitsPerOne

theorem narrow_eq (x : Binary64) : x.narrow = ofField x.negative (narrowField x) := by
  rfl

theorem infinity_lt_signBit : Format.single.infinity < Format.single.signBit := by
  decide

theorem fraction_pos : 0 < Format.single.fraction := by
  decide

/-- The high bits of a fraction with the highest one set. -/
theorem quieted_bounds (x : Binary64) :
    Format.single.infinity < Format.single.infinity +
        ((x.field - Format.double.infinity) / Binary64.fractionStep |||
          Nat.pow 2 (Format.single.fraction - 1)) ∧
      Format.single.infinity + ((x.field - Format.double.infinity) / Binary64.fractionStep |||
          Nat.pow 2 (Format.single.fraction - 1)) < Format.single.signBit := by
  have hfield : x.field - Format.double.infinity < 2 ^ 52 := by
    have hlt := x.field_lt
    have hsize : Format.double.signBit = Format.double.infinity + 2 ^ 52 := by decide
    omega
  have hquotient : (x.field - Format.double.infinity) / Binary64.fractionStep < 2 ^ 23 := by
    have hstep : Binary64.fractionStep = 2 ^ 29 := by decide
    rw [hstep]
    omega
  have hset : Nat.pow 2 (Format.single.fraction - 1) < 2 ^ 23 := by decide
  have hlow : Nat.pow 2 (Format.single.fraction - 1) ≤
      ((x.field - Format.double.infinity) / Binary64.fractionStep |||
        Nat.pow 2 (Format.single.fraction - 1)) := Nat.right_le_or
  have hhigh := Nat.or_lt_two_pow hquotient hset
  have hpos : 0 < Nat.pow 2 (Format.single.fraction - 1) := by decide
  have hsize : Format.single.signBit = Format.single.infinity + 2 ^ 23 := by decide
  omega

theorem narrowField_of_isNaN {x : Binary64} (hx : x.isNaN = true) :
    Format.single.infinity < narrowField x ∧ narrowField x < Format.single.signBit := by
  rw [narrowField, if_pos hx]
  exact quieted_bounds x

theorem narrowField_of_infinite {x : Binary64} (hnan : x.isNaN = false)
    (hx : x.isFinite = false) : narrowField x = Format.single.infinity := by
  rw [narrowField, if_neg (by simp [hnan]), if_pos (by simp [hx])]

theorem narrowField_of_isFinite {x : Binary64} (hx : x.isFinite = true) :
    narrowField x = Format.single.nearest x.size Binary64.unitsPerOne := by
  rw [narrowField, if_neg (by simp [Binary64.isNaN_of_isFinite hx]), if_neg (by simp [hx])]

theorem isNearest_narrowField {x : Binary64} (hx : x.isFinite = true) :
    Format.single.IsNearest |x.value| (narrowField x) := by
  have hnearest : ∀ den, 0 < den → Format.single.IsNearest ((x.size : ℚ) / (den : Nat))
      (Format.single.nearest x.size den) := fun _ => Format.isNearest_nearest fraction_pos
  rw [narrowField_of_isFinite hx, x.abs_value_eq_size]
  exact hnearest _ Binary64.unitsPerOne_pos

theorem narrowField_lt (x : Binary64) : narrowField x < Format.single.signBit := by
  cases hnan : x.isNaN with
  | true => exact (narrowField_of_isNaN hnan).2
  | false =>
    refine lt_of_le_of_lt ?_ infinity_lt_signBit
    cases hfinite : x.isFinite with
    | true => exact (isNearest_narrowField hfinite).le
    | false => exact (narrowField_of_infinite hnan hfinite).le

/-- Narrowing gives the nearest number. -/
theorem rounds_narrow (x : Binary64) : Rounds x x.narrow := by
  have hfield : field x.narrow = narrowField x := by
    rw [narrow_eq, field_ofField _ (narrowField_lt x)]
  have hnegative : negative x.narrow = x.negative := by
    rw [narrow_eq, negative_ofField _ (narrowField_lt x)]
  refine ⟨hnegative, fun hnan => ?_, fun hnan hinfinite => ?_, fun hfinite => ?_⟩
  · rw [isNaN, hfield, decide_eq_true_iff]
    exact (narrowField_of_isNaN hnan).1
  · rw [hfield, narrowField_of_infinite hnan hinfinite]
  · rw [hfield]
    exact isNearest_narrowField hfinite

/-- Any pattern that is nearest to a number, if it is one, is the narrowed number. -/
theorem Rounds.eq_narrow {x : Binary64} {p : UInt32} (h : Rounds x p) (hx : x.isNaN = false) :
    p = x.narrow := by
  have hnarrow := rounds_narrow x
  have hfield : field p = field x.narrow := by
    cases hfinite : x.isFinite with
    | true => exact (h.finite hfinite).unique (hnarrow.finite hfinite)
    | false => rw [h.infinite hx hfinite, hnarrow.infinite hx hfinite]
  rw [← ofField_field p, ← ofField_field x.narrow, hfield, h.negative_eq, hnarrow.negative_eq]

/-! ## Widening -/

/-- A significand of up to 24 bits, moved up to the place that it has in 64 bits. -/
theorem exists_double_value {significand shift : Nat} (hlt : significand < 2 ^ 24)
    (hshift : shift < 254) : ∃ d < Format.double.infinity,
      Format.double.value d = (significand * 2 ^ shift : Nat) / (2 : ℚ) ^ 149 := by
  rcases Nat.eq_zero_or_pos significand with rfl | hpos
  · exact ⟨0, by decide, by rw [Format.value_zero]; simp⟩
  · have hlog : significand.log2 < 24 := (Nat.log2_lt hpos.ne').mpr hlt
    have hlow : 2 ^ significand.log2 ≤ significand := Nat.log2_self_le hpos.ne'
    have hhigh : significand < 2 ^ (significand.log2 + 1) := Nat.lt_log2_self
    generalize significand.log2 = bits at *
    have hmove : ∀ {n : Nat}, 2 ^ (n + (52 - bits)) = 2 ^ n * 2 ^ (52 - bits) := Nat.pow_add ..
    have hfits : Format.double.Fits (shift + 873 + bits) (significand * 2 ^ (52 - bits)) := by
      constructor
      · calc significand * 2 ^ (52 - bits) ≤ 2 ^ (bits + 1) * 2 ^ (52 - bits) :=
              Nat.mul_le_mul_right _ hhigh.le
          _ = 2 * 2 ^ 52 := by
              rw [← Nat.pow_add, ← Nat.pow_succ', show bits + 1 + (52 - bits) = 52 + 1 by omega]
      · right
        calc 2 ^ 52 = 2 ^ bits * 2 ^ (52 - bits) := by
              rw [← Nat.pow_add, show bits + (52 - bits) = 52 by omega]
          _ ≤ significand * 2 ^ (52 - bits) := Nat.mul_le_mul_right _ hlow
    refine ⟨(shift + 873 + bits) * 2 ^ Format.double.fraction + significand * 2 ^ (52 - bits),
      ?_, ?_⟩
    · have hle : significand * 2 ^ (52 - bits) ≤ 2 * 2 ^ 52 := hfits.le
      have hinfinity : Format.double.infinity = 2047 * 2 ^ 52 := by decide
      have hfraction : Format.double.fraction = 52 := rfl
      rw [hinfinity, hfraction]
      omega
    · have hunits := Format.units_of_fits hfits
      have hexponent : significand * 2 ^ (52 - bits) * 2 ^ (shift + 873 + bits) =
          significand * 2 ^ shift * 2 ^ 925 := by
        rw [Nat.mul_assoc, Nat.mul_assoc, ← Nat.pow_add, ← Nat.pow_add,
          show 52 - bits + (shift + 873 + bits) = shift + 925 by omega]
      have hscale : Format.double.scale = 149 + 925 := rfl
      have hpow : (2 : ℚ) ^ 925 ≠ 0 := by positivity
      rw [hexponent] at hunits
      rw [Format.value, hscale, pow_add, hunits, Nat.cast_mul _ (2 ^ 925), Nat.cast_pow 2 925,
        Nat.cast_two, mul_div_mul_right _ _ hpow]

/-- Every finite number in 32 bits is one in 64 bits. -/
theorem exists_double_value_eq {field : Nat} (h : field < Format.single.infinity) :
    ∃ d < Format.double.infinity, Format.double.value d = Format.single.value field := by
  obtain ⟨-, hlt, -⟩ := Format.single.significand_bounds field
  have hshift : Format.single.shift field < 254 := by
    have hinfinity : Format.single.infinity = 255 * 2 ^ 23 := by decide
    have hdiv : field / 2 ^ 23 < 255 := by
      rw [Nat.div_lt_iff_lt_mul (by decide)]
      omega
    have hdef : Format.single.shift field = field / 2 ^ 23 - 1 := rfl
    omega
  exact exists_double_value hlt hshift

theorem widen_eq (p : UInt32) : Binary64.widen p =
    if Format.single.infinity < field p then
      .ofField (negative p) (Format.double.infinity +
        ((field p - Format.single.infinity) * Binary64.fractionStep |||
          Nat.pow 2 (Format.double.fraction - 1)))
    else if field p = Format.single.infinity then .infinite (negative p)
    else .ofRatio (negative p) (Format.single.units (field p))
      (Nat.pow 2 Format.single.scale) :=
  rfl

theorem widen_of_lt {p : UInt32} (h : field p < Format.single.infinity) {d : Nat}
    (hd : d < Format.double.infinity)
    (hvalue : Format.double.value d = Format.single.value (field p)) :
    Binary64.widen p = .ofField (negative p) d := by
  have hquotient : (Format.single.units (field p) : ℚ) / (Nat.pow 2 Format.single.scale : Nat) =
      Format.double.value d := by
    rw [hvalue, Format.value_eq_div]
  have hnearest := Format.IsNearest.of_eq hd.le hquotient
  rw [widen_eq, if_neg (Nat.not_lt.mpr h.le), if_neg h.ne]
  exact Binary64.ofRatio_eq Format.single.one_pos hnearest _

theorem widen_of_infinite {p : UInt32} (h : field p = Format.single.infinity) :
    Binary64.widen p = .infinite (negative p) := by
  rw [widen_eq, if_neg (Nat.not_lt.mpr h.le), if_pos h]

/-- Widening keeps every finite number. -/
theorem value_widen {p : UInt32} (h : field p < Format.single.infinity) :
    (Binary64.widen p).isFinite = true ∧ (Binary64.widen p).negative = negative p ∧
      (Binary64.widen p).value = value p := by
  obtain ⟨d, hd, hvalue⟩ := exists_double_value_eq h
  have hlt : d < Format.double.signBit := hd.trans Binary64.infinity_lt_signBit
  rw [widen_of_lt h hd hvalue]
  refine ⟨?_, Binary64.negative_ofField _ hlt, ?_⟩
  · rw [Binary64.isFinite, Binary64.field_ofField _ hlt]
    exact decide_eq_true hd
  · rw [Binary64.value, Binary64.field_ofField _ hlt, Binary64.negative_ofField _ hlt, value,
      Format.signedValue, Format.signedValue, hvalue]

/-- A number in 32 bits is the nearest one to itself in 64 bits. -/
theorem rounds_widen {p : UInt32} (h : isNaN p = false) :
    (Binary64.widen p).isNaN = false ∧ Rounds (Binary64.widen p) p := by
  rw [isNaN, decide_eq_false_iff_not, Nat.not_lt] at h
  rcases Nat.lt_or_eq_of_le h with hlt | heq
  · obtain ⟨hfinite, hnegative, hvalue⟩ := value_widen hlt
    have hnan := Binary64.isNaN_of_isFinite hfinite
    refine ⟨hnan, hnegative.symm, fun hn => ?_, fun _ hinfinite => ?_, fun _ => ?_⟩
    · rw [hnan] at hn
      cases hn
    · rw [hfinite] at hinfinite
      cases hinfinite
    · refine .of_eq h ?_
      rw [hvalue, value, Format.abs_signedValue]
  · have hfield : (Binary64.infinite (negative p)).field = Format.double.infinity :=
      Binary64.field_ofField _ Binary64.infinity_lt_signBit
    have hnan : (Binary64.infinite (negative p)).isNaN = false := by
      rw [Binary64.isNaN, hfield]
      exact decide_eq_false (Nat.lt_irrefl _)
    rw [widen_of_infinite heq]
    refine ⟨hnan, ?_, fun hn => ?_, fun _ _ => heq, fun hfinite => ?_⟩
    · exact (Binary64.negative_ofField _ Binary64.infinity_lt_signBit).symm
    · rw [hnan] at hn
      cases hn
    · rw [Binary64.isFinite, hfield, decide_eq_true_iff] at hfinite
      exact absurd hfinite (Nat.lt_irrefl _)

/-- Nothing is lost on the way to 64 bits and back. -/
theorem narrow_widen {p : UInt32} (h : isNaN p = false) : (Binary64.widen p).narrow = p := by
  obtain ⟨hnan, hrounds⟩ := rounds_widen h
  exact (hrounds.eq_narrow hnan).symm

end Single

/-! ## Integers -/

namespace Binary64

/-- A number is the nearest one to an integer, and has its sign. -/
structure RoundsInt (n : Int) (x : Binary64) : Prop where
  negative_eq : x.negative = decide (n < 0)
  nearest : Format.double.IsNearest |(n : ℚ)| x.field

theorem roundsInt_iff {n : Int} {x : Binary64} : RoundsInt n x ↔ ofInt n = x := by
  have hquotient : (n.natAbs : ℚ) / (1 : Nat) = |(n : ℚ)| := by
    rw [Nat.cast_one, div_one, Nat.cast_natAbs, Int.cast_abs]
  constructor
  · intro h
    rw [ofInt, ofRatio_eq Nat.one_pos (hquotient ▸ h.nearest), ← h.negative_eq, ofField_field]
  · rintro rfl
    have hnearest : Format.double.IsNearest (n.natAbs / (1 : Nat))
        (Format.double.nearest n.natAbs 1) := Format.isNearest_nearest fraction_pos Nat.one_pos
    have hlt := hnearest.le.trans_lt infinity_lt_signBit
    rw [hquotient] at hnearest
    refine ⟨negative_ofField _ hlt, ?_⟩
    rw [ofInt, ofRatio, field_ofField _ hlt]
    exact hnearest

/-- Integers that are not too great are numbers in 64 bits. -/
theorem value_ofInt {n : Int} (h : n.natAbs < 2 ^ 24) :
    (ofInt n).isFinite = true ∧ (ofInt n).value = n := by
  obtain ⟨d, hd, hvalue⟩ := Single.exists_double_value h (by decide : 149 < 254)
  have hlt : d < Format.double.signBit := hd.trans infinity_lt_signBit
  have hsize : Format.double.value d = |(n : ℚ)| := by
    have hscale : (2 : ℚ) ^ 149 ≠ 0 := by positivity
    rw [hvalue, Nat.cast_mul _ (2 ^ 149), Nat.cast_pow 2 149, Nat.cast_two,
      mul_div_cancel_right₀ _ hscale, Nat.cast_natAbs, Int.cast_abs]
  have hquotient : (n.natAbs : ℚ) / (1 : Nat) = Format.double.value d := by
    rw [hsize, Nat.cast_one, div_one, Nat.cast_natAbs, Int.cast_abs]
  rw [ofInt, ofRatio_eq Nat.one_pos (Format.IsNearest.of_eq hd.le hquotient)]
  refine ⟨?_, ?_⟩
  · rw [isFinite, field_ofField _ hlt]
    exact decide_eq_true hd
  · rw [value, field_ofField _ hlt, negative_ofField _ hlt, Format.signedValue, hsize]
    rcases Int.lt_or_le n 0 with hneg | hnonneg
    · rw [if_pos (decide_eq_true hneg), abs_of_neg (Int.cast_lt_zero.mpr hneg), neg_neg]
    · rw [if_neg (by simpa using hnonneg), abs_of_nonneg (Int.cast_nonneg_iff.mpr hnonneg)]

end Binary64
end HybridSearch
