import HybridSearch.Number.Style
import HybridSearch.Proofs.Number.Characters
import HybridSearch.Proofs.Number.Naturals
import HybridSearch.Proofs.Number.Shortest
import HybridSearch.Proofs.Number.Values

/-!
# Numbers are read back

The text of a finite number is its shortest decimal, written without an exponent, and that decimal
is rounded to the number. So reading the text gives the very same number, a negative zero included.

* `Binary64.ofDecimal_eq`: a decimal is read as the number that it is nearest to.
* `Numeral.exists_ofUnsigned?_positionalText`: the digits of a decimal are read as that decimal.
* `ofText?_text`: the text of a finite number is read back.
-/
namespace HybridSearch

open Number

/-! ## Decimals -/

namespace Number.Format

variable {v : ℚ} {field : Nat}

/-- What is rounded to a finite field lies below the number that would follow the greatest one. -/
theorem IsNearest.lt_infinity {f : Format} (h : f.IsNearest v field) (hfield : field < f.infinity) :
    v < f.value f.infinity := by
  have hvalue := f.value_strictMono hfield
  have hprefers := (h.prefers f.infinity le_rfl hfield.ne').le
  by_contra hge
  rw [abs_of_nonneg (by linarith), abs_of_nonneg (by linarith)] at hprefers
  linarith

/-- What is not rounded to zero is at least half the least positive number. -/
theorem IsNearest.half_le {f : Format} (h : f.IsNearest v field) (hfield : 0 < field) (hv : 0 ≤ v) :
    f.value 1 ≤ 2 * v := by
  have hvalue := f.value_strictMono.monotone (Nat.succ_le_of_lt hfield)
  have hprefers := (h.prefers 0 (Nat.zero_le _) hfield.ne).le
  rw [f.value_zero, sub_zero, abs_of_nonneg hv] at hprefers
  have hfar := neg_abs_le (v - f.value field)
  linarith

end Number.Format

namespace Binary64

theorem value_infinity_le : Format.double.value Format.double.infinity ≤ 10 ^ (310 : Int) := by
  have hunits : Format.double.units Format.double.infinity ≤
      10 ^ 310 * Nat.pow 2 Format.double.scale := by
    decide +kernel
  have hone : (0 : ℚ) < (Nat.pow 2 Format.double.scale : Nat) := by
    exact_mod_cast Format.double.one_pos
  rw [Format.value_eq_div, div_le_iff₀ hone]
  exact_mod_cast hunits

theorem lt_value_one : 2 * 10 ^ (-331 : Int) < Format.double.value 1 := by
  have hunits : 2 * Nat.pow 2 Format.double.scale < Format.double.units 1 * 10 ^ 331 := by
    decide +kernel
  have hone : (0 : ℚ) < (Nat.pow 2 Format.double.scale : Nat) := by
    exact_mod_cast Format.double.one_pos
  have hten : (0 : ℚ) < 10 ^ 331 := by positivity
  rw [Format.value_eq_div, zpow_neg, ← div_eq_mul_inv]
  exact (div_lt_div_iff₀ hten hone).mpr (by exact_mod_cast hunits)

section Decade

variable {coefficient : Nat} {exponent : Int}

theorem decade_bounds (h : coefficient ≠ 0) (exponent : Int) :
    (10 : ℚ) ^ (exponent + (Nat.toDigits 10 coefficient).length - 1) ≤
        coefficient * 10 ^ exponent ∧
      coefficient * 10 ^ exponent <
        (10 : ℚ) ^ (exponent + (Nat.toDigits 10 coefficient).length) := by
  obtain ⟨n, hlength⟩ : ∃ n, (Nat.toDigits 10 coefficient).length = n + 1 :=
    Nat.exists_eq_add_one.mpr (List.length_pos_of_ne_nil Nat.toDigits_ne_nil)
  have hlt : coefficient < 10 ^ (n + 1) :=
    (Nat.length_toDigits_le_iff (by decide) n.succ_pos).mp hlength.le
  have hle : 10 ^ n ≤ coefficient := by
    rcases Nat.eq_zero_or_pos n with rfl | hn
    · exact Nat.one_le_iff_ne_zero.mpr h
    · by_contra hsmall
      have hshort := (Nat.length_toDigits_le_iff (by decide) hn).mpr (Nat.lt_of_not_le hsmall)
      omega
  have hpower : (0 : ℚ) < 10 ^ exponent := by positivity
  have hpoint : ∀ k : Nat, (10 : ℚ) ^ (exponent + k) = (10 ^ k : Nat) * 10 ^ exponent := by
    intro k
    rw [zpow_add₀ (by decide), zpow_natCast, mul_comm]
    push_cast
    rfl
  have hlast : exponent + (n + 1 : Nat) - 1 = exponent + n := by omega
  rw [hlength, hlast, hpoint, hpoint]
  constructor
  · exact mul_le_mul_of_nonneg_right (by exact_mod_cast hle) hpower.le
  · exact mul_lt_mul_of_pos_right (by exact_mod_cast hlt) hpower

/-- A decimal is read as the number that it is nearest to. -/
theorem ofDecimal_eq {field : Nat}
    (h : Format.double.IsNearest (coefficient * 10 ^ exponent) field) (hpos : 0 < field)
    (hfield : field < Format.double.infinity) (negative : Bool) :
    ofDecimal negative coefficient exponent = ofField negative field := by
  have hhalf := h.half_le hpos (by positivity)
  have hbelow := h.lt_infinity hfield
  have hone := lt_value_one
  have hcoefficient : coefficient ≠ 0 := by
    rintro rfl
    have hten : (0 : ℚ) < 2 * 10 ^ (-331 : Int) := by positivity
    simp at hhalf
    linarith
  obtain ⟨hlow, hhigh⟩ := decade_bounds hcoefficient exponent
  rw [ofDecimal, if_neg hcoefficient]
  dsimp only
  generalize exponent + ((Nat.toDigits 10 coefficient).length : Int) = decade at *
  have hlarge : ¬310 < decade := by
    intro hlarge
    have hpower : (10 : ℚ) ^ (310 : Int) ≤ 10 ^ (decade - 1) :=
      zpow_le_zpow_right₀ (by norm_num) (by omega)
    linarith [value_infinity_le]
  have hsmall : ¬decade < -330 := by
    intro hsmall
    have hpower : (10 : ℚ) ^ decade ≤ 10 ^ (-331 : Int) :=
      zpow_le_zpow_right₀ (by norm_num) (by omega)
    linarith
  rw [ten_zpow_eq_div] at h
  rw [if_neg hlarge, if_neg hsmall]
  split
  · rename_i hsign
    apply ofRatio_eq Nat.one_pos
    rw [Int.toNat_of_nonpos (show -exponent ≤ 0 by omega), Nat.pow_zero, Nat.cast_one, div_one] at h
    rw [Nat.pow_eq, Nat.cast_mul, Nat.cast_one, div_one]
    exact h
  · rename_i hsign
    apply ofRatio_eq (Nat.pow_pos (by decide))
    rw [Int.toNat_of_nonpos (show exponent ≤ 0 by omega), Nat.pow_zero, Nat.cast_one,
      mul_one_div] at h
    exact h

end Decade

end Binary64

/-! ## Digits -/

namespace Number

theorem takeDigits_append {digits rest : List Char} (hdigits : ∀ c ∈ digits, c.isDigit = true)
    (hrest : ∀ c ∈ rest.head?, c.isDigit = false) :
    takeDigits (digits ++ rest) = (digits, rest) := by
  have hnone : rest.takeWhile Char.isDigit = [] ∧ rest.dropWhile Char.isDigit = rest := by
    cases rest with
    | nil => exact ⟨rfl, rfl⟩
    | cons c rest =>
      have hc : c.isDigit = false := hrest c rfl
      exact ⟨List.takeWhile_cons_of_neg (by simp [hc]), List.dropWhile_cons_of_neg (by simp [hc])⟩
  rw [takeDigits, List.span_eq_takeWhile_dropWhile, List.takeWhile_append_of_pos hdigits,
    List.dropWhile_append_of_pos hdigits, hnone.1, hnone.2, List.append_nil]

theorem takeDigits_of_digits {digits : List Char} (h : ∀ c ∈ digits, c.isDigit = true) :
    takeDigits digits = (digits, []) := by
  have hnil : ∀ c ∈ ([] : List Char).head?, c.isDigit = false := nofun
  have htake := takeDigits_append h hnil
  rwa [List.append_nil] at htake

theorem digitsValue_append_zeros (digits : List Char) (n : Nat) :
    digitsValue (digits ++ List.replicate n '0') = digitsValue digits * 10 ^ n := by
  have hdef : ∀ cs, digitsValue cs = Nat.ofDigitChars 10 cs 0 := fun _ => rfl
  rw [hdef, hdef, Nat.ofDigitChars_append, Nat.ofDigitChars_replicate_zero, Nat.mul_comm]

theorem digitsValue_zeros_append (n : Nat) (digits : List Char) :
    digitsValue (List.replicate n '0' ++ digits) = digitsValue digits := by
  have hdef : ∀ cs, digitsValue cs = Nat.ofDigitChars 10 cs 0 := fun _ => rfl
  rw [hdef, hdef, Nat.ofDigitChars_append, Nat.ofDigitChars_replicate_zero, Nat.mul_zero]

namespace Numeral

variable {whole fraction : List Char}

theorem ofUnsigned?_whole (negative : Bool) (hne : whole ≠ [])
    (hdigits : ∀ c ∈ whole, c.isDigit = true) :
    ofUnsigned? negative whole = some ⟨negative, whole, [], false, []⟩ := by
  rw [ofUnsigned?, takeDigits_of_digits hdigits]
  simp [takeFraction, takeExponent?, hne]

theorem ofUnsigned?_fraction (negative : Bool) (hne : whole ≠ [])
    (hwhole : ∀ c ∈ whole, c.isDigit = true) (hfraction : ∀ c ∈ fraction, c.isDigit = true) :
    ofUnsigned? negative (whole ++ '.' :: fraction) =
      some ⟨negative, whole, fraction, false, []⟩ := by
  have hpoint : ∀ c ∈ ('.' :: fraction).head?, c.isDigit = false := by
    intro c hc
    obtain rfl := Option.some.inj hc
    rfl
  rw [ofUnsigned?, takeDigits_append hwhole hpoint]
  simp [takeFraction, takeDigits_of_digits hfraction, takeExponent?, hne]

theorem nearest_plain (negative : Bool) (whole fraction : List Char) :
    nearest ⟨negative, whole, fraction, false, []⟩ =
      Binary64.ofDecimal negative (digitsValue (whole ++ fraction)) (-fraction.length) := by
  have hpower : power ⟨negative, whole, fraction, false, []⟩ = 0 := rfl
  rw [nearest, hpower, zero_sub]

theorem isDigit_of_mem_toDigits {n : Nat} : ∀ c ∈ Nat.toDigits 10 n, c.isDigit = true :=
  fun _ hc => Nat.isDigit_of_mem_toDigits (by decide) (by decide) hc

theorem isDigit_of_mem_zeros {n : Nat} : ∀ c ∈ List.replicate n '0', c.isDigit = true := by
  intro c hc
  rw [List.eq_of_mem_replicate hc]
  rfl

/-- Zeros behind the digits are read as a power of ten. -/
theorem exists_read_with_zeros (negative : Bool) (coefficient zeros : Nat) :
    ∃ n, ofUnsigned? negative (Nat.toDigits 10 coefficient ++ List.replicate zeros '0') = some n ∧
      n.nearest = Binary64.ofDecimal negative (coefficient * 10 ^ zeros) 0 := by
  have hne := List.append_ne_nil_of_left_ne_nil
    (Nat.toDigits_ne_nil : Nat.toDigits 10 coefficient ≠ []) (List.replicate zeros '0')
  have hdigits := List.forall_mem_append.mpr
    ⟨isDigit_of_mem_toDigits (n := coefficient), isDigit_of_mem_zeros (n := zeros)⟩
  refine ⟨_, ofUnsigned?_whole negative hne hdigits, ?_⟩
  rw [nearest_plain, List.append_nil, digitsValue_append_zeros, digitsValue_toDigits]
  rfl

/-- A point in front of the last digits is read as a negative power of ten. There is a digit in
front of the point, if need be a zero. -/
theorem exists_read_with_point (negative : Bool) {coefficient places : Nat} {digits : List Char}
    (hdigits : ∀ c ∈ digits, c.isDigit = true) (hvalue : digitsValue digits = coefficient)
    (hlength : places < digits.length) :
    ∃ n, ofUnsigned? negative (digits.take (digits.length - places) ++
        '.' :: digits.drop (digits.length - places)) = some n ∧
      n.nearest = Binary64.ofDecimal negative coefficient (-places) := by
  have hwhole : digits.take (digits.length - places) ≠ [] := by
    rw [Ne, ← List.length_eq_zero_iff, List.length_take]
    omega
  have hplaces : (digits.drop (digits.length - places)).length = places := by
    rw [List.length_drop]
    omega
  refine ⟨_, ofUnsigned?_fraction negative hwhole (fun c hc => hdigits c (List.mem_of_mem_take hc))
    (fun c hc => hdigits c (List.mem_of_mem_drop hc)), ?_⟩
  rw [nearest_plain, List.take_append_drop, hvalue, hplaces]

/-- The digits of a decimal with its point in place are read as that decimal. -/
theorem exists_ofUnsigned?_positionalText (negative : Bool) (d : Decimal) :
    ∃ n, ofUnsigned? negative
        (Style.positionalText (Nat.toDigits 10 d.coefficient) d.exponent false) = some n ∧
      ∃ e : Decimal, e.value = d.value ∧
        n.nearest = Binary64.ofDecimal negative e.coefficient e.exponent := by
  rw [Style.positionalText]
  split
  · rename_i hsign
    obtain ⟨n, hread, hnearest⟩ :=
      exists_read_with_zeros negative d.coefficient d.exponent.toNat
    rw [if_neg Bool.false_ne_true, List.append_nil]
    refine ⟨n, hread, ⟨d.coefficient * 10 ^ d.exponent.toNat, 0⟩, ?_, hnearest⟩
    obtain ⟨k, hk⟩ := Int.eq_ofNat_of_zero_le hsign
    rw [Decimal.value, Decimal.value, hk]
    simp
  · rename_i hsign
    dsimp only
    generalize hplaces : (-d.exponent).toNat = places
    generalize hzeros : places + 1 - (Nat.toDigits 10 d.coefficient).length = zeros
    have hlength : places <
        (List.replicate zeros '0' ++ Nat.toDigits 10 d.coefficient).length := by
      rw [List.length_append, List.length_replicate]
      omega
    obtain ⟨n, hread, hnearest⟩ := exists_read_with_point negative
      (List.forall_mem_append.mpr ⟨isDigit_of_mem_zeros, isDigit_of_mem_toDigits⟩)
      ((digitsValue_zeros_append zeros _).trans (digitsValue_toDigits d.coefficient)) hlength
    have hexponent : -(places : Int) = d.exponent := by omega
    rw [hexponent] at hnearest
    exact ⟨n, hread, d, rfl, hnearest⟩

end Numeral

/-! ## Texts -/

theorem takeSign_of_unsigned {cs : List Char} (h : ∀ c ∈ cs.head?, c ≠ '-' ∧ c ≠ '+') :
    takeSign cs = (false, cs) := by
  rw [takeSign.eq_def]
  split
  · exact absurd rfl (h '-' rfl).1
  · exact absurd rfl (h '+' rfl).2
  · rfl

theorem plain_sizeText_zero :
    Style.plain.sizeText 0 = Style.positionalText (Nat.toDigits 10 0) 0 false := by
  rfl

theorem plain_sizeText_of_ne_zero {field : Nat} (h : field ≠ 0) :
    Style.plain.sizeText field =
      Style.positionalText (Nat.toDigits 10 (shortest Style.plain.tie field).coefficient)
        (shortest Style.plain.tie field).exponent false := by
  have hplain : ∀ exponent, Style.plain.positional exponent = true := fun _ => rfl
  have hpoint : Style.plain.pointZero = false := rfl
  rw [Style.sizeText, if_neg h]
  simp only [hplain, hpoint, if_true]

/-- The size of a finite number is read back with any sign. -/
theorem exists_ofUnsigned?_sizeText (negative : Bool) {field : Nat}
    (hfield : field < Format.double.infinity) :
    ∃ n, Numeral.ofUnsigned? negative (Style.plain.sizeText field) = some n ∧
      n.nearest = Binary64.ofField negative field := by
  cases field with
  | zero =>
    obtain ⟨n, hread, e, hvalue, hnearest⟩ :=
      Numeral.exists_ofUnsigned?_positionalText negative ⟨0, 0⟩
    rw [plain_sizeText_zero]
    refine ⟨n, hread, ?_⟩
    have hzero : e.coefficient = 0 := by
      simpa [Decimal.value, zpow_ne_zero] using hvalue
    rw [hnearest, Binary64.ofDecimal, if_pos hzero, Binary64.zero]
  | succ field =>
    obtain ⟨n, hread, e, hvalue, hnearest⟩ :=
      Numeral.exists_ofUnsigned?_positionalText negative (shortest Style.plain.tie (field + 1))
    have hrounded := isNearest_shortest Style.plain.tie hfield
    rw [← hvalue, Decimal.value] at hrounded
    rw [plain_sizeText_of_ne_zero field.succ_ne_zero]
    refine ⟨n, hread, ?_⟩
    rw [hnearest, Binary64.ofDecimal_eq hrounded field.succ_pos hfield]

/-- The text of a finite number is read as the very same number. -/
theorem ofText?_text {x : Binary64} (hx : x.isFinite = true) : ofText? x.text = some x := by
  have hfield : x.field < Format.double.infinity := by
    rwa [Binary64.isFinite, decide_eq_true_iff] at hx
  obtain ⟨n, hread, hnearest⟩ := exists_ofUnsigned?_sizeText x.negative hfield
  have htext : x.text.toList = if x.negative then '-' :: Style.plain.sizeText x.field
      else Style.plain.sizeText x.field := by
    rw [Binary64.text, Style.text, Binary64.isNaN_of_isFinite hx, if_neg Bool.false_ne_true,
      if_pos hx, String.toList_ofList]
  have hsign : takeSign x.text.toList = (x.negative, Style.plain.sizeText x.field) := by
    rw [htext]
    cases x.negative with
    | true =>
      rw [if_pos rfl]
      rfl
    | false =>
      rw [if_neg Bool.false_ne_true]
      refine takeSign_of_unsigned fun c hc => ?_
      rcases Style.mem_sizeText (List.mem_of_mem_head? hc) with hdigit | rfl
      · constructor <;> rintro rfl <;> cases hdigit
      · decide
  rw [ofText?, hsign]
  simp only [hread, hnearest, x.ofField_field]

end Number

end HybridSearch
