import HybridSearch.Number.Style

/-!
# The characters of a number

A number as it stands in a text is a row of digits, points, minus signs and the letters of `NaN` and
`inf`. So it can neither end the operand of a query that it stands in nor open another one, and it
is no keyword.
-/
namespace HybridSearch.Number

/-- Whether a character may stand in the text of a number. -/
def isNumeralChar (c : Char) : Bool :=
  c.isDigit || ['.', '-', 'N', 'a', 'i', 'n', 'f'].contains c

/-- A wider class, of letters, digits, points and minus signs. -/
def isNumberChar (c : Char) : Bool :=
  c.isAlphanum || c == '.' || c == '-'

theorem isNumberChar_of_isNumeralChar {c : Char} (h : isNumeralChar c = true) :
    isNumberChar c = true := by
  rcases Bool.or_eq_true_iff.mp h with hdigit | hother
  · simp [isNumberChar, Char.isAlphanum, hdigit]
  · have hall : ∀ d ∈ ['.', '-', 'N', 'a', 'i', 'n', 'f'], isNumberChar d = true :=
      List.all_eq_true.mp rfl
    exact hall c (List.contains_iff_mem.mp hother)

theorem isNumeralChar_of_isDigit {c : Char} (h : c.isDigit = true) : isNumeralChar c = true := by
  simp [isNumeralChar, h]

theorem isNumeralChar_of_mem_toDigits {n : Nat} {c : Char} (h : c ∈ Nat.toDigits 10 n) :
    isNumeralChar c = true :=
  isNumeralChar_of_isDigit (Nat.isDigit_of_mem_toDigits (by decide) (by decide) h)

namespace Style

theorem mem_positionalText {digits : List Char} {exponent : Int} {pointZero : Bool} {c : Char}
    (h : c ∈ positionalText digits exponent pointZero) : c ∈ digits ∨ c = '0' ∨ c = '.' := by
  rw [positionalText] at h
  split at h
  · simp only [List.mem_append, List.mem_replicate] at h
    rcases h with (hd | ⟨-, rfl⟩) | hpoint
    · exact .inl hd
    · exact .inr (.inl rfl)
    · split at hpoint
      · simp only [List.mem_cons, List.not_mem_nil, or_false] at hpoint
        exact .inr hpoint.symm
      · cases hpoint
  · have hpadded : ∀ {n : Nat} {d : Char}, d ∈ List.replicate n '0' ++ digits →
        d ∈ digits ∨ d = '0' := by
      intro n d hd
      rcases List.mem_append.mp hd with hzero | hdigit
      · exact .inr (List.eq_of_mem_replicate hzero)
      · exact .inl hdigit
    rcases List.mem_append.mp h with hleft | hright
    · exact (hpadded (List.mem_of_mem_take hleft)).imp_right .inl
    · rcases List.mem_cons.mp hright with rfl | hdrop
      · exact .inr (.inr rfl)
      · exact (hpadded (List.mem_of_mem_drop hdrop)).imp_right .inl

theorem mem_sizeText {field : Nat} {c : Char} (h : c ∈ plain.sizeText field) :
    c.isDigit = true ∨ c = '.' := by
  have hplain : ∀ exponent, plain.positional exponent = true := fun _ => rfl
  have hpositional : ∀ {digits : List Char} {exponent : Int},
      (∀ d ∈ digits, d.isDigit = true) →
      c ∈ positionalText digits exponent plain.pointZero → c.isDigit = true ∨ c = '.' := by
    intro digits exponent hdigits hc
    rcases mem_positionalText hc with hd | rfl | rfl
    · exact .inl (hdigits c hd)
    · exact .inl rfl
    · exact .inr rfl
  rw [sizeText] at h
  by_cases hzero : field = 0
  · rw [if_pos hzero] at h
    exact hpositional (List.all_eq_true.mp rfl) h
  · rw [if_neg hzero] at h
    simp only [hplain, if_true] at h
    exact hpositional (fun d hd => Nat.isDigit_of_mem_toDigits (by decide) (by decide) hd) h

theorem mem_text_of_isFinite {x : Binary64} (hx : x.isFinite = true) {c : Char}
    (h : c ∈ (plain.text x).toList) : c.isDigit = true ∨ c = '.' ∨ c = '-' := by
  rw [text, Binary64.isNaN_of_isFinite hx, if_neg Bool.false_ne_true, if_pos hx,
    String.toList_ofList] at h
  have hsize : ∀ {d : Char}, d ∈ plain.sizeText x.field → d.isDigit = true ∨ d = '.' ∨ d = '-' :=
    fun hd => (mem_sizeText hd).imp_right .inl
  split at h
  · rcases List.mem_cons.mp h with rfl | hc
    · exact .inr (.inr rfl)
    · exact hsize hc
  · exact hsize h

theorem isNumeralChar_of_mem_signed {negative : Bool} {size : List Char}
    (h : ∀ c ∈ size, isNumeralChar c = true) :
    ∀ c ∈ (if negative then '-' :: size else size), isNumeralChar c = true := by
  intro c hc
  cases negative with
  | false => exact h c hc
  | true =>
    rcases List.mem_cons.mp hc with rfl | hmem
    · rfl
    · exact h c hmem

theorem isNumeralChar_of_mem_text (x : Binary64) :
    ∀ c ∈ (plain.text x).toList, isNumeralChar c = true := by
  rw [text]
  split
  · exact List.all_eq_true.mp rfl
  · rw [String.toList_ofList]
    apply isNumeralChar_of_mem_signed
    split
    · intro c hc
      rcases mem_sizeText hc with hdigit | rfl
      · exact isNumeralChar_of_isDigit hdigit
      · rfl
    · exact List.all_eq_true.mp rfl

theorem isNumberChar_of_mem_text (x : Binary64) :
    ∀ c ∈ (plain.text x).toList, isNumberChar c = true :=
  fun c hc => isNumberChar_of_isNumeralChar (isNumeralChar_of_mem_text x c hc)

end Style

theorem isNumeralChar_of_mem_sixPlaces (x : Binary64) :
    ∀ c ∈ (sixPlaces x).toList, isNumeralChar c = true := by
  rw [sixPlaces]
  split
  · rw [String.toList_ofList]
    apply Style.isNumeralChar_of_mem_signed
    intro c hc
    rcases Style.mem_positionalText hc with hdigit | rfl | rfl
    · exact isNumeralChar_of_mem_toDigits hdigit
    · rfl
    · rfl
  · exact Style.isNumeralChar_of_mem_text x

theorem isNumberChar_of_mem_sixPlaces (x : Binary64) :
    ∀ c ∈ (sixPlaces x).toList, isNumberChar c = true :=
  fun c hc => isNumberChar_of_isNumeralChar (isNumeralChar_of_mem_sixPlaces x c hc)

end HybridSearch.Number
