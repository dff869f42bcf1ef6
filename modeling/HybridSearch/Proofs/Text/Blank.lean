import HybridSearch.Text.Blank
import Mathlib.Data.List.TakeWhile

/-!
# White space

The characters with the Unicode property `White_Space`, one by one, and texts of them.

* `Text.WhiteSpace`: the property.
* `Text.isBlank_iff`, `Text.isBlankText_iff`: it is what is looked for in characters and texts.
* `Text.blank_of_trimChars_eq_nil`: only white space is trimmed away.
-/
namespace HybridSearch.Text

/-- A character has the property `White_Space`. -/
def WhiteSpace (c : Char) : Prop :=
  c ∈ ['\t', '\n', '\x0b', '\x0c', '\r', ' ', '\u0085', '\u00a0', '\u1680', '\u2028', '\u2029',
    '\u202f', '\u205f', '\u3000'] ∨ '\u2000' ≤ c ∧ c ≤ '\u200a'

theorem isBlank_iff {c : Char} : isBlank c = true ↔ WhiteSpace c := by
  have hle {a b : Char} : a ≤ b ↔ a.toNat ≤ b.toNat := UInt32.le_iff_toNat_le
  simp only [isBlank, blankRanges, WhiteSpace, List.any_cons, List.any_nil, Bool.or_eq_true,
    Bool.and_eq_true, decide_eq_true_eq, List.mem_cons, List.not_mem_nil, ← Char.toNat_inj, hle,
    Char.reduceToNat, Bool.false_eq_true, or_false]
  constructor
  · intro h
    omega
  · intro h
    omega

instance (c : Char) : Decidable (WhiteSpace c) :=
  decidable_of_iff _ isBlank_iff

theorem isBlankText_iff {s : String} : isBlankText s = true ↔ ∀ c ∈ s.toList, WhiteSpace c := by
  simp only [isBlankText, List.all_eq_true, isBlank_iff]

theorem blank_of_trimChars_eq_nil {cs : List Char} (h : trimChars cs = []) :
    ∀ c ∈ cs, isBlank c = true := by
  rw [trimChars, List.reverse_eq_nil_iff, List.dropWhile_eq_nil_iff] at h
  intro c hc
  rw [← List.takeWhile_append_dropWhile (p := isBlank) (l := cs)] at hc
  rcases List.mem_append.mp hc with htake | hdrop
  · have hall := List.all_takeWhile (p := isBlank) (l := cs)
    exact List.all_eq_true.mp hall c htake
  · exact h c (List.mem_reverse.mpr hdrop)

end HybridSearch.Text
