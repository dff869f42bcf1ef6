/-!
# Words

A word is a non-empty text of ASCII letters, digits and underscores. Words are the only names that
a query or an index may hold, so that no name can end a clause early.
-/
namespace HybridSearch.Text

def isWordChar (c : Char) : Bool :=
  c.isAlphanum || c == '_'

def isWord (s : String) : Bool :=
  !s.toList.isEmpty && s.toList.all isWordChar

theorem isWord_iff {s : String} :
    isWord s = true ↔ s ≠ "" ∧ ∀ c ∈ s.toList, c.isAlphanum = true ∨ c = '_' := by
  simp [isWord, isWordChar]

theorem isWordChar_of_isWord {s : String} (h : isWord s = true) :
    ∀ c ∈ s.toList, isWordChar c = true := by
  rw [isWord, Bool.and_eq_true, List.all_eq_true] at h
  exact h.2

/-- The text with its ASCII capitals in lower case and every other character kept. -/
def lowerAscii (s : String) : String :=
  s.map Char.toLower

theorem lowerAscii_eq_self {s : String} (h : s.toList.all (fun c => c.toLower == c) = true) :
    lowerAscii s = s := by
  have hself : s.toList.map Char.toLower = s.toList.map id :=
    List.map_congr_left fun c hc => eq_of_beq (List.all_eq_true.mp h c hc)
  rw [lowerAscii, ← String.toList_inj, String.toList_map, hself, List.map_id]

end HybridSearch.Text
