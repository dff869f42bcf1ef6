import HybridSearch.Proofs.Filter.Offences
import HybridSearch.Proofs.Filter.Reading
import HybridSearch.Proofs.Number.Characters
import HybridSearch.Proofs.Text.Tags
import Mathlib.Data.List.TakeWhile

/-!
# Conditions read back

What a query text keeps of a condition: the tags themselves, the texts of the numbers, and a pattern
in which wildcards are told apart from the same characters as literals. A condition that passes its
checks is written so that exactly this is read from it.

* `Predicate.condition`: what is to be read.
* `Readable`: a text that stands for a clause.
* `Predicate.readable_fragment`: the text of a condition stands for it.
-/
namespace HybridSearch

open Text Reader

/-! ## What is to be read -/

namespace Predicate

/-- A pattern as it is read: the characters that stand for others, and all the others. A fuzzy
pattern without a wildcard gets one at its end. -/
def patternParts (pattern : String) (fuzzy : Bool) : List PatternPart :=
  let cs := trimChars pattern.toList
  if fuzzy then
    (cs.map fun c => if isWildcard c then .wildcard c else .literal c) ++
      if cs.any isWildcard then [] else [.wildcard '*']
  else cs.map .literal

/-- A condition as it is read. Nothing is written for the one that every document matches. -/
def condition : Predicate → Condition
  | tag field values => ⟨field, .tags values⟩
  | range field lower upper => ⟨field, .range lower.lowerText upper.upperText⟩
  | geo field lon lat radius unit =>
    ⟨field, .circle (Number.sixPlaces lon) (Number.sixPlaces lat) radius.text unit⟩
  | text field pattern fuzzy => ⟨field, .pattern (patternParts pattern fuzzy)⟩
  | all => ⟨"", .pattern []⟩

end Predicate

def Writes (t : String) (operand : Operand) : Prop :=
  ∃ read, Spells t.toList read ∧ Fills read operand

/-- The text stands for the clause wherever an expression may stand, whatever follows it. -/
structure Readable (t : String) (c : Clause Condition) : Prop where
  spells : Spells t.toList (signs t.toList)
  expresses : Expresses (signs t.toList) c

theorem Readable.of_spells {t : String} {read : List Sign} {c : Clause Condition}
    (hspells : Spells t.toList read) (h : Expresses read c) : Readable t c := by
  obtain rfl := hspells.signs_eq
  exact ⟨hspells, h⟩

/-! ## Tags -/

theorem spells_tagText (values : List String) :
    Spells (Predicate.tagText values).toList
      (plain '{' :: (tagSigns values ++ [plain '}'])) := by
  have htext : (Predicate.tagText values).toList =
      ['{'] ++ ((joinTags values).toList ++ ['}']) := by
    rw [Predicate.tagText, String.toList_append, String.toList_append, List.append_assoc]
    rfl
  rw [htext]
  exact (spells_char '{' (by decide)).append
    ((spells_joinTags values).append (spells_char '}' (by decide)))

theorem fills_tags {values : List String} (h : values ≠ []) :
    Fills (plain '{' :: (tagSigns values ++ [plain '}'])) (.tags values) := by
  refine fills_brackets .braces rfl (plain_not_mem_tagSigns rfl (by decide)) ?_
  rw [Bracket.operand?, map_value_splitOn_tagSigns h]

/-! ## Numbers -/

/-- Whether a character may stand between square brackets, blanks apart. -/
def isOperandChar (c : Char) : Bool :=
  Number.isNumberChar c || c == '(' || c == '+'

theorem isOperandChar_of_isNumberChar {c : Char} (h : Number.isNumberChar c = true) :
    isOperandChar c = true := by
  simp [isOperandChar, h]

theorem isOperandChar_of_mem_text (x : Binary64) : ∀ c ∈ x.text.toList, isOperandChar c = true :=
  fun c hc => isOperandChar_of_isNumberChar (Number.Style.isNumberChar_of_mem_text x c hc)

theorem isOperandChar_of_mem_sixPlaces (x : Binary64) :
    ∀ c ∈ (Number.sixPlaces x).toList, isOperandChar c = true :=
  fun c hc => isOperandChar_of_isNumberChar (Number.isNumberChar_of_mem_sixPlaces x c hc)

theorem isOperandChar_of_mem_unit (unit : GeoUnit) :
    ∀ c ∈ unit.text.toList, isOperandChar c = true := by
  cases unit <;> exact List.all_eq_true.mp (by decide)

theorem isOperandChar_of_mem_bound {infinity : String}
    (h : ∀ c ∈ infinity.toList, isOperandChar c = true) (bound : Bound) :
    ∀ c ∈ (bound.text infinity).toList, isOperandChar c = true := by
  cases bound with
  | unbounded => exact h
  | inclusive x => exact isOperandChar_of_mem_text x
  | exclusive x =>
    intro c hc
    rw [Bound.text, String.toList_append] at hc
    rcases List.mem_append.mp hc with hparenthesis | hnumber
    · obtain rfl : c = '(' := by simpa using hparenthesis
      rfl
    · exact isOperandChar_of_mem_text x c hnumber

section Squares

variable {words : List String}

theorem spells_squares (h : ∀ w ∈ words, ∀ c ∈ w.toList, isOperandChar c = true) :
    Spells ("[" ++ " ".intercalate words ++ "]").toList
      (plain '[' :: ([plain ' '].intercalate (words.map fun w => w.toList.map plain) ++
        [plain ']'])) := by
  have hwords : Spells ([' '].intercalate (words.map String.toList))
      ([plain ' '].intercalate (words.map fun w => w.toList.map plain)) := by
    refine Spells.intercalate (spells_char ' ' (by decide)) fun w hw => ?_
    refine spells_of_plain fun hmem => ?_
    have := h w hw _ hmem
    revert this
    decide
  rw [String.toList_append, String.toList_append, String.toList_intercalate, List.append_assoc]
  exact (spells_char '[' (by decide)).append
    (hwords.append (spells_char ']' (by decide)))

theorem fills_squares (h : ∀ w ∈ words, ∀ c ∈ w.toList, isOperandChar c = true)
    {operand : Operand} (hne : words ≠ [])
    (hoperand : ∀ read : List Sign, (read.splitOn (plain ' ')).map value = words →
      Bracket.squares.operand? read = some operand) :
    Fills (plain '[' :: ([plain ' '].intercalate (words.map fun w => w.toList.map plain) ++
      [plain ']'])) operand := by
  have hrows : ∀ {c : Char}, isOperandChar c = false →
      ∀ row ∈ words.map fun w => w.toList.map plain, plain c ∉ row := by
    intro c hc row hrow hmem
    obtain ⟨w, hw, rfl⟩ := List.mem_map.mp hrow
    have := h w hw c (plain_mem_map_plain.mp hmem)
    rw [hc] at this
    cases this
  refine fills_brackets .squares rfl (not_mem_intercalate (by decide) (hrows rfl)) ?_
  apply hoperand
  have hsplit : ([plain ' '].intercalate (words.map fun w => w.toList.map plain)).splitOn
      (plain ' ') = words.map fun w => w.toList.map plain :=
    List.splitOn_intercalate (plain ' ') (hrows rfl) (by simpa using hne)
  have hvalue : (value ∘ fun w : String => w.toList.map plain) = id := funext value_map_plain
  rw [hsplit, List.map_map, hvalue, List.map_id]

end Squares

theorem writes_tags {values : List String} (h : values ≠ []) :
    Writes (Predicate.tagText values) (.tags values) :=
  ⟨_, spells_tagText values, fills_tags h⟩

theorem writes_two_words {lower upper : String}
    (h : ∀ w ∈ [lower, upper], ∀ c ∈ w.toList, isOperandChar c = true) :
    Writes ("[" ++ lower ++ " " ++ upper ++ "]") (.range lower upper) := by
  have htext : "[" ++ lower ++ " " ++ upper ++ "]" =
      "[" ++ " ".intercalate [lower, upper] ++ "]" := by
    simp [String.append_assoc]
  rw [htext]
  refine ⟨_, spells_squares h, fills_squares h (by simp) ?_⟩
  intro read hread
  rw [Bracket.operand?, hread]

theorem GeoUnit.named?_text (unit : GeoUnit) : GeoUnit.named? unit.text = some unit := by
  cases unit <;> rfl

theorem writes_four_words {lon lat radius : String} {unit : GeoUnit}
    (h : ∀ w ∈ [lon, lat, radius, unit.text], ∀ c ∈ w.toList, isOperandChar c = true) :
    Writes ("[" ++ (lon ++ " " ++ lat ++ " " ++ radius ++ " " ++ unit.text) ++ "]")
      (.circle lon lat radius unit) := by
  have htext : "[" ++ (lon ++ " " ++ lat ++ " " ++ radius ++ " " ++ unit.text) ++ "]" =
      "[" ++ " ".intercalate [lon, lat, radius, unit.text] ++ "]" := by
    simp [String.append_assoc]
  rw [htext]
  refine ⟨_, spells_squares h, fills_squares h (by simp) ?_⟩
  intro read hread
  rw [Bracket.operand?, hread]
  exact congrArg (Option.map _) (GeoUnit.named?_text unit)

theorem writes_range (lower upper : Bound) :
    Writes ("[" ++ lower.lowerText ++ " " ++ upper.upperText ++ "]")
      (.range lower.lowerText upper.upperText) := by
  apply writes_two_words
  simp only [List.forall_mem_cons]
  refine ⟨?_, ?_, List.forall_mem_nil _⟩
  · exact isOperandChar_of_mem_bound (List.all_eq_true.mp (by decide)) lower
  · exact isOperandChar_of_mem_bound (List.all_eq_true.mp (by decide)) upper

theorem writes_circle (lon lat radius : Binary64) (unit : GeoUnit) :
    Writes ("[" ++ circleText lon lat radius unit ++ "]")
      (.circle (Number.sixPlaces lon) (Number.sixPlaces lat) radius.text unit) := by
  apply writes_four_words
  simp only [List.forall_mem_cons]
  refine ⟨?_, ?_, ?_, ?_, List.forall_mem_nil _⟩
  · exact isOperandChar_of_mem_sixPlaces lon
  · exact isOperandChar_of_mem_sixPlaces lat
  · exact isOperandChar_of_mem_text radius
  · exact isOperandChar_of_mem_unit unit

/-! ## Patterns -/

def patternSigns (pattern : String) (fuzzy : Bool) : List Sign :=
  let cs := trimChars pattern.toList
  escapedSigns (textReserved fuzzy) cs ++
    if fuzzy && !cs.any isWildcard then [plain '*'] else []

section Pattern

variable {pattern : String} {fuzzy : Bool}

theorem spells_patternText :
    Spells (Predicate.patternText pattern fuzzy).toList (patternSigns pattern fuzzy) := by
  have hescaped : (escapeText (trim pattern) fuzzy).toList =
      escape (textReserved fuzzy) (trimChars pattern.toList) := by
    rw [escapeText, String.toList_ofList, trim, String.toList_ofList]
  have hspells : Spells (escape (textReserved fuzzy) (trimChars pattern.toList))
      (escapedSigns (textReserved fuzzy) (trimChars pattern.toList)) :=
    spells_escape (by cases fuzzy <;> rfl) _
  have hwildcard : (escape (textReserved fuzzy) (trimChars pattern.toList)).any isWildcard =
      (trimChars pattern.toList).any isWildcard := any_escape rfl _ _
  simp only [Predicate.patternText, patternSigns, hescaped, hwildcard]
  by_cases hstar : (fuzzy && !(trimChars pattern.toList).any isWildcard) = true
  · rw [if_pos hstar, if_pos hstar, String.toList_append, hescaped]
    exact hspells.append (spells_char '*' (by decide))
  · rw [if_neg hstar, if_neg hstar, hescaped, List.append_nil]
    exact hspells

theorem part_escaped {c : Char} :
    Sign.part ⟨c, textReserved fuzzy c⟩ =
      if fuzzy && isWildcard c then .wildcard c else .literal c := by
  have hpunctuation : isWildcard c = true → c ∉ textPunctuation := by
    intro h
    rw [isWildcard, Bool.or_eq_true, beq_iff_eq, beq_iff_eq] at h
    rcases h with rfl | rfl
    · decide
    · decide
  cases hc : isWildcard c with
  | false => simp [Sign.part, hc]
  | true => cases fuzzy <;> simp [Sign.part, textReserved, hc, hpunctuation hc]

theorem map_part_patternSigns :
    (patternSigns pattern fuzzy).map Sign.part = Predicate.patternParts pattern fuzzy := by
  have hescaped : (escapedSigns (textReserved fuzzy) (trimChars pattern.toList)).map Sign.part =
      (trimChars pattern.toList).map fun c =>
        if fuzzy && isWildcard c then .wildcard c else .literal c := by
    rw [escapedSigns, List.map_map]
    exact List.map_congr_left fun c _ => part_escaped
  rw [patternSigns, Predicate.patternParts, List.map_append, hescaped]
  cases fuzzy with
  | false => simp
  | true =>
    cases hany : (trimChars pattern.toList).any isWildcard with
    | false => simp [Sign.part, plain, isWildcard]
    | true => simp

/-- What the pattern is written with has no unprotected punctuation. -/
theorem plain_not_mem_patternSigns {c : Char} (h : c ∈ textPunctuation) :
    plain c ∉ patternSigns pattern fuzzy := by
  have hreserved : textReserved fuzzy c = true := by simp [textReserved, h]
  intro hmem
  rcases List.mem_append.mp hmem with hescaped | hstar
  · exact plain_not_mem_escapedSigns hreserved _ hescaped
  · have hc : plain c = plain '*' := by
      by_cases hif : (fuzzy && !(trimChars pattern.toList).any isWildcard) = true
      · rw [if_pos hif] at hstar
        exact List.mem_singleton.mp hstar
      · rw [if_neg hif] at hstar
        cases hstar
    obtain rfl : c = '*' := congrArg Sign.char hc
    revert h
    decide

theorem patternSigns_ne_nil (h : isBlankText pattern = false) :
    patternSigns pattern fuzzy ≠ [] := by
  intro hnil
  have hescaped := (List.append_eq_nil_iff.mp hnil).1
  have htrim : trimChars pattern.toList = [] := List.map_eq_nil_iff.mp hescaped
  have hall := blank_of_trimChars_eq_nil htrim
  rw [isBlankText, List.all_eq_true.mpr hall] at h
  cases h

theorem writes_pattern (h : isBlankText pattern = false) :
    Writes (Predicate.phraseText (Predicate.patternText pattern fuzzy))
      (.pattern (Predicate.patternParts pattern fuzzy)) := by
  have hspells : Spells (Predicate.patternText pattern fuzzy).toList
      (patternSigns pattern fuzzy) := spells_patternText
  rw [Predicate.phraseText, ← map_part_patternSigns]
  by_cases hblank : (Predicate.patternText pattern fuzzy).toList.any isBlank = true
  · rw [if_pos hblank]
    refine ⟨plain '(' :: (patternSigns pattern fuzzy ++ [plain ')']), ?_, ?_⟩
    · rw [String.toList_append, String.toList_append, List.append_assoc]
      exact (spells_char '(' (by decide)).append
        (hspells.append (spells_char ')' (by decide)))
    · exact fills_brackets .parentheses rfl (plain_not_mem_patternSigns (by decide))
        rfl
  · rw [if_neg hblank]
    refine ⟨_, hspells, ?_⟩
    have hspace : plain ' ' ∉ patternSigns pattern fuzzy := by
      intro hmem
      rw [← hspells.signs_eq] at hmem
      exact hblank (List.any_eq_true.mpr ⟨' ', char_mem_of_mem_signs hmem, rfl⟩)
    have hbrackets : ∀ sign ∈ patternSigns pattern fuzzy, Bracket.ofSign? sign = none := by
      intro sign hsign
      have habsent : ∀ {c : Char}, c ∈ textPunctuation → sign ≠ plain c := by
        rintro c hc rfl
        exact plain_not_mem_patternSigns hc hsign
      rw [Bracket.ofSign?, if_neg (habsent (by decide)), if_neg (habsent (by decide)),
        if_neg (habsent (by decide))]
    have hclose : plain ')' ∉ patternSigns pattern fuzzy := plain_not_mem_patternSigns (by decide)
    have hne : patternSigns pattern fuzzy ≠ [] := patternSigns_ne_nil h
    -- The first sign opens no bracket, so the reader is inside a word from there on.
    obtain ⟨first, rest, hread⟩ := List.exists_cons_of_ne_nil hne
    rw [hread] at hspace hbrackets hclose ⊢
    exact fills_word (hbrackets first List.mem_cons_self) hspace hclose

end Pattern

/-! ## Conditions -/

namespace Predicate

variable {s : Schema} {p : Predicate}

theorem isWord_of_fault?_eq_none (h : p.fault? s = none) {field : String} {kind : FieldKind}
    (htarget : p.target? = some (field, kind)) : isWord field = true := by
  obtain ⟨f, hf, rfl⟩ := declared_of_fault?_eq_none h (target?_eq_some_iff.mp htarget)
  exact s.isWord_of_mem hf

theorem operandFault?_of_fault?_eq_none (h : p.fault? s = none) : p.operandFault? = none := by
  rw [fault?_eq] at h
  exact (Option.or_eq_none_iff.mp h).1

theorem writes_operandText (h : p.operandFault? = none) (hall : p ≠ .all) :
    Writes p.operandText p.condition.operand := by
  cases p with
  | tag field values =>
    have hne : values ≠ [] := by
      rintro rfl
      cases h
    exact writes_tags hne
  | range field lower upper => exact writes_range lower upper
  | geo field lon lat radius unit => exact writes_circle lon lat radius unit
  | text field pattern fuzzy =>
    have hblank : isBlankText pattern = false := by
      cases hb : isBlankText pattern with
      | false => rfl
      | true => simp [operandFault?, hb] at h
    exact writes_pattern hblank
  | all => exact absurd rfl hall

/-- The text of a condition that fits the schema stands for the condition. -/
theorem readable_fragment (h : p.fault? s = none) (hall : p ≠ .all) :
    Readable p.fragment (.leaf p.condition) := by
  obtain ⟨field, kind, htarget, hcondition⟩ :
      ∃ field kind, p.target? = some (field, kind) ∧ p.condition.field = field := by
    cases p with
    | all => exact absurd rfl hall
    | tag | range | geo | text => exact ⟨_, _, rfl, rfl⟩
  have hword : ∀ c ∈ field.toList, isWordChar c = true :=
    isWordChar_of_isWord (isWord_of_fault?_eq_none h htarget)
  have habsent : ∀ {c : Char}, isWordChar c = false → c ∉ field.toList := by
    intro c hc hmem
    rw [hword c hmem] at hc
    cases hc
  obtain ⟨read, hspells, hfills⟩ :=
    writes_operandText (operandFault?_of_fault?_eq_none h) hall
  have hfragment : p.fragment = "@" ++ field ++ ":" ++ p.operandText := by
    rw [fragment, field?, htarget]
    rfl
  have hexpresses := expresses_condition (habsent (c := ':') rfl) hfills
  subst hcondition
  refine Readable.of_spells ?_ hexpresses
  rw [hfragment, String.toList_append, String.toList_append, String.toList_append,
    List.append_assoc, List.append_assoc]
  exact (spells_char '@' (by decide)).append
    ((spells_of_plain (habsent rfl)).append
      ((spells_char ':' (by decide)).append hspells))

end Predicate
end HybridSearch
