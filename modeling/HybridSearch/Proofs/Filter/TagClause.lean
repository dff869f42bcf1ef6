import HybridSearch.Proofs.Filter.Offences
import HybridSearch.Proofs.Text.Tags

/-!
# Tags in their clause

The clause of a condition on tags has the tags between braces. A tag can be any text but the empty
one, with braces and bars of its own, and still the tags come back as they were and the clause ends
where its last brace stands.

* `Filter.compile_tag`: the clause of a condition on a declared tag field.
* `Filter.tags_survive_escaping`: what is read of the tags, and where the clause ends.
-/
namespace HybridSearch

open Text

variable {values : List String}

theorem Predicate.operandFault?_tag (field : String) (h : values ≠ [])
    (hne : ∀ v ∈ values, v ≠ "") : (Predicate.tag field values).operandFault? = none := by
  rw [operandFault?_eq_none_iff]
  rintro e ⟨hbad⟩
  rcases hbad with rfl | hempty
  · exact h rfl
  · exact hne "" hempty rfl

/-- The text before the closing brace of a clause on tags. -/
def tagClauseHead (field : String) (values : List String) : String :=
  "@" ++ field ++ ":\x7b" ++ joinTags values

theorem Predicate.fragment_tag (field : String) (values : List String) :
    (Predicate.tag field values).fragment = tagClauseHead field values ++ "\x7d" := by
  have hopening : (":\x7b" : String) = ":" ++ "\x7b" := rfl
  have hfragment : (Predicate.tag field values).fragment =
      "@" ++ field ++ ":" ++ tagText values := rfl
  rw [hfragment, tagText, ← joinTags, tagClauseHead, hopening]
  simp only [String.append_assoc]

theorem lacks_tagClauseHead {field : String} (h : isWord field = true) (values : List String) :
    Lacks '}' (tagClauseHead field values) := by
  have hfield : Lacks '}' field := .of_all (isWordChar_of_isWord h) rfl rfl
  exact (Lacks.enclosed (.of_all_ne (by decide)) hfield (.of_all_ne (by decide))).append
    (lacks_joinTags rfl (by decide) values)

namespace Filter

theorem compile_tag {s : Schema} {f : Field} (hf : f ∈ s.fields) (hkind : f.type.IsOf .tag)
    (h : values ≠ []) (hne : ∀ v ∈ values, v ≠ "") :
    (leaf (.tag f.name values)).compile s = .ok (tagClauseHead f.name values ++ "\x7d") := by
  have hfault : (leaf (.tag f.name values)).firstFault? s = none := by
    rw [firstFault?_leaf, Predicate.fault?_eq, Predicate.operandFault?_tag f.name h hne,
      Option.none_or, Predicate.fieldFault?_eq_none_iff rfl]
    exact ⟨f, hf, rfl, FieldType.isOf_iff.mp hkind⟩
  have hcanonical : (leaf (.tag f.name values)).canonical = some (.leaf (.tag f.name values)) :=
    canonical_leaf nofun
  rw [compile_eq, hfault, canonicalText?, hcanonical, ← Predicate.fragment_tag]
  rfl

/-- Tags are written so that they can be told apart again. Reading the text between the braces gives
back the list of tags; the only reserved or blank characters in it that no backslash protects are
the bars, one behind each tag but the last; and the only unprotected closing brace of the clause is
its last character. -/
theorem tags_survive_escaping (h : values ≠ []) :
    readTags (joinTags values) = values ∧
      (∀ i c, (i, c) ∈ bare (joinTags values) ∧ (WhiteSpace c ∨ c ∈ tagPunctuation) ↔
        c = '|' ∧ ∃ k, 0 < k ∧ k < values.length ∧ i = (joinTags (values.take k)).length) ∧
      ((∀ v ∈ values, v ≠ "") → ∀ (s : Schema), ∀ f ∈ s.fields, f.type.IsOf .tag →
        ∃ text, (leaf (.tag f.name values)).compile s = .ok text ∧
          text = "@" ++ f.name ++ ":\x7b" ++ joinTags values ++ "\x7d" ∧
          ∀ i, (i, '}') ∈ bare text ↔ i + 1 = text.length) := by
  refine ⟨readTags_joinTags h, fun i c => ?_, fun hne s f hf hkind => ?_⟩
  · have hreserved : (WhiteSpace c ∨ c ∈ tagPunctuation) ↔ tagReserved c = true := by
      rw [tagReserved, Bool.or_eq_true, List.contains_iff_mem, isBlank_iff]
    rw [hreserved]
    constructor
    · rintro ⟨hmem, hc⟩
      exact (mem_bare_joinTags_iff hc).mp hmem
    · rintro ⟨rfl, hbar⟩
      exact ⟨(mem_bare_joinTags_iff rfl).mpr ⟨rfl, hbar⟩, rfl⟩
  · refine ⟨_, compile_tag hf hkind h hne, rfl, fun i => ?_⟩
    exact (lacks_tagClauseHead (s.isWord_of_mem hf) values).mem_bare_last_iff (by decide)

/-- Tags with a bar, a backslash at the end, a brace and a blank. -/
def awkwardTags : List String :=
  ["a|b\\", "\x7d ", "c"]

def taggedUsers : Schema :=
  { name := "users", fields := [{ name := "user", type := .tag {} }], checked := rfl }

theorem awkwardTags_survive :
    let written := "@user:\x7ba\\|b\\\\|\\\x7d\\ |c\x7d"
    awkwardTags ≠ [] ∧ readTags "a\\|b\\\\|\\\x7d\\ |c" = awkwardTags ∧
      (6, '|') ∈ bare "a\\|b\\\\|\\\x7d\\ |c" ∧
      (leaf (.tag "user" awkwardTags)).compile taggedUsers = .ok written ∧
      ∀ i, (i, '}') ∈ bare written ↔ i + 1 = written.length := by
  intro written
  have hne : awkwardTags ≠ [] := by decide
  have hjoined : joinTags awkwardTags = "a\\|b\\\\|\\\x7d\\ |c" := by decide +kernel
  obtain ⟨hread, hbars, hclause⟩ := tags_survive_escaping hne
  rw [hjoined] at hread hbars
  obtain ⟨text, hcompile, htext, hbrace⟩ :=
    hclause (by decide) taggedUsers { name := "user", type := .tag {} } (by decide) (.tag {})
  rw [hjoined] at htext
  obtain rfl : text = written := htext.trans (by decide +kernel)
  have hbar := (hbars 6 '|').mpr ⟨rfl, 1, by decide, by decide, by decide +kernel⟩
  exact ⟨hne, hread, hbar.1, hcompile, hbrace⟩

end Filter
end HybridSearch
