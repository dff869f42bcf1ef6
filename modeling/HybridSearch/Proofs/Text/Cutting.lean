import HybridSearch.Proofs.Text.Signs

/-!
# Cutting a text

A text is cut at the first place where a character stands unprotected. A text made of parts without
that character, and without a backslash left open, can only be cut between the parts.

* `Text.occurrences`, `Text.cut?`: how often a character stands unprotected, and the cut at the
  first place.
* `Text.Lacks`: a text in which it never does, whatever follows.
* `Lacks.append`, `Lacks.intercalate`, `lacks_escapeText`: texts of that kind.
* `Lacks.occurrences_between`, `Lacks.cut?_between`: two such texts with the character between them.
-/
namespace HybridSearch.Text

/-- How often the character stands in the text without a backslash before it. -/
def occurrences (c : Char) (text : String) : Nat :=
  (signs text.toList).count (plain c)

/-- The characters before and after the first place where `c` stands unprotected. -/
def cutChars? (c : Char) : List Char → Option (List Char × List Char)
  | '\\' :: d :: rest => (cutChars? c rest).map fun parts => ('\\' :: d :: parts.1, parts.2)
  | d :: rest =>
    if d = c then some ([], rest)
    else (cutChars? c rest).map fun parts => (d :: parts.1, parts.2)
  | [] => none

/-- The texts before and after the first place where `c` stands unprotected; none if there is no
such place. -/
def cut? (c : Char) (text : String) : Option (String × String) :=
  (cutChars? c text.toList).map fun parts => (String.ofList parts.1, String.ofList parts.2)

variable {c : Char}

/-- The part of a text behind its first sign has no open backslash either. -/
theorem Spells.of_cons {cs : List Char} {sign : Sign} (ds : List Char)
    (h : Spells (ds ++ cs) (sign :: signs cs))
    (hstep : ∀ more, signs (ds ++ cs ++ more) = sign :: signs (cs ++ more)) :
    Spells cs (signs cs) := by
  intro more
  have hmore := h more
  rw [hstep] at hmore
  exact (List.cons.inj hmore).2

theorem cutChars?_append (hc : c ≠ '\\') {cs : List Char} (h : Spells cs (signs cs))
    (habsent : plain c ∉ signs cs) (rest : List Char) :
    cutChars? c (cs ++ c :: rest) = some (cs, rest) := by
  induction cs using signs.induct with
  | case1 d cs ih =>
    have hsigns : ∀ more, signs ('\\' :: d :: cs ++ more) = ⟨d, true⟩ :: signs (cs ++ more) :=
      fun _ => rfl
    have hread : signs ('\\' :: d :: cs) = ⟨d, true⟩ :: signs cs := rfl
    rw [hread] at h habsent
    have htail : Spells cs (signs cs) := Spells.of_cons ['\\', d] h hsigns
    have hcut := ih htail fun hmem => habsent (List.mem_cons_of_mem _ hmem)
    rw [List.cons_append, List.cons_append, cutChars?, hcut]
    rfl
  | case2 d cs hpair ih =>
    have hslash : d ≠ '\\' := by
      rintro rfl
      -- A backslash that is not followed by a character would protect the next one.
      cases cs with
      | nil => cases h [' ']
      | cons e cs => exact hpair e cs rfl rfl
    have hsigns : ∀ more, signs (d :: cs ++ more) = plain d :: signs (cs ++ more) :=
      fun more => signs_cons hslash (cs ++ more)
    have hread : signs (d :: cs) = plain d :: signs cs := signs_cons hslash cs
    rw [hread] at h habsent
    have htail : Spells cs (signs cs) := Spells.of_cons [d] h hsigns
    have hdc : d ≠ c := by
      rintro rfl
      exact habsent List.mem_cons_self
    have hcut := ih htail fun hmem => habsent (List.mem_cons_of_mem _ hmem)
    rw [List.cons_append, cutChars?, if_neg hdc, hcut]
    · rfl
    · exact fun _ _ hd => absurd hd hslash
  | case3 =>
    rw [List.nil_append, cutChars?, if_pos rfl]
    exact fun _ _ hslash => absurd hslash hc

/-! ## Texts without the character -/

/-- The character never stands unprotected in the text, and no backslash at the end of the text
could protect what follows. -/
structure Lacks (c : Char) (text : String) : Prop where
  closed : Spells text.toList (signs text.toList)
  absent : plain c ∉ signs text.toList

namespace Lacks

variable {s t : String}

theorem of_spells {read : List Sign} (h : Spells t.toList read) (habsent : plain c ∉ read) :
    Lacks c t := by
  obtain rfl := h.signs_eq
  exact ⟨h, habsent⟩

/-- A text in which neither the character nor a backslash occurs. -/
theorem of_ne (h : ∀ d ∈ t.toList, d ≠ '\\' ∧ d ≠ c) : Lacks c t := by
  have hslash : '\\' ∉ t.toList := fun hmem => (h _ hmem).1 rfl
  have habsent : c ∉ t.toList := fun hmem => (h _ hmem).2 rfl
  exact of_spells (spells_of_plain hslash) fun hmem => habsent (plain_mem_map_plain.mp hmem)

/-- The same for a text that is written out. -/
theorem of_all_ne (h : (t.toList.all fun d => d != '\\' && d != c) = true) : Lacks c t :=
  of_ne (by simpa using h)

/-- A text of characters of a class that neither the character nor the backslash belongs to. -/
theorem of_all {p : Char → Bool} (h : ∀ d ∈ t.toList, p d = true) (hslash : p '\\' = false)
    (hc : p c = false) : Lacks c t := by
  refine of_ne fun d hd => ⟨?_, ?_⟩
  · rintro rfl
    rw [h _ hd] at hslash
    cases hslash
  · rintro rfl
    rw [h _ hd] at hc
    cases hc

theorem append (hs : Lacks c s) (ht : Lacks c t) : Lacks c (s ++ t) := by
  have hspells : Spells (s ++ t).toList (signs s.toList ++ signs t.toList) := by
    rw [String.toList_append]
    exact hs.closed.append ht.closed
  refine of_spells hspells fun hmem => ?_
  rcases List.mem_append.mp hmem with hmem | hmem
  · exact hs.absent hmem
  · exact ht.absent hmem

theorem enclosed {opening closing : String} (ho : Lacks c opening) (ht : Lacks c t)
    (hc : Lacks c closing) : Lacks c (opening ++ t ++ closing) :=
  (ho.append ht).append hc

theorem intercalate {separator : String} (hseparator : Lacks c separator) {parts : List String}
    (h : ∀ part ∈ parts, Lacks c part) : Lacks c (separator.intercalate parts) := by
  induction parts with
  | nil => exact of_ne nofun
  | cons part parts ih =>
    have hpart := h part List.mem_cons_self
    have hparts := ih fun part' h' => h part' (List.mem_cons_of_mem part h')
    cases parts with
    | nil => simpa using hpart
    | cons next rest =>
      rw [String.intercalate_cons_cons]
      exact (hpart.append hseparator).append hparts

theorem occurrences_eq_zero (h : Lacks c t) : occurrences c t = 0 :=
  List.count_eq_zero_of_not_mem h.absent

section Between

variable (hs : Lacks c s) (hc : c ≠ '\\')

include hs hc

theorem occurrences_between (ht : Lacks c t) :
    occurrences c (s ++ String.singleton c ++ t) = 1 := by
  have hsigns : signs (s ++ String.singleton c ++ t).toList =
      signs s.toList ++ plain c :: signs t.toList := by
    rw [String.toList_append, String.toList_append, List.append_assoc, hs.closed,
      String.toList_singleton, List.singleton_append, signs_cons hc]
  have hbefore : (signs s.toList).count (plain c) = 0 := hs.occurrences_eq_zero
  have hafter : (signs t.toList).count (plain c) = 0 := ht.occurrences_eq_zero
  rw [occurrences, hsigns, List.count_append, List.count_cons_self, hbefore, hafter]

theorem cut?_between (t : String) : cut? c (s ++ String.singleton c ++ t) = some (s, t) := by
  have hchars : (s ++ String.singleton c ++ t).toList = s.toList ++ c :: t.toList := by
    rw [String.toList_append, String.toList_append, List.append_assoc, String.toList_singleton,
      List.singleton_append]
  rw [cut?, hchars, cutChars?_append hc hs.closed hs.absent, Option.map_some,
    String.ofList_toList, String.ofList_toList]

end Between

end Lacks

/-! ## Escaped texts -/

theorem lacks_escape {reserved : Char → Bool} (hslash : reserved '\\' = true)
    (hc : reserved c = true) (cs : List Char) : Lacks c (String.ofList (escape reserved cs)) := by
  have hspells : Spells (String.ofList (escape reserved cs)).toList (escapedSigns reserved cs) := by
    rw [String.toList_ofList]
    exact spells_escape hslash cs
  exact .of_spells hspells (plain_not_mem_escapedSigns hc cs)

theorem lacks_escapeText (hc : c ∈ textPunctuation) (pattern : String) (fuzzy : Bool) :
    Lacks c (escapeText pattern fuzzy) := by
  have hreserved : textReserved fuzzy c = true := by simp [textReserved, hc]
  exact lacks_escape (by cases fuzzy <;> rfl) hreserved pattern.toList

end HybridSearch.Text
