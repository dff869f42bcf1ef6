import HybridSearch.Proofs.Text.Cutting

/-!
# Tags in a query text

Several tags stand in one text, escaped and with bars between them. A tag may have bars, backslashes
and blanks of its own; all of them are protected, so that the only reserved characters without a
backslash are the bars between the tags, and cutting the text there gives the tags back.

* `Text.bare`: the unprotected characters of a text, with their places.
* `Lacks.mem_bare_last_iff`: a character that stands unprotected at the end of a text alone.
* `Text.joinTags`, `Text.readTags`: tags as they are written, and what is read of a text.
* `readTags_joinTags`: reading gives the tags back.
* `mem_bare_joinTags_iff`: the reserved characters that stand unprotected, and where.
-/
namespace HybridSearch.Text

/-! ## Unprotected characters -/

/-- How many characters of a text the signs take. A protected one comes with its backslash. -/
def extent : List Sign → Nat
  | [] => 0
  | sign :: rest => (if sign.isProtected then 2 else 1) + extent rest

/-- The unprotected ones among signs that begin at a place, each with the place where it stands. -/
def bareFrom (place : Nat) : List Sign → List (Nat × Char)
  | [] => []
  | sign :: rest =>
    if sign.isProtected then bareFrom (place + 2) rest
    else (place, sign.char) :: bareFrom (place + 1) rest

/-- The characters of a text that no backslash protects, with their places. A backslash that
protects the next character is none of them. -/
def bare (text : String) : List (Nat × Char) :=
  bareFrom 0 (signs text.toList)

theorem extent_append (read more : List Sign) :
    extent (read ++ more) = extent read + extent more := by
  induction read with
  | nil => exact (Nat.zero_add _).symm
  | cons sign read ih => rw [List.cons_append, extent, extent, ih, Nat.add_assoc]

theorem extent_signs (cs : List Char) : extent (signs cs) = cs.length := by
  induction cs using signs.induct with
  | case1 c rest ih =>
    rw [signs, extent, ih, if_pos rfl, List.length_cons, List.length_cons, Nat.add_comm]
  | case2 c rest h ih =>
    have hsigns : signs (c :: rest) = plain c :: signs rest := by
      rw [signs]
      exact h
    rw [hsigns, extent, ih, plain, if_neg Bool.false_ne_true, List.length_cons, Nat.add_comm]
  | case3 => rfl

theorem bareFrom_append (place : Nat) (read more : List Sign) :
    bareFrom place (read ++ more) = bareFrom place read ++ bareFrom (place + extent read) more := by
  induction read generalizing place with
  | nil => rfl
  | cons sign read ih =>
    rw [List.cons_append, bareFrom, bareFrom, extent, ← Nat.add_assoc]
    cases sign.isProtected with
    | true => rw [if_pos rfl, if_pos rfl, if_pos rfl, ih]
    | false =>
      rw [if_neg Bool.false_ne_true, if_neg Bool.false_ne_true, if_neg Bool.false_ne_true, ih,
        List.cons_append]

theorem bareFrom_plain (place : Nat) (c : Char) (rest : List Sign) :
    bareFrom place (plain c :: rest) = (place, c) :: bareFrom (place + 1) rest :=
  rfl

theorem plain_mem_of_mem_bareFrom {place i : Nat} {c : Char} {read : List Sign}
    (h : (i, c) ∈ bareFrom place read) : plain c ∈ read := by
  induction read generalizing place with
  | nil => cases h
  | cons sign read ih =>
    obtain ⟨char, isProtected⟩ := sign
    cases isProtected with
    | true => exact List.mem_cons_of_mem _ (ih h)
    | false =>
      rcases List.mem_cons.mp h with heq | htail
      · obtain ⟨-, rfl⟩ := Prod.mk.inj heq
        exact List.mem_cons_self
      · exact List.mem_cons_of_mem _ (ih htail)

/-- Behind a text in which it never stands unprotected, a character does so at the end alone. -/
theorem Lacks.mem_bare_last_iff {c : Char} {t : String} (h : Lacks c t) (hc : c ≠ '\\') {i : Nat} :
    (i, c) ∈ bare (t ++ String.singleton c) ↔ i + 1 = (t ++ String.singleton c).length := by
  have hsigns : signs (t ++ String.singleton c).toList = signs t.toList ++ [plain c] := by
    rw [String.toList_append, String.toList_singleton, h.closed, signs_cons hc]
    rfl
  have hbefore : (i, c) ∉ bareFrom 0 (signs t.toList) :=
    fun hmem => h.absent (plain_mem_of_mem_bareFrom hmem)
  rw [bare, hsigns, bareFrom_append, bareFrom_plain, extent_signs, Nat.zero_add, List.mem_append,
    or_iff_right hbefore, bareFrom, List.mem_singleton, Prod.mk.injEq, and_iff_left rfl,
    String.length_append, String.length_singleton, Nat.add_right_cancel_iff, String.length_toList]

/-! ## Tags with bars between them -/

/-- The text of several tags. -/
def joinTags (values : List String) : String :=
  "|".intercalate (values.map escapeTag)

def tagSigns (values : List String) : List Sign :=
  [plain '|'].intercalate (values.map fun v => escapedSigns tagReserved v.toList)

/-- The tags of a text: what stands between the unprotected bars, a protected character being that
character. -/
def readTags (text : String) : List String :=
  ((signs text.toList).splitOn (plain '|')).map value

variable {values : List String}

theorem spells_joinTags (values : List String) :
    Spells (joinTags values).toList (tagSigns values) := by
  have hmap : (String.toList ∘ escapeTag) = fun v => escape tagReserved v.toList :=
    funext fun v => String.toList_ofList
  rw [joinTags, String.toList_intercalate, List.map_map, hmap]
  exact Spells.intercalate (spells_char '|' (by decide)) fun v _ => spells_escape rfl v.toList

theorem plain_not_mem_tagRow {c : Char} (h : tagReserved c = true) :
    ∀ row ∈ values.map fun v => escapedSigns tagReserved v.toList, plain c ∉ row := by
  intro row hrow
  obtain ⟨v, -, rfl⟩ := List.mem_map.mp hrow
  exact plain_not_mem_escapedSigns h v.toList

/-- A reserved character other than the bar never stands unprotected. -/
theorem plain_not_mem_tagSigns {c : Char} (h : tagReserved c = true) (hc : c ≠ '|') :
    plain c ∉ tagSigns values :=
  not_mem_intercalate (fun heq => hc (congrArg Sign.char heq)) (plain_not_mem_tagRow h)

theorem lacks_joinTags {c : Char} (h : tagReserved c = true) (hc : c ≠ '|')
    (values : List String) : Lacks c (joinTags values) :=
  .of_spells (spells_joinTags values) (plain_not_mem_tagSigns h hc)

theorem map_value_splitOn_tagSigns (h : values ≠ []) :
    ((tagSigns values).splitOn (plain '|')).map value = values := by
  have hsplit : (tagSigns values).splitOn (plain '|') =
      values.map fun v => escapedSigns tagReserved v.toList :=
    List.splitOn_intercalate (plain '|') (plain_not_mem_tagRow rfl) (by simpa using h)
  have hvalue : (value ∘ fun v : String => escapedSigns tagReserved v.toList) = id :=
    funext (value_escapedSigns tagReserved)
  rw [hsplit, List.map_map, hvalue, List.map_id]

theorem readTags_joinTags (h : values ≠ []) : readTags (joinTags values) = values := by
  rw [readTags, (spells_joinTags values).signs_eq, map_value_splitOn_tagSigns h]

/-! ## Where the bars stand -/

theorem tagSigns_singleton (v : String) :
    tagSigns [v] = escapedSigns tagReserved v.toList := by
  rw [tagSigns, List.map_singleton, List.intercalate_singleton]

theorem tagSigns_cons (v : String) (h : values ≠ []) :
    tagSigns (v :: values) =
      escapedSigns tagReserved v.toList ++ plain '|' :: tagSigns values := by
  obtain ⟨w, rest, rfl⟩ := List.exists_cons_of_ne_nil h
  rw [tagSigns, List.map_cons, List.map_cons, List.intercalate_cons_cons, List.append_assoc]
  rfl

theorem extent_tagSigns (values : List String) :
    extent (tagSigns values) = (joinTags values).length := by
  rw [← (spells_joinTags values).signs_eq, extent_signs, String.length_toList]

/-- What the first tags take, one more of them than the first ones of the rest. -/
theorem extent_tagSigns_take (v : String) {k : Nat} (hk : 0 < k) (h : values ≠ []) :
    extent (tagSigns ((v :: values).take (k + 1))) =
      extent (tagSigns [v]) + (1 + extent (tagSigns (values.take k))) := by
  have hne : values.take k ≠ [] := by
    rw [Ne, List.take_eq_nil_iff, not_or]
    exact ⟨Nat.pos_iff_ne_zero.mp hk, h⟩
  rw [List.take_succ_cons, tagSigns_cons v hne, extent_append, tagSigns_singleton]
  rfl

/-- The place of a bar between tags that begin at a place: it stands behind the first `k` of
them. -/
def IsBarPlace (place : Nat) (values : List String) (i : Nat) : Prop :=
  ∃ k, 0 < k ∧ k < values.length ∧ i = place + extent (tagSigns (values.take k))

section Reserved

variable {place i : Nat} {c : Char}

theorem not_isBarPlace_singleton (v : String) : ¬IsBarPlace place [v] i := by
  rintro ⟨k, hpos, hlt, -⟩
  rw [List.length_singleton] at hlt
  omega

/-- The bar behind the first tag stands before the bars of the others. -/
theorem isBarPlace_cons_iff (v : String) (h : values ≠ []) :
    IsBarPlace place (v :: values) i ↔
      i = place + extent (tagSigns [v]) ∨
        IsBarPlace (place + extent (tagSigns [v]) + 1) values i := by
  rw [IsBarPlace, List.length_cons]
  constructor
  · rintro ⟨k, hk, hlt, rfl⟩
    match k, hk with
    | 1, _ => exact .inl rfl
    | k + 2, _ =>
      have hpos : 0 < k + 1 := Nat.succ_pos k
      refine .inr ⟨k + 1, hpos, by omega, ?_⟩
      rw [extent_tagSigns_take v hpos h]
      omega
  · rintro (rfl | ⟨k, hk, hlt, rfl⟩)
    · have hpos := List.length_pos_iff.mpr h
      exact ⟨1, Nat.one_pos, by omega, rfl⟩
    · refine ⟨k + 1, Nat.succ_pos k, by omega, ?_⟩
      rw [extent_tagSigns_take v hk h]
      omega

theorem not_mem_bareFrom_tagSigns_singleton (hc : tagReserved c = true) (v : String) :
    (i, c) ∉ bareFrom place (tagSigns [v]) := by
  intro hmem
  rw [tagSigns_singleton] at hmem
  exact plain_not_mem_escapedSigns hc v.toList (plain_mem_of_mem_bareFrom hmem)

/-- The reserved characters that stand unprotected are the bars. -/
theorem mem_bareFrom_tagSigns_iff (hc : tagReserved c = true) :
    (i, c) ∈ bareFrom place (tagSigns values) ↔ c = '|' ∧ IsBarPlace place values i := by
  induction values generalizing place with
  | nil => simp [tagSigns, bareFrom, IsBarPlace]
  | cons v values ih =>
    have hown : (i, c) ∉ bareFrom place (tagSigns [v]) := not_mem_bareFrom_tagSigns_singleton hc v
    by_cases hvalues : values = []
    · subst hvalues
      exact iff_of_false hown fun h => not_isBarPlace_singleton v h.2
    · calc (i, c) ∈ bareFrom place (tagSigns (v :: values))
          ↔ (i = place + extent (tagSigns [v]) ∧ c = '|') ∨
              (i, c) ∈ bareFrom (place + extent (tagSigns [v]) + 1) (tagSigns values) := by
            rw [tagSigns_cons v hvalues, ← tagSigns_singleton, bareFrom_append, bareFrom_plain,
              List.mem_append, or_iff_right hown, List.mem_cons, Prod.mk.injEq]
        _ ↔ (i = place + extent (tagSigns [v]) ∧ c = '|') ∨
              (c = '|' ∧ IsBarPlace (place + extent (tagSigns [v]) + 1) values i) :=
            or_congr_right ih
        _ ↔ c = '|' ∧ IsBarPlace place (v :: values) i := by
            rw [isBarPlace_cons_iff v hvalues, and_or_left, and_comm]

theorem mem_bare_joinTags_iff (hc : tagReserved c = true) :
    (i, c) ∈ bare (joinTags values) ↔ c = '|' ∧
      ∃ k, 0 < k ∧ k < values.length ∧ i = (joinTags (values.take k)).length := by
  rw [bare, (spells_joinTags values).signs_eq, mem_bareFrom_tagSigns_iff hc, IsBarPlace]
  simp only [Nat.zero_add, extent_tagSigns]

end Reserved

end HybridSearch.Text
