import HybridSearch.Proofs.Filter.Operands

/-!
# Query texts are uniquely readable

The text of a filter that compiles is read back as the canonical clause of the filter, with its
conditions as far as the text keeps them. So two filters with one text have one clause.

* `Filter.canonical_induct`: what holds of conditions and passes to groups and negations holds of
  every part of a canonical clause.
* `Filter.conditions`: the canonical clause as it is to be read.
* `compile_uniquely_readable`: the reader gives it back.
-/
namespace HybridSearch

open Text Reader

namespace Clause

theorem of_ofMembers?_eq_some {α : Type} {motive : Clause α → Prop} {op : Connective}
    (group : ∀ c d rest, (∀ x ∈ c :: d :: rest, motive x) → motive (group op (c :: d :: rest)))
    {members : List (Clause α)} (h : ∀ x ∈ members, motive x) {c : Clause α}
    (hc : ofMembers? op members = some c) : motive c := by
  match members, h, hc with
  | [d], h, hc =>
    obtain rfl : d = c := Option.some.inj hc
    exact h d List.mem_cons_self
  | d :: e :: rest, h, hc =>
    obtain rfl : Clause.group op (d :: e :: rest) = c := Option.some.inj hc
    exact group d e rest h

end Clause

namespace Filter

/-! ## Along the canonical clause -/

/-- Induction along a canonical clause: its conditions stand in the filter, and its groups have two
members or more. The members of a chain are counted in, since the recursion passes through them. -/
theorem canonical_induct {motive : Clause Predicate → Prop}
    (group : ∀ op c d rest, (∀ x ∈ c :: d :: rest, motive x) → motive (.group op (c :: d :: rest)))
    (not : ∀ c, motive c → motive (.not c)) (f : Filter)
    (leaf : ∀ p, leaf p ∈ f.postorder → p ≠ .all → motive (.leaf p)) :
    (∀ c, f.canonical = some c → motive c) ∧ ∀ op, ∀ c ∈ f.members op, motive c := by
  have alone : ∀ {g : Filter} {op : Connective}, g.chain op = [g] →
      (∀ c, g.canonical = some c → motive c) → ∀ c ∈ g.members op, motive c := by
    intro g op hg h c hc
    rw [members_alone hg, Option.mem_toList] at hc
    exact h c hc
  induction f with
  | leaf p =>
    have hleaf : ∀ c, (Filter.leaf p).canonical = some c → motive c := by
      intro c hc
      by_cases hall : p = .all
      · rw [canonical_leaf_eq_none_iff.mpr hall] at hc
        cases hc
      · rw [canonical_leaf hall] at hc
        obtain rfl := Option.some.inj hc
        exact leaf p List.mem_cons_self hall
    exact ⟨hleaf, fun op => alone rfl hleaf⟩
  | not f ih =>
    have hbelow := (ih fun p hp => leaf p (List.mem_append_left _ hp)).1
    have hnot : ∀ c, (Filter.not f).canonical = some c → motive c := by
      intro c hc
      rw [canonical, Option.map_eq_some_iff] at hc
      obtain ⟨d, hd, rfl⟩ := hc
      exact not d (hbelow d hd)
    exact ⟨hnot, fun op => alone rfl hnot⟩
  | join own left right ihl ihr =>
    have hmembers : ∀ c ∈ (join own left right).members own, motive c := by
      intro c hc
      rw [members_join_self] at hc
      rcases List.mem_append.mp hc with hl | hr
      · refine (ihl fun p hp => leaf p ?_).2 own c hl
        exact List.mem_append_left _ (List.mem_append_left _ hp)
      · refine (ihr fun p hp => leaf p ?_).2 own c hr
        exact List.mem_append_left _ (List.mem_append_right _ hp)
    have hjoin : ∀ c, (join own left right).canonical = some c → motive c := by
      intro c hc
      rw [canonical_join_members] at hc
      exact Clause.of_ofMembers?_eq_some (group own) hmembers hc
    refine ⟨hjoin, fun op => ?_⟩
    by_cases hop : own = op
    · subst hop
      exact hmembers
    · exact alone (by simp [chain, hop]) hjoin

end Filter

/-! ## Clauses -/

section Readable

variable {α : Type} {g : α → String} {k : α → Clause Condition}

theorem readable_not {t : String} {c : Clause Condition} (h : Readable t c) :
    Readable ("(-" ++ t ++ ")") (.not c) := by
  refine Readable.of_spells ?_ (expresses_not h.expresses)
  rw [String.toList_append, String.toList_append, List.append_assoc]
  exact (spells_of_plain (by decide : '\\' ∉ ['(', '-'])).append
    (h.spells.append (spells_char ')' (by decide)))

theorem readable_group {op : Connective} {x y : α} {xs : List α}
    (h : ∀ z ∈ x :: y :: xs, Readable (g z) (k z)) :
    Readable ("(" ++ op.separator.intercalate ((x :: y :: xs).map g) ++ ")")
      (.group op ((x :: y :: xs).map k)) := by
  have hexpresses : Expresses
      (plain '(' :: (op.between.intercalate ((x :: y :: xs).map fun z => signs (g z).toList) ++
        [plain ')']))
      (.group op ((x :: y :: xs).map k)) :=
    expresses_group fun z hz => (h z hz).expresses
  have hmembers : Spells (op.separator.toList.intercalate
      ((x :: y :: xs).map fun z => (g z).toList))
      (op.between.intercalate ((x :: y :: xs).map fun z => signs (g z).toList)) :=
    Spells.intercalate op.spells_separator fun z hz => (h z hz).spells
  refine Readable.of_spells ?_ hexpresses
  rw [String.toList_append, String.toList_append, String.toList_intercalate, List.map_map,
    List.append_assoc]
  exact (spells_char '(' (by decide)).append
    (hmembers.append (spells_char ')' (by decide)))

theorem Readable.readText? {t : String} {c : Clause Condition} (h : Readable t c) :
    Query.readText? t = some (some c) := by
  obtain ⟨sign, rest, hread, hsign⟩ := h.expresses.begins
  have hstar : t ≠ Predicate.matchAllText := by
    rintro rfl
    have hsigns : signs Predicate.matchAllText.toList = [plain '*'] := by decide
    rw [hsigns] at hread
    obtain rfl : plain '*' = sign := (List.cons.inj hread).1
    revert hsign
    decide
  obtain ⟨r, hrun, hr⟩ := h.expresses.holds []
  rw [Query.readText?, if_neg hstar, Query.readClause?, hrun, Option.bind_some, hr.finish]
  rfl

end Readable

namespace Filter

/-! ## A filter with its text -/

def sampleSchema : Schema where
  name := "docs"
  fields := [{ name := "user", type := .tag {} }, { name := "title", type := .text {} },
    { name := "age", type := .numeric }]
  checked := by decide +kernel

/-- A filter with a blank in a tag, a phrase with a wildcard, and a member that falls away. -/
def sample : Filter :=
  join .or (leaf (.tag "user" ["a b", "c"]))
    (not (join .and matchAll (leaf (.text "title" "x* y" true))))

theorem canonical_sample :
    sample.canonical = some (.group .or
      [.leaf (.tag "user" ["a b", "c"]), .not (.leaf (.text "title" "x* y" true))]) := by
  have htag : (leaf (.tag "user" ["a b", "c"])).canonical =
      some (.leaf (.tag "user" ["a b", "c"])) := canonical_leaf nofun
  have htext : (leaf (.text "title" "x* y" true)).canonical =
      some (.leaf (.text "title" "x* y" true)) := canonical_leaf nofun
  have hand : (join .and matchAll (leaf (.text "title" "x* y" true))).canonical =
      some (.leaf (.text "title" "x* y" true)) := by
    rw [canonical_join_members, members_join_self, members_alone rfl, members_alone rfl, matchAll,
      canonical_leaf_eq_none_iff.mpr rfl, htext]
    rfl
  rw [sample, canonical_join_members, members_join_self, members_alone rfl, members_alone rfl, htag,
    canonical, hand]
  rfl

theorem compile_sample :
    sample.compile sampleSchema = .ok "(@user:\x7ba\\ b|c\x7d | (-@title:(x* y)))" := by
  rw [compile_eq, canonicalText?, canonical_sample, faultOr_eq_ok_iff]
  exact ⟨by decide +kernel, by decide +kernel⟩

/-! ## Filters -/

/-- The canonical clause of a filter as it is to be read; none if every document matches. -/
def conditions (f : Filter) : Option (Clause Condition) :=
  f.canonical.map (Clause.map Predicate.condition)

theorem readable_canonical {s : Schema} {f : Filter} (h : f.firstFault? s = none)
    {c : Clause Predicate} (hc : f.canonical = some c) :
    Readable (c.map Predicate.fragment).text (c.map Predicate.condition) := by
  refine (canonical_induct (motive := fun c =>
    Readable (c.map Predicate.fragment).text (c.map Predicate.condition)) ?_ ?_ f ?_).1 c hc
  · intro op d e rest hmembers
    rw [Clause.map_group, Clause.text_group, Clause.map_group, List.map_map]
    exact readable_group hmembers
  · intro d hd
    exact readable_not hd
  · intro p hp hall
    have hfault := List.findSome?_eq_none_iff.mp h (leaf p) hp
    exact Predicate.readable_fragment hfault hall

theorem readText?_of_compile {s : Schema} {f : Filter} {t : String} (h : f.compile s = .ok t) :
    Query.readText? t = some f.conditions := by
  rw [compile_eq, faultOr_eq_ok_iff] at h
  obtain ⟨hfault, rfl⟩ := h
  cases hc : f.canonical with
  | none =>
    rw [conditions, canonicalText?, hc]
    rfl
  | some c =>
    have hreadable := readable_canonical hfault hc
    rw [conditions, canonicalText?, hc]
    exact hreadable.readText?

/-- Unique readability: the text of a filter is read back as its canonical clause, and every
other filter with this text, under any schema, has the same clause. -/
theorem compile_uniquely_readable {s : Schema} {f : Filter} {t : String}
    (h : f.compile s = .ok t) :
    Query.readText? t = some f.conditions ∧
      ∀ (s' : Schema) (g : Filter), g.compile s' = .ok t → g.conditions = f.conditions := by
  refine ⟨readText?_of_compile h, fun s' g hg => ?_⟩
  have hf := readText?_of_compile h
  have hg := readText?_of_compile hg
  exact Option.some.inj (hg.symm.trans hf)

theorem sample_uniquely_readable :
    Query.readText? "(@user:\x7ba\\ b|c\x7d | (-@title:(x* y)))" =
      some (some (.group .or
        [.leaf ⟨"user", .tags ["a b", "c"]⟩,
          .not (.leaf ⟨"title", .pattern
            [.literal 'x', .wildcard '*', .literal ' ', .literal 'y']⟩)])) := by
  have hread := (compile_uniquely_readable compile_sample).1
  rw [hread, conditions, canonical_sample]
  rfl

end Filter
end HybridSearch
