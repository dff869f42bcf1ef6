import HybridSearch.Proofs.Filter.Readability

/-!
# What filters and their texts mean

Under an assignment of truth values to conditions a filter is true or false, and so is a query text:
members side by side are all to be true, a bar asks for one of them, a minus sign negates, and `*`
is true. Compilation keeps the truth value. Flattening changes nothing; leaving a member out changes
nothing either, as long as no *or* joins a filter that every document matches with another one.

* `Clause.truth`, `Filter.truth`, `Query.truth?`: the truth values.
* `Filter.Unmixed`: the filters without such an *or*.
* `truth_compile`: the truth value of the text of a filter.
-/
namespace HybridSearch

/-! ## Truth values -/

namespace Connective

def combine : Connective → List Bool → Bool
  | and, values => values.all id
  | or, values => values.any id

theorem combine_singleton (op : Connective) (b : Bool) : op.combine [b] = b := by
  cases op <;> simp [combine]

/-- Members may be combined in two parts. An empty part counts for nothing. -/
theorem combine_append (op : Connective) (xs ys : List Bool) :
    op.combine (xs ++ ys) = op.combine [op.combine xs, op.combine ys] := by
  cases op <;> simp [combine]

end Connective

namespace Clause

variable {α β : Type}

mutual

def truth (v : α → Bool) : Clause α → Bool
  | leaf a => v a
  | group op members => op.combine (truths v members)
  | not c => !c.truth v

def truths (v : α → Bool) : List (Clause α) → List Bool
  | [] => []
  | c :: rest => c.truth v :: truths v rest

end

theorem truths_eq (v : α → Bool) (cs : List (Clause α)) : truths v cs = cs.map (truth v) := by
  induction cs with
  | nil => rfl
  | cons c cs ih => rw [truths, ih, List.map_cons]

theorem truth_map (v : β → Bool) (g : α → β) (c : Clause α) :
    (c.map g).truth v = c.truth fun a => v (g a) := by
  induction c using induct with
  | leaf a => rfl
  | group op members ih =>
    rw [map_group, truth, truth, truths_eq, truths_eq, List.map_map]
    exact congrArg op.combine (List.map_congr_left ih)
  | not c ih => rw [map, truth, truth, ih]

theorem truth_of_ofMembers? {v : α → Bool} {op : Connective} {members : List (Clause α)}
    {c : Clause α} (h : ofMembers? op members = some c) :
    c.truth v = op.combine (members.map (truth v)) := by
  match members, h with
  | [d], h =>
    obtain rfl : d = c := Option.some.inj h
    exact (op.combine_singleton _).symm
  | d :: e :: rest, h =>
    obtain rfl : Clause.group op (d :: e :: rest) = c := Option.some.inj h
    rw [truth, truths_eq]

end Clause

/-- The truth value of a query text under an assignment; none if it is no query text. -/
def Query.truth? (v : Condition → Bool) (text : String) : Option Bool :=
  (readText? text).map fun clause => clause.elim true (Clause.truth v)

namespace Filter

/-- The truth value of a filter under an assignment. The condition that every document matches is
true under each. -/
def truth (v : Predicate → Bool) : Filter → Bool
  | leaf p => p = .all || v p
  | join op left right => op.combine [left.truth v, right.truth v]
  | not f => !f.truth v

/-- No *or* joins a filter that every document matches with one that says something. -/
def Unmixed (f : Filter) : Prop :=
  ∀ left right, join .or left right ∈ f.postorder → left.isMatchAll = right.isMatchAll

/-! ## The canonical clause -/

section Canonical

variable {v : Predicate → Bool}

theorem truth_of_isMatchAll {f : Filter} (h : f.isMatchAll = true) : f.truth v = true := by
  induction f with
  | leaf p =>
    have hall : p = .all := by simpa [isMatchAll] using h
    simp [truth, hall]
  | join op left right ihl ihr =>
    rw [isMatchAll, Bool.and_eq_true] at h
    rw [truth, ihl h.1, ihr h.2]
    cases op <;> rfl
  | not f _ => cases h

theorem Unmixed.of_not {f : Filter} (h : (not f).Unmixed) : f.Unmixed :=
  fun left right hmem => h left right (List.mem_append_left _ hmem)

theorem Unmixed.of_join {op : Connective} {left right : Filter} (h : (join op left right).Unmixed) :
    left.Unmixed ∧ right.Unmixed :=
  ⟨fun l r hmem => h l r (List.mem_append_left _ (List.mem_append_left _ hmem)),
    fun l r hmem => h l r (List.mem_append_left _ (List.mem_append_right _ hmem))⟩

/-- The members of a chain are as true as the filter, if something is left of it. In a chain of
*and* they are so in any case, since no members at all are true together. -/
def KeepsTruth (v : Predicate → Bool) (f : Filter) : Prop :=
  f.canonical.elim true (Clause.truth v) = f.truth v ∧
    ∀ op : Connective, op = .and ∨ f.isMatchAll = false →
      op.combine ((f.members op).map (Clause.truth v)) = f.truth v

theorem combine_members_alone {s : Schema} {f : Filter} (hfault : f.firstFault? s = none)
    {op : Connective} (hchain : f.chain op = [f])
    (h : f.canonical.elim true (Clause.truth v) = f.truth v)
    (hop : op = .and ∨ f.isMatchAll = false) :
    op.combine ((f.members op).map (Clause.truth v)) = f.truth v := by
  rw [members_alone hchain, ← h]
  cases hc : f.canonical with
  | some c => exact op.combine_singleton _
  | none =>
    rcases hop with rfl | hsome
    · rfl
    · rw [(canonical_eq_none_iff hfault).mp hc] at hsome
      cases hsome

theorem keepsTruth_join {s : Schema} {op : Connective} {left right : Filter}
    (hfault : firstFault? s (join op left right) = none) (hunmixed : (join op left right).Unmixed)
    (hleft : KeepsTruth v left) (hright : KeepsTruth v right) :
    KeepsTruth v (join op left right) := by
  have hself : op = .and ∨ (join op left right).isMatchAll = false →
      op.combine (((join op left right).members op).map (Clause.truth v)) =
        (join op left right).truth v := by
    intro hop
    -- A part that every document matches has no members. Under *and* that does no harm, and under
    -- *or* both parts would be like that, and so would the whole.
    have hparts : (op = .and ∨ left.isMatchAll = false) ∧ (op = .and ∨ right.isMatchAll = false) := by
      cases op with
      | and => exact ⟨.inl rfl, .inl rfl⟩
      | or =>
        have hsame := hunmixed left right (List.mem_append_right _ (List.mem_singleton.mpr rfl))
        have hboth : (left.isMatchAll && right.isMatchAll) = false := hop.resolve_left nofun
        rw [hsame, Bool.and_self] at hboth
        exact ⟨.inr (hsame.trans hboth), .inr hboth⟩
    rw [members_join_self, List.map_append, Connective.combine_append, hleft.2 op hparts.1,
      hright.2 op hparts.2, truth]
  have hclause : (join op left right).canonical.elim true (Clause.truth v) =
      (join op left right).truth v := by
    cases hc : (join op left right).canonical with
    | none =>
      have hall := (canonical_eq_none_iff hfault).mp hc
      exact (truth_of_isMatchAll hall).symm
    | some c =>
      have hsome := isMatchAll_of_canonical_eq_some hfault hc
      rw [canonical_join_members] at hc
      rw [← hself (.inr hsome)]
      exact Clause.truth_of_ofMembers? hc
  refine ⟨hclause, fun op' hop' => ?_⟩
  by_cases hown : op = op'
  · subst hown
    exact hself hop'
  · exact combine_members_alone hfault (by simp [chain, hown]) hclause hop'

theorem keepsTruth {s : Schema} {f : Filter} (hfault : f.firstFault? s = none)
    (hunmixed : f.Unmixed) : KeepsTruth v f := by
  have alone : ∀ {g : Filter}, g.firstFault? s = none → (∀ op, g.chain op = [g]) →
      g.canonical.elim true (Clause.truth v) = g.truth v → KeepsTruth v g := by
    intro g hg hchain hclause
    exact ⟨hclause, fun op hop => combine_members_alone hg (hchain op) hclause hop⟩
  induction f with
  | leaf p =>
    refine alone hfault (fun op => rfl) ?_
    by_cases hall : p = .all
    · rw [canonical_leaf_eq_none_iff.mpr hall, truth, hall]
      rfl
    · rw [canonical_leaf hall]
      simp [truth, Clause.truth, hall]
  | join op left right ihl ihr =>
    obtain ⟨hl, hr⟩ := firstFault?_join_eq_none hfault
    obtain ⟨hul, hur⟩ := hunmixed.of_join
    exact keepsTruth_join hfault hunmixed (ihl hl hul) (ihr hr hur)
  | not f ih =>
    refine alone hfault (fun op => rfl) ?_
    obtain ⟨hf, hsome⟩ := firstFault?_not_eq_none hfault
    have hbelow := (ih hf hunmixed.of_not).1
    cases hc : f.canonical with
    | none =>
      rw [(canonical_eq_none_iff hf).mp hc] at hsome
      cases hsome
    | some c =>
      rw [hc] at hbelow
      have hnot : (not f).canonical = some (.not c) := by
        rw [canonical, hc]
        rfl
      rw [hnot, truth, ← hbelow]
      rfl

end Canonical

/-! ## The text -/

/-- Meaning: what is read from the text of a filter is its canonical clause, which is as true as
the filter under every assignment to conditions. In particular the text is as true as the filter
under every assignment to what can be read of conditions. -/
theorem truth_compile {s : Schema} {f : Filter} {t : String} (h : f.compile s = .ok t)
    (hunmixed : f.Unmixed) :
    Query.readText? t = some (f.canonical.map (Clause.map Predicate.condition)) ∧
      (∀ v : Predicate → Bool, f.canonical.elim true (Clause.truth v) = f.truth v) ∧
      ∀ v : Condition → Bool, Query.truth? v t = some (f.truth fun p => v p.condition) := by
  have hread := readText?_of_compile h
  rw [compile_eq, faultOr_eq_ok_iff] at h
  have hclause : ∀ v : Predicate → Bool, f.canonical.elim true (Clause.truth v) = f.truth v :=
    fun v => (keepsTruth h.1 hunmixed).1
  refine ⟨hread, hclause, fun v => ?_⟩
  rw [Query.truth?, hread, Option.map_some, ← hclause, conditions]
  cases f.canonical with
  | none => rfl
  | some c => exact congrArg some (Clause.truth_map v Predicate.condition c)

theorem truth_sample :
    sample.Unmixed ∧ ∀ v : Condition → Bool,
      Query.truth? v "(@user:\x7ba\\ b|c\x7d | (-@title:(x* y)))" =
        some (sample.truth fun p => v p.condition) := by
  have hunmixed : sample.Unmixed := by
    intro left right hmem
    simp only [sample, matchAll, postorder, List.mem_append, List.mem_singleton, reduceCtorEq,
      or_false, false_or, join.injEq, false_and, true_and] at hmem
    obtain ⟨rfl, rfl⟩ := hmem
    rfl
  exact ⟨hunmixed, (truth_compile compile_sample hunmixed).2.2⟩

end Filter
end HybridSearch
