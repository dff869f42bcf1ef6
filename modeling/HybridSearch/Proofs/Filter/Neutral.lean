import HybridSearch.Proofs.Filter.Bracketing

/-!
# The neutral filter

The filter that every document matches counts for nothing in a chain. It may stand at any place of
the chain and any number of times, and the chain compiles as it does without it.

* `Filter.Padded`: a row with neutral filters put into it.
* `Filter.Chained`: a row joined to one filter, the empty row included.
* `Filter.canonical_eq_ofMembers?`: the clause of any filter, as that of a chain.
* `Filter.compile_of_padded`: padded rows compile alike.
-/
namespace HybridSearch

theorem Clause.ofMembers?_toList {α : Type} (op : Connective) (c : Option (Clause α)) :
    ofMembers? op c.toList = c := by
  cases c <;> rfl

namespace Filter

variable {s : Schema} {op : Connective} {fs gs : List Filter} {f g : Filter}

/-! ## What the neutral filter counts for -/

theorem members_matchAll : matchAll.members op = [] := by
  rw [members_alone rfl, matchAll, canonical_leaf_eq_none_iff.mpr rfl]
  rfl

theorem firstFault?_matchAll : matchAll.firstFault? s = none := by
  rw [matchAll, firstFault?_leaf]
  rfl

theorem compile_matchAll (s : Schema) : matchAll.compile s = .ok "*" := by
  rw [Filter.compile_eq, firstFault?_matchAll, canonicalText?, matchAll,
    canonical_leaf_eq_none_iff.mpr rfl]
  rfl

/-- Any filter is written as a chain of any connective, possibly of itself alone. -/
theorem canonical_eq_ofMembers? (op : Connective) (f : Filter) :
    f.canonical = Clause.ofMembers? op (f.members op) := by
  have alone : ∀ {g : Filter}, g.chain op = [g] →
      g.canonical = Clause.ofMembers? op (g.members op) := by
    intro g hg
    rw [members_alone hg, Clause.ofMembers?_toList]
  cases f with
  | leaf p => exact alone rfl
  | not f => exact alone rfl
  | join own left right =>
    by_cases hop : own = op
    · subst hop
      exact canonical_join_members own left right
    · exact alone (by simp [chain, hop])

/-! ## Rows and chains -/

/-- The second row is the first one with neutral filters put into it. -/
inductive Padded : List Filter → List Filter → Prop
  | nil : Padded [] []
  | keep (f : Filter) {fs gs : List Filter} (h : Padded fs gs) : Padded (f :: fs) (f :: gs)
  | insert {fs gs : List Filter} (h : Padded fs gs) : Padded fs (matchAll :: gs)

/-- The filter joins the row by one connective, in some bracketing. Without operands it is the
neutral filter. -/
inductive Chained (op : Connective) : List Filter → Filter → Prop
  | empty : Chained op [] matchAll
  | bracketing {fs : List Filter} {f : Filter} (h : Bracketing op fs f) : Chained op fs f

namespace Padded

theorem refl (fs : List Filter) : Padded fs fs := by
  induction fs with
  | nil => exact .nil
  | cons f fs ih => exact .keep f ih

theorem flatMap_members (h : Padded fs gs) (op : Connective) :
    gs.flatMap (members op) = fs.flatMap (members op) := by
  induction h with
  | nil => rfl
  | keep f _ ih => rw [List.flatMap_cons, List.flatMap_cons, ih]
  | insert _ ih => rw [List.flatMap_cons, members_matchAll, List.nil_append, ih]

theorem findSome?_firstFault? (h : Padded fs gs) (s : Schema) :
    gs.findSome? (firstFault? s) = fs.findSome? (firstFault? s) := by
  induction h with
  | nil => rfl
  | keep f _ ih => rw [List.findSome?_cons, List.findSome?_cons, ih]
  | insert _ ih => rw [List.findSome?_cons, firstFault?_matchAll, ih]

theorem all_isMatchAll (h : Padded fs gs) : gs.all isMatchAll = fs.all isMatchAll := by
  induction h with
  | nil => rfl
  | keep f _ ih => rw [List.all_cons, List.all_cons, ih]
  | insert _ ih => rw [List.all_cons, ih, matchAll, isMatchAll, decide_eq_true rfl, Bool.true_and]

theorem sublist (h : Padded fs gs) : fs.Sublist gs := by
  induction h with
  | nil => exact .slnil
  | keep f _ ih => exact .cons_cons f ih
  | insert _ ih => exact .cons matchAll ih

end Padded

namespace Chained

theorem canonical_eq (h : Chained op fs f) :
    f.canonical = Clause.ofMembers? op (fs.flatMap (members op)) := by
  cases h with
  | empty => rw [canonical_eq_ofMembers? op, members_matchAll, List.flatMap_nil]
  | bracketing h => rw [canonical_eq_ofMembers? op, h.members_eq]

theorem firstFault?_eq (h : Chained op fs f) : f.firstFault? s = fs.findSome? (firstFault? s) := by
  cases h with
  | empty => exact firstFault?_matchAll
  | bracketing h => exact h.firstFault?_eq

theorem balanced (op : Connective) (fs : List Filter) : Chained op fs (balanced op fs) := by
  cases fs with
  | nil =>
    rw [Filter.balanced]
    exact .empty
  | cons f fs => exact .bracketing (Bracketing.balanced (List.cons_ne_nil f fs))

/-- Two operands or more are joined by a node of the chain. -/
theorem exists_join (h : Chained op fs f) (hlength : 2 ≤ fs.length) :
    ∃ left right, f = join op left right := by
  cases h with
  | empty => simp at hlength
  | bracketing h =>
    cases h with
    | single f => simp at hlength
    | join => exact ⟨_, _, rfl⟩

end Chained

namespace Padded

variable (h : Padded fs gs)

include h

theorem compile_eq (hf : Chained op fs f) (hg : Chained op gs g) (s : Schema) :
    g.compile s = f.compile s := by
  have hcanonical : g.canonical = f.canonical := by
    rw [hg.canonical_eq, hf.canonical_eq, h.flatMap_members]
  have hfault : g.firstFault? s = f.firstFault? s := by
    rw [hg.firstFault?_eq, hf.firstFault?_eq, h.findSome?_firstFault?]
  rw [Filter.compile_eq, Filter.compile_eq, canonicalText?, canonicalText?, hcanonical, hfault]

/-- A row of two operands or more stays a chain of its own inside another filter, with or without
neutral filters. A row of one operand does not: its operand may be a part of the chain around it. -/
theorem interchangeable (hf : Bracketing op fs f) (hg : Bracketing op gs g)
    (hlength : 2 ≤ fs.length) : Interchangeable g f := by
  have hmembers : g.members op = f.members op := by
    rw [hg.members_eq, hf.members_eq, h.flatMap_members]
  have hmatch : g.isMatchAll = f.isMatchAll := by
    rw [hg.isMatchAll_eq, hf.isMatchAll_eq, h.all_isMatchAll]
  have hfault : ∀ s, g.firstFault? s = f.firstFault? s := by
    intro s
    rw [hg.firstFault?_eq, hf.firstFault?_eq, h.findSome?_firstFault?]
  obtain ⟨left, right, rfl⟩ := Chained.exists_join (.bracketing hf) hlength
  obtain ⟨left', right', rfl⟩ :=
    Chained.exists_join (.bracketing hg) (Nat.le_trans hlength h.sublist.length_le)
  exact .of_joins hmembers hmatch hfault

end Padded

/-- Neutral filters count for nothing in a chain, wherever they are put and however often: the
chains of a row and of the padded row, in whatever bracketing, compile to the same text or fail with
the same error. Folds from either side, with or without the neutral filter to start from, and the
trees built level by level are such chains. Inside another filter this holds of every row of two
operands or more. -/
theorem compile_of_padded :
    (∀ op fs gs f g, Padded fs gs → Chained op fs f → Chained op gs g →
      ∀ s, g.compile s = f.compile s) ∧
    (∀ op fs, Chained op fs (balanced op fs) ∧
      Chained op (matchAll :: fs) (fs.foldl (join op) matchAll) ∧
      ∀ f, Chained op (f :: fs) (fs.foldl (join op) f) ∧
        Chained op (fs ++ [f]) (fs.foldr (join op) f)) ∧
    (∀ op fs gs f g, Padded fs gs → Bracketing op fs f → Bracketing op gs g → 2 ≤ fs.length →
      ∀ (c : Context) s, (c.fill g).compile s = (c.fill f).compile s) ∧
    ∀ s, matchAll.compile s = .ok "*" := by
  refine ⟨fun op fs gs f g h hf hg s => ?_, fun op fs => ⟨.balanced op fs, ?_, fun f => ⟨?_, ?_⟩⟩,
    fun op fs gs f g h hf hg hlength c s => ?_, fun s => ?_⟩
  · exact h.compile_eq hf hg s
  · exact .bracketing ((Bracketing.single matchAll).foldl fs)
  · exact .bracketing ((Bracketing.single f).foldl fs)
  · exact .bracketing ((Bracketing.single f).foldr fs)
  · exact ((h.interchangeable hf hg hlength).fill c).compile_eq s
  · exact compile_matchAll s

/-- A single operand among neutral filters, and a row of two operands with one between them, inside
a negation. -/
theorem compile_paddedUsers :
    let users := join .or (namedUser "a") (namedUser "b")
    let padded := [matchAll, users, matchAll]
    let pair := [namedUser "c", users]
    let paddedPair := [namedUser "c", matchAll, users]
    let s : Schema := { name := "staff", fields := [{ name := "user", type := .tag {} }],
                        checked := by decide +kernel }
    Padded [users] padded ∧ Padded pair paddedPair ∧ allOf padded ≠ users ∧
      (allOf padded).compile s = users.compile s ∧
      ((Context.not .gap).fill (anyOf paddedPair)).compile s =
        ((Context.not .gap).fill (anyOf pair)).compile s := by
  intro users padded pair paddedPair s
  obtain ⟨halike, hchains, hinside, -⟩ := compile_of_padded
  have halone : Padded [users] padded := .insert (.keep users (.insert .nil))
  have hpair : Padded pair paddedPair := .keep _ (.insert (.keep users .nil))
  have hne : allOf padded ≠ users := by
    simp only [users, padded, allOf, balanced, pairUp]
    decide
  refine ⟨halone, hpair, hne, ?_, ?_⟩
  · exact halike .and [users] padded users (allOf padded) halone (.bracketing (.single users))
      (hchains .and padded).1 s
  · exact hinside .or pair paddedPair (anyOf pair) (anyOf paddedPair) hpair
      (Bracketing.balanced (List.cons_ne_nil _ _)) (Bracketing.balanced (List.cons_ne_nil _ _))
      (Nat.le_refl 2) (.not .gap) s

end Filter
end HybridSearch
