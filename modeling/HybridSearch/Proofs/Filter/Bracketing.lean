import HybridSearch.Proofs.Filter.Rendering
import Mathlib.Data.List.Forall2

/-!
# Bracketing

A chain of one connective can be bracketed in many ways, and all of them compile alike, wherever the
chain stands in a filter: what counts is the row of its operands.

* `Filter.Bracketing`: the ways to bracket a row of operands.
* `Filter.Interchangeable`: filters that can stand in for each other.
* `Filter.Context`: a filter with a gap, and what is put there.
* `Filter.compile_of_operands`: bracketings of one row compile alike in every context; folds from
  either side and the balanced tree are among them.
-/
namespace HybridSearch.Filter

variable {s : Schema} {op : Connective}

/-! ## Filters that can stand in for each other -/

/-- Filters that agree in everything that compilation takes from a part of a filter. -/
structure Interchangeable (f g : Filter) : Prop where
  canonical : f.canonical = g.canonical
  members : ∀ op, f.members op = g.members op
  isMatchAll : f.isMatchAll = g.isMatchAll
  firstFault? : ∀ s, f.firstFault? s = g.firstFault? s

namespace Interchangeable

theorem refl (f : Filter) : Interchangeable f f :=
  ⟨rfl, fun _ => rfl, rfl, fun _ => rfl⟩

/-- Under another connective a chain is a single member, so that its own members decide. -/
theorem of_joins {left right left' right' : Filter}
    (hmembers : (join op left right).members op = (join op left' right').members op)
    (hmatch : (join op left right).isMatchAll = (join op left' right').isMatchAll)
    (hfault : ∀ s, (join op left right).firstFault? s = (join op left' right').firstFault? s) :
    Interchangeable (join op left right) (join op left' right') := by
  have hcanonical : (join op left right).canonical = (join op left' right').canonical := by
    rw [canonical_join_members, canonical_join_members, hmembers]
  refine ⟨hcanonical, fun other => ?_, hmatch, hfault⟩
  by_cases hop : op = other
  · subst hop
    exact hmembers
  · rw [members_alone (by simp [chain, hop]), members_alone (by simp [chain, hop]), hcanonical]

theorem join {left right left' right' : Filter} (hl : Interchangeable left left')
    (hr : Interchangeable right right') :
    Interchangeable (join op left right) (join op left' right') := by
  refine of_joins ?_ ?_ fun s => ?_
  · rw [members_join_self, members_join_self, hl.members, hr.members]
  · rw [Filter.isMatchAll, Filter.isMatchAll, hl.isMatchAll, hr.isMatchAll]
  · rw [firstFault?_join, firstFault?_join, hl.firstFault?, hr.firstFault?]

theorem not {f g : Filter} (h : Interchangeable f g) : Interchangeable (not f) (not g) := by
  have hcanonical : (Filter.not f).canonical = (Filter.not g).canonical := by
    rw [Filter.canonical, Filter.canonical, h.canonical]
  refine ⟨hcanonical, fun op => ?_, rfl, fun s => ?_⟩
  · rw [members_alone rfl, members_alone rfl, hcanonical]
  · rw [firstFault?_not, firstFault?_not, h.firstFault?, fault?, fault?, h.isMatchAll]

theorem compile_eq {f g : Filter} (h : Interchangeable f g) (s : Schema) :
    f.compile s = g.compile s := by
  rw [Filter.compile_eq, Filter.compile_eq, h.firstFault?, canonicalText?, canonicalText?,
    h.canonical]

end Interchangeable

/-! ## Contexts -/

/-- A filter with a gap. -/
inductive Context where
  | gap
  | joinLeft (op : Connective) (left : Context) (right : Filter)
  | joinRight (op : Connective) (left : Filter) (right : Context)
  | not (c : Context)

def Context.fill (f : Filter) : Context → Filter
  | gap => f
  | joinLeft op left right => join op (left.fill f) right
  | joinRight op left right => join op left (right.fill f)
  | not c => Filter.not (c.fill f)

theorem Interchangeable.fill {f g : Filter} (h : Interchangeable f g) (c : Context) :
    Interchangeable (c.fill f) (c.fill g) := by
  induction c with
  | gap => exact h
  | joinLeft op left right ih => exact ih.join (.refl right)
  | joinRight op left right ih => exact (Interchangeable.refl left).join ih
  | not c ih => exact ih.not

/-! ## Bracketings -/

/-- The ways to join a row of operands by one connective, in order and each of them once. -/
inductive Bracketing (op : Connective) : List Filter → Filter → Prop
  | single (f : Filter) : Bracketing op [f] f
  | join {fs gs : List Filter} {left right : Filter} (hl : Bracketing op fs left)
      (hr : Bracketing op gs right) : Bracketing op (fs ++ gs) (join op left right)

namespace Bracketing

variable {fs : List Filter} {f g : Filter}

theorem ne_nil (h : Bracketing op fs f) : fs ≠ [] := by
  induction h with
  | single f => exact List.cons_ne_nil f []
  | join _ _ ihl _ => exact List.append_ne_nil_of_left_ne_nil ihl _

theorem two_le_length {gs : List Filter} {left right : Filter} (hl : Bracketing op fs left)
    (hr : Bracketing op gs right) : 2 ≤ (fs ++ gs).length := by
  have hfs := List.length_pos_iff.mpr hl.ne_nil
  have hgs := List.length_pos_iff.mpr hr.ne_nil
  rw [List.length_append]
  omega

theorem members_eq (h : Bracketing op fs f) : f.members op = fs.flatMap (members op) := by
  induction h with
  | single f => exact (List.flatMap_singleton _ _).symm
  | join _ _ ihl ihr => rw [members_join_self, List.flatMap_append, ihl, ihr]

theorem isMatchAll_eq (h : Bracketing op fs f) : f.isMatchAll = fs.all isMatchAll := by
  induction h with
  | single f => simp
  | join _ _ ihl ihr => rw [Filter.isMatchAll, List.all_append, ihl, ihr]

theorem firstFault?_eq (h : Bracketing op fs f) :
    f.firstFault? s = fs.findSome? (Filter.firstFault? s) := by
  induction h with
  | single f => cases hf : f.firstFault? s <;> simp [hf]
  | join _ _ ihl ihr => rw [firstFault?_join, List.findSome?_append, ihl, ihr]

theorem interchangeable (hf : Bracketing op fs f) (hg : Bracketing op fs g) :
    Interchangeable f g := by
  have hmembers : f.members op = g.members op := hf.members_eq.trans hg.members_eq.symm
  have hmatch : f.isMatchAll = g.isMatchAll := hf.isMatchAll_eq.trans hg.isMatchAll_eq.symm
  have hfault : ∀ s, f.firstFault? s = g.firstFault? s := fun s =>
    hf.firstFault?_eq.trans hg.firstFault?_eq.symm
  -- A single operand stands for itself; a longer row is joined in both bracketings.
  generalize hrow : fs = row at hg
  cases hf with
  | single f =>
    cases hg with
    | single g => exact List.singleton_inj.mp hrow ▸ .refl f
    | join hl hr =>
      have hlength := two_le_length hl hr
      rw [← hrow] at hlength
      simp at hlength
  | join hl hr =>
    cases hg with
    | single g =>
      have hlength := two_le_length hl hr
      rw [hrow] at hlength
      simp at hlength
    | join hl' hr' => exact .of_joins hmembers hmatch hfault

/-! ## Ways to bracket a row -/

theorem foldl (h : Bracketing op fs f) (rest : List Filter) :
    Bracketing op (fs ++ rest) (rest.foldl (Filter.join op) f) := by
  induction rest generalizing fs f with
  | nil =>
    rw [List.append_nil]
    exact h
  | cons g rest ih =>
    have hnext := ih (h.join (.single g))
    rwa [List.append_assoc, List.singleton_append] at hnext

theorem foldr (h : Bracketing op fs f) (rest : List Filter) :
    Bracketing op (rest ++ fs) (rest.foldr (Filter.join op) f) := by
  induction rest with
  | nil => exact h
  | cons g rest ih => exact (Bracketing.single g).join ih

/-- Pairing up keeps the operands below the nodes in order, and each of them once. -/
theorem pairUp {rows : List (List Filter)} {nodes : List Filter}
    (h : List.Forall₂ (Bracketing op) rows nodes) :
    ∃ rows', List.Forall₂ (Bracketing op) rows' (pairUp op nodes) ∧
      rows'.flatten = rows.flatten := by
  fun_induction Filter.pairUp op nodes generalizing rows with
  | case1 left right rest ih =>
    obtain ⟨row, rows, hl, hrows, rfl⟩ := List.forall₂_cons_right_iff.mp h
    obtain ⟨row', rows, hr, hrest, rfl⟩ := List.forall₂_cons_right_iff.mp hrows
    obtain ⟨rows', hpaired, hflatten⟩ := ih hrest
    refine ⟨(row ++ row') :: rows', .cons (hl.join hr) hpaired, ?_⟩
    rw [List.flatten_cons, hflatten, List.flatten_cons, List.flatten_cons, List.append_assoc]
  | case2 rest _ => exact ⟨rows, h, rfl⟩

theorem balanced_of_forall₂ {rows : List (List Filter)} {nodes : List Filter}
    (h : List.Forall₂ (Bracketing op) rows nodes) (hne : nodes ≠ []) :
    Bracketing op rows.flatten (balanced op nodes) := by
  fun_induction Filter.balanced op nodes generalizing rows with
  | case1 => exact absurd rfl hne
  | case2 f =>
    obtain ⟨row, rows, hrow, hrest, rfl⟩ := List.forall₂_cons_right_iff.mp h
    obtain rfl := List.forall₂_nil_right_iff.mp hrest
    simpa using hrow
  | case3 f g rest ih =>
    obtain ⟨rows', hpaired, hflatten⟩ := pairUp h
    rw [← hflatten]
    exact ih hpaired (List.cons_ne_nil _ _)

theorem balanced (hne : fs ≠ []) : Bracketing op fs (balanced op fs) := by
  have hsingles : List.Forall₂ (Bracketing op) (fs.map ([·])) fs := by
    rw [List.forall₂_map_left_iff]
    exact List.forall₂_same.mpr fun f _ => .single f
  have hflatten : (fs.map ([·])).flatten = fs := by
    rw [← List.flatMap_def, List.flatMap_singleton']
  have h := balanced_of_forall₂ hsingles hne
  rwa [hflatten] at h

end Bracketing

/-- Only the row of operands counts: two bracketings of a row by one connective compile alike in
every context, to the same text or with the same error. Folds from the left and from the right and
the trees built level by level are bracketings, and without operands there is the text that every
document matches. -/
theorem compile_of_operands :
    (∀ (op : Connective) (fs : List Filter) (f g : Filter), Bracketing op fs f →
      Bracketing op fs g → ∀ (c : Context) (s : Schema),
        (c.fill f).compile s = (c.fill g).compile s) ∧
    (∀ (op : Connective) (f : Filter) (fs : List Filter),
      Bracketing op (f :: fs) (fs.foldl (join op) f) ∧
        Bracketing op (fs ++ [f]) (fs.foldr (join op) f)) ∧
    (∀ fs, fs ≠ [] → Bracketing .and fs (allOf fs) ∧ Bracketing .or fs (anyOf fs)) ∧
    ∀ s, (allOf []).compile s = .ok "*" ∧ (anyOf []).compile s = .ok "*" := by
  refine ⟨fun op fs f g hf hg c s => ?_, fun op f fs => ⟨?_, ?_⟩, fun fs hne => ⟨?_, ?_⟩,
    fun s => ?_⟩
  · exact ((hf.interchangeable hg).fill c).compile_eq s
  · exact (Bracketing.single f).foldl fs
  · exact (Bracketing.single f).foldr fs
  · exact Bracketing.balanced hne
  · exact Bracketing.balanced hne
  · have hempty : matchAll.compile s = .ok "*" := by
      rw [Filter.compile_eq, matchAll, firstFault?_leaf, canonicalText?,
        canonical_leaf_eq_none_iff.mpr rfl]
      rfl
    rw [allOf, anyOf, balanced, balanced]
    exact ⟨hempty, hempty⟩

def namedUser (name : String) : Filter :=
  leaf (.tag "user" [name])

/-- A row with a chain among its operands, folded from the right and built level by level. -/
theorem compile_namedUsers :
    let users := [namedUser "a", join .and (namedUser "b") (namedUser "c"), namedUser "d"]
    let folded := users.dropLast.foldr (join .and) (namedUser "d")
    let s : Schema := { name := "users", fields := [{ name := "user", type := .tag {} }],
                        checked := by decide +kernel }
    Bracketing .and users folded ∧ Bracketing .and users (allOf users) ∧ folded ≠ allOf users ∧
      ((Context.not .gap).fill folded).compile s =
        ((Context.not .gap).fill (allOf users)).compile s := by
  intro users folded s
  obtain ⟨halike, hfolds, hlevels, -⟩ := compile_of_operands
  have hfolded : Bracketing .and users folded := (hfolds .and (namedUser "d") users.dropLast).2
  have hlevel : Bracketing .and users (allOf users) := (hlevels users (List.cons_ne_nil _ _)).1
  have hne : folded ≠ allOf users := by
    simp only [users, folded, allOf, balanced, pairUp]
    decide
  exact ⟨hfolded, hlevel, hne, halike .and users folded (allOf users) hfolded hlevel _ s⟩

end HybridSearch.Filter
