import HybridSearch.Proofs.Checks
import HybridSearch.Proofs.Filter.Clause

/-!
# What rendering does

Rendering goes along chains and leaves members out. What comes of it can be said without either: the
first fault among the nodes of the filter, each node after those below it and the left before the
right, or else the text of the canonical clause.

* `Filter.firstFault?`: the first fault in that order.
* `render_eq`: rendering gives that fault, or the text of the clause.
-/
namespace HybridSearch

def Predicate.fault? (s : Schema) (p : Predicate) : Option QueryError :=
  match p.check s with
  | .error e => some e
  | .ok () => none

theorem Predicate.compile_eq (s : Schema) (p : Predicate) :
    p.compile s = faultOr (p.fault? s) p.fragment := by
  simp only [Predicate.compile, Predicate.fault?]
  cases p.check s <;> rfl

namespace Filter

/-! ## The nodes of a filter and their faults -/

/-- Whether a filter is made of nothing but conditions that every document matches, joined by *and*
and *or*. -/
def isMatchAll : Filter → Bool
  | leaf p => p = .all
  | join _ left right => left.isMatchAll && right.isMatchAll
  | not _ => false

/-- The nodes of a filter, each after those below it, the left before the right. -/
def postorder : Filter → List Filter
  | leaf p => [leaf p]
  | join op left right => left.postorder ++ right.postorder ++ [join op left right]
  | not f => f.postorder ++ [not f]

/-- What is wrong with a node, apart from the nodes below it. -/
def fault? (s : Schema) : Filter → Option QueryError
  | leaf p => p.fault? s
  | join _ _ _ => none
  | not f => if f.isMatchAll then some .negatedMatchAll else none

def firstFault? (s : Schema) (f : Filter) : Option QueryError :=
  f.postorder.findSome? (fault? s)

variable {s : Schema}

theorem firstFault?_leaf (p : Predicate) : firstFault? s (leaf p) = p.fault? s := by
  cases hp : p.fault? s <;> simp [firstFault?, postorder, fault?, hp]

theorem firstFault?_join (op : Connective) (left right : Filter) :
    firstFault? s (join op left right) = (left.firstFault? s).or (right.firstFault? s) := by
  simp only [firstFault?, postorder, List.findSome?_append, List.findSome?_cons, fault?,
    List.findSome?_nil, Option.or_none]

theorem firstFault?_not (f : Filter) :
    firstFault? s (not f) = (f.firstFault? s).or (fault? s (not f)) := by
  rw [firstFault?, postorder, List.findSome?_append]
  cases hf : fault? s (not f) <;> simp [firstFault?, hf]

/-- The nodes of a chain that join its members have no faults of their own. -/
theorem findSome?_chain (op : Connective) (f : Filter) :
    (f.chain op).findSome? (firstFault? s) = f.firstFault? s := by
  induction f with
  | leaf p => cases hf : firstFault? s (leaf p) <;> simp [chain, hf]
  | not f _ => cases hf : firstFault? s (not f) <;> simp [chain, hf]
  | join own left right ihl ihr =>
    by_cases hop : own = op
    · subst hop
      simp [chain, List.findSome?_append, ihl, ihr, firstFault?_join]
    · cases hf : firstFault? s (join own left right) <;> simp [chain, hop, hf]

/-! ## Filters that nothing is left of -/

theorem firstFault?_join_eq_none {op : Connective} {left right : Filter}
    (h : firstFault? s (join op left right) = none) :
    left.firstFault? s = none ∧ right.firstFault? s = none := by
  rw [firstFault?_join] at h
  exact Option.or_eq_none_iff.mp h

theorem firstFault?_not_eq_none {f : Filter} (h : firstFault? s (not f) = none) :
    f.firstFault? s = none ∧ f.isMatchAll = false := by
  rw [firstFault?_not] at h
  obtain ⟨hf, hnot⟩ := Option.or_eq_none_iff.mp h
  cases hm : f.isMatchAll with
  | false => exact ⟨hf, rfl⟩
  | true => simp [fault?, hm] at hnot

theorem canonical_leaf_eq_none_iff {p : Predicate} : (leaf p).canonical = none ↔ p = .all := by
  cases p <;> simp [canonical]

/-- What is left of a filter without faults, as a clause or as members of a chain. Negations need
their faults checked: one of a filter that nothing is left of is a fault, and not nothing. -/
theorem canonical_and_members_eq_nil_iff (f : Filter) (h : f.firstFault? s = none) :
    (f.canonical = none ↔ f.isMatchAll = true) ∧
      ∀ op, (f.members op = [] ↔ f.isMatchAll = true) := by
  have alone : ∀ {g : Filter} {op : Connective}, g.chain op = [g] →
      (g.members op = [] ↔ g.canonical = none) := by
    intro g op hg
    rw [members_alone hg, Option.toList_eq_nil_iff]
  -- A chain is taken apart at its own connective; under the other one it is a single member.
  induction f with
  | leaf p =>
    have hleaf : (leaf p).canonical = none ↔ (leaf p).isMatchAll = true := by
      simp [canonical_leaf_eq_none_iff, isMatchAll]
    exact ⟨hleaf, fun op => (alone rfl).trans hleaf⟩
  | not f ih =>
    obtain ⟨hf, hm⟩ := firstFault?_not_eq_none h
    have hnot : (not f).canonical = none ↔ (not f).isMatchAll = true := by
      have := (ih hf).1
      simp [canonical, isMatchAll, this, hm]
    exact ⟨hnot, fun op => (alone rfl).trans hnot⟩
  | join own left right ihl ihr =>
    obtain ⟨hl, hr⟩ := firstFault?_join_eq_none h
    have hself : (join own left right).members own = [] ↔
        (join own left right).isMatchAll = true := by
      rw [members_join_self, List.append_eq_nil_iff, (ihl hl).2 own, (ihr hr).2 own, isMatchAll,
        Bool.and_eq_true]
    have hjoin : (join own left right).canonical = none ↔
        (join own left right).isMatchAll = true := by
      rw [canonical_join_members, Clause.ofMembers?_eq_none_iff, hself]
    refine ⟨hjoin, fun op => ?_⟩
    by_cases hop : own = op
    · subst hop
      exact hself
    · exact (alone (by simp [chain, hop])).trans hjoin

theorem canonical_eq_none_iff {f : Filter} (h : f.firstFault? s = none) :
    f.canonical = none ↔ f.isMatchAll = true :=
  (canonical_and_members_eq_nil_iff f h).1

theorem isMatchAll_of_canonical_eq_some {f : Filter} (h : f.firstFault? s = none)
    {c : Clause Predicate} (hc : f.canonical = some c) : f.isMatchAll = false := by
  cases hm : f.isMatchAll with
  | false => rfl
  | true =>
    rw [(canonical_eq_none_iff h).mpr hm] at hc
    cases hc

/-! ## Rendering -/

def canonicalText? (f : Filter) : Option String :=
  f.canonical.map fun c => (c.map Predicate.fragment).text

theorem render_join (op : Connective) (left right : Filter) :
    render s (join op left right) =
      op.groupText? <$> ((join op left right).chain op).filterMapM (render s) := by
  have hattach : ((join op left right).chain op).attach.filterMapM (fun f => render s f.1) =
      ((join op left right).chain op).filterMapM (render s) := by
    rw [List.filterMapM_subtype fun _ _ => rfl, List.unattach_attach]
  rw [render, hattach]
  rfl

theorem canonicalText?_join (op : Connective) (left right : Filter) :
    (join op left right).canonicalText? =
      op.groupText? (((join op left right).chain op).filterMap canonicalText?) := by
  have hmembers : (((join op left right).members op).map (Clause.map Predicate.fragment)).map
      Clause.text = ((join op left right).chain op).filterMap canonicalText? := by
    rw [members_eq_chain, List.map_filterMap, List.map_filterMap]
    simp only [Option.map_map]
    rfl
  rw [← hmembers, ← Clause.text_ofMembers?, ← Clause.map_ofMembers?, ← canonical_join_members,
    Option.map_map]
  rfl

/-- Rendering: a filter is refused for its first fault, and otherwise written as its canonical
clause. -/
theorem render_eq (s : Schema) (f : Filter) :
    f.render s = faultOr (f.firstFault? s) f.canonicalText? := by
  induction f using render.induct with
  | case1 => simp [render, firstFault?_leaf, canonicalText?, canonical, faultOr]; rfl
  | case2 p hp =>
    have hcanonical : (leaf p).canonicalText? = some p.fragment := by
      rw [canonicalText?, canonical_leaf hp]
      rfl
    rw [render, firstFault?_leaf, hcanonical, Predicate.compile_eq, faultOr_map]
    exact hp
  | case3 op left right ih =>
    have hmembers : ((join op left right).chain op).filterMapM (render s) =
        faultOr (((join op left right).chain op).findSome? (firstFault? s))
          (((join op left right).chain op).filterMap canonicalText?) :=
      filterMapM_faultOr _ fun g hg => ih ⟨g, hg⟩
    rw [render_join, hmembers, findSome?_chain, faultOr_map, canonicalText?_join]
  | case4 f ih =>
    rw [render, ih, faultOr_bind, firstFault?_not]
    cases hf : f.firstFault? s with
    | some e => rfl
    | none =>
      cases hc : f.canonical with
      | none =>
        have hm := (canonical_eq_none_iff hf).mp hc
        simp [canonicalText?, hc, fault?, hm, faultOr]
        rfl
      | some c =>
        have hm := isMatchAll_of_canonical_eq_some hf hc
        simp [canonicalText?, hc, canonical, fault?, hm, faultOr, Clause.map, Clause.text]
        rfl

theorem compile_eq (s : Schema) (f : Filter) :
    f.compile s = faultOr (f.firstFault? s) (f.canonicalText?.getD Predicate.matchAllText) := by
  rw [compile, render_eq, faultOr_bind]
  cases f.firstFault? s <;> rfl

theorem validate_eq (s : Schema) (f : Filter) :
    f.validate s = faultOr (f.firstFault? s) () := by
  rw [validate, render_eq]
  cases f.firstFault? s <;> rfl

end Filter
end HybridSearch
