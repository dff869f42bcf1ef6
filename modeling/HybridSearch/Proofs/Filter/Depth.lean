import HybridSearch.Proofs.Filter.Bracketing
import Mathlib.Data.Nat.Log

/-!
# How deep a wide filter is

A row of filters is joined in rounds: neighbours are paired up until one filter is left. Each round
halves the row, rounding up, and adds one level at most, so the depth grows with the logarithm of
the number of filters.

* `Filter.depth`, `Filter.rowDepth`: the levels above the deepest condition.
* `rounds_balanced`: after which round one filter is left, and which one.
* `Bracketing.clog_length_le_depth`: how shallow any joining of a row can be.
* `Filter.balanced_shallow`: the rounds, the operands and the depth of a wide filter.
-/
namespace HybridSearch.Filter

/-- How many connectives and negations stand above the deepest condition of a filter. -/
def depth : Filter → Nat
  | leaf _ => 0
  | join _ left right => max left.depth right.depth + 1
  | not f => f.depth + 1

/-- The depth of the deepest filter of a row. -/
def rowDepth (fs : List Filter) : Nat :=
  fs.foldr (fun f d => max f.depth d) 0

variable {op : Connective} {fs : List Filter} {f : Filter}

theorem rowDepth_cons (f : Filter) (fs : List Filter) :
    rowDepth (f :: fs) = max f.depth (rowDepth fs) :=
  rfl

theorem rowDepth_singleton (f : Filter) : rowDepth [f] = f.depth :=
  Nat.max_zero _

theorem rowDepth_eq_zero (h : ∀ f ∈ fs, ∃ p, f = leaf p) : rowDepth fs = 0 := by
  induction fs with
  | nil => rfl
  | cons f fs ih =>
    obtain ⟨⟨p, rfl⟩, hfs⟩ := List.forall_mem_cons.mp h
    rw [rowDepth_cons, ih hfs]
    rfl

/-! ## One round -/

theorem pairUp_of_length_le_one (h : fs.length ≤ 1) : pairUp op fs = fs := by
  match fs with
  | [] => rfl
  | [f] => rfl
  | f :: g :: rest => simp at h

theorem clog_length_pairUp (op : Connective) (fs : List Filter) :
    Nat.clog 2 (pairUp op fs).length = Nat.clog 2 fs.length - 1 := by
  by_cases h : fs.length ≤ 1
  · rw [pairUp_of_length_le_one h, Nat.clog_of_right_le_one h]
  · have hclog := Nat.clog_of_two_le Nat.one_lt_two (Nat.lt_of_not_le h)
    rw [length_pairUp, hclog, Nat.add_sub_cancel]
    rfl

theorem pairUp_ne_nil (h : fs ≠ []) : pairUp op fs ≠ [] := by
  have hlength := length_pairUp op fs
  have hpos := List.length_pos_iff.mpr h
  refine List.length_pos_iff.mp ?_
  omega

/-- A round changes nothing about what is built in the end. -/
theorem balanced_pairUp (op : Connective) (fs : List Filter) :
    balanced op (pairUp op fs) = balanced op fs := by
  by_cases h : fs.length ≤ 1
  · rw [pairUp_of_length_le_one h]
  · match fs with
    | [] => simp at h
    | [f] => simp at h
    | f :: g :: rest =>
      have hround : balanced op (f :: g :: rest) = balanced op (pairUp op (f :: g :: rest)) := by
        rw [balanced]
      exact hround.symm

theorem rowDepth_pairUp_le (op : Connective) (fs : List Filter) :
    rowDepth (pairUp op fs) ≤ rowDepth fs + 1 := by
  fun_induction pairUp op fs with
  | case1 left right rest ih =>
    simp only [rowDepth_cons, depth]
    omega
  | case2 rest _ => exact Nat.le_succ _

/-! ## All rounds -/

theorem clog_length_rounds (k : Nat) :
    Nat.clog 2 ((pairUp op)^[k] fs).length = Nat.clog 2 fs.length - k := by
  induction k with
  | zero => rfl
  | succ k ih => rw [Function.iterate_succ_apply', clog_length_pairUp, ih, Nat.sub_sub]

theorem one_lt_length_rounds_iff (k : Nat) :
    1 < ((pairUp op)^[k] fs).length ↔ k < Nat.clog 2 fs.length := by
  have hmore : 0 < Nat.clog 2 ((pairUp op)^[k] fs).length ↔ 1 < ((pairUp op)^[k] fs).length :=
    Nat.lt_clog_iff_pow_lt Nat.one_lt_two
  rw [← hmore, clog_length_rounds, Nat.sub_pos_iff_lt]

theorem rounds_ne_nil (h : fs ≠ []) (k : Nat) : (pairUp op)^[k] fs ≠ [] := by
  induction k with
  | zero => exact h
  | succ k ih =>
    rw [Function.iterate_succ_apply']
    exact pairUp_ne_nil ih

theorem balanced_rounds (op : Connective) (fs : List Filter) (k : Nat) :
    balanced op ((pairUp op)^[k] fs) = balanced op fs := by
  induction k with
  | zero => rfl
  | succ k ih => rw [Function.iterate_succ_apply', balanced_pairUp, ih]

theorem rowDepth_rounds_le (op : Connective) (fs : List Filter) (k : Nat) :
    rowDepth ((pairUp op)^[k] fs) ≤ rowDepth fs + k := by
  induction k with
  | zero => exact Nat.le_refl _
  | succ k ih =>
    have hround := rowDepth_pairUp_le op ((pairUp op)^[k] fs)
    rw [Function.iterate_succ_apply']
    omega

/-- After these rounds one filter is left. It is what the whole row is joined to, since no round
changes that. -/
theorem rounds_balanced (h : fs ≠ []) :
    (pairUp op)^[Nat.clog 2 fs.length] fs = [balanced op fs] := by
  have hshort : ¬1 < ((pairUp op)^[Nat.clog 2 fs.length] fs).length := by
    rw [one_lt_length_rounds_iff]
    exact Nat.lt_irrefl _
  have hlast := balanced_rounds op fs (Nat.clog 2 fs.length)
  match hrow : (pairUp op)^[Nat.clog 2 fs.length] fs with
  | [] => exact absurd hrow (rounds_ne_nil h _)
  | [f] =>
    rw [hrow, balanced] at hlast
    rw [hlast]
  | f :: g :: rest =>
    rw [hrow] at hshort
    simp at hshort

/-! ## Depths -/

theorem depth_balanced_le (op : Connective) (h : fs ≠ []) :
    (balanced op fs).depth ≤ rowDepth fs + Nat.clog 2 fs.length := by
  have hdepth := rowDepth_rounds_le op fs (Nat.clog 2 fs.length)
  rwa [rounds_balanced h, rowDepth_singleton] at hdepth

/-- However a row is joined, every level doubles the number of operands at most. -/
theorem Bracketing.clog_length_le_depth (h : Bracketing op fs f) :
    Nat.clog 2 fs.length ≤ f.depth := by
  refine Nat.clog_le_of_le_pow ?_
  induction h with
  | single f => exact Nat.one_le_two_pow
  | @join fs gs left right _ _ ihl ihr =>
    have hleft : 2 ^ left.depth ≤ 2 ^ max left.depth right.depth :=
      Nat.pow_le_pow_right Nat.two_pos (Nat.le_max_left _ _)
    have hright : 2 ^ right.depth ≤ 2 ^ max left.depth right.depth :=
      Nat.pow_le_pow_right Nat.two_pos (Nat.le_max_right _ _)
    rw [List.length_append, depth, Nat.pow_succ]
    omega

/-- A row is joined in as many rounds as its number of filters has to be halved, rounding up, until
one is left: before each of them there is more than one filter, and after the last one there is the
result. It joins the row in order, each filter once, and is deeper than the deepest of them by one
level for each round at most. Conditions alone are joined as shallowly as they can be. -/
theorem balanced_shallow (op : Connective) {fs : List Filter} (h : fs ≠ []) :
    (∀ k, 1 < ((pairUp op)^[k] fs).length ↔ k < Nat.clog 2 fs.length) ∧
      (pairUp op)^[Nat.clog 2 fs.length] fs = [balanced op fs] ∧
      Bracketing op fs (balanced op fs) ∧
      (balanced op fs).depth ≤ rowDepth fs + Nat.clog 2 fs.length ∧
      ((∀ f ∈ fs, ∃ p, f = leaf p) →
        (balanced op fs).depth = Nat.clog 2 fs.length) := by
  have hrow : Bracketing op fs (balanced op fs) := .balanced h
  have hdepth := depth_balanced_le op h
  refine ⟨one_lt_length_rounds_iff, rounds_balanced h, hrow, hdepth, fun hleaves => ?_⟩
  rw [rowDepth_eq_zero hleaves, Nat.zero_add] at hdepth
  exact Nat.le_antisymm hdepth hrow.clog_length_le_depth

/-- Five conditions take three rounds. The fifth one is left over in the first two of them. -/
theorem depth_fiveUsers :
    let users := ["a", "b", "c", "d", "e"].map namedUser
    users ≠ [] ∧ (pairUp .and)^[3] users = [allOf users] ∧ (allOf users).depth = 3 := by
  intro users
  have hne : users ≠ [] := List.cons_ne_nil _ _
  have hleaves : ∀ f ∈ users, ∃ p, f = leaf p := by
    intro f hf
    obtain ⟨name, -, rfl⟩ := List.mem_map.mp hf
    exact ⟨_, rfl⟩
  have hclog : Nat.clog 2 users.length = 3 := by decide
  obtain ⟨-, hrounds, -, -, hdepth⟩ := balanced_shallow .and hne
  rw [hclog] at hrounds hdepth
  exact ⟨hne, hrounds, hdepth hleaves⟩

end HybridSearch.Filter
