import HybridSearch.Retry
import Mathlib.Data.ENat.Lattice

/-!
# Attempts

What a retried call comes to, for every row of outcomes that it may have. The calls and the pauses
are written down as they happen.

```text
call 1, pause 1, call 2, pause 2, …, call n
```

* `Course`: the outcomes to come, and what has happened so far.
* `settledAt`: the number of the first call that is not to be made again.
* `RetryPolicy.run_course`: how many calls are made, with which pauses, and what the result is.
-/
namespace HybridSearch

/-! ## Courses of calls -/

/-- What happens while a call is retried. -/
inductive Moment (ε α : Type) where
  | call (outcome : Except ε α)
  | pause (delay : Nanoseconds)

/-- The outcomes that calls will have, and what has happened so far, the oldest first. -/
structure Course (ε α : Type) where
  upcoming : Nat → Except ε α
  past : List (Moment ε α) := []

namespace Course

variable {ε α : Type}

/-- A call takes the next outcome. -/
def call : StateM (Course ε α) (Except ε α) := fun c =>
  (c.upcoming 0, ⟨fun i => c.upcoming (i + 1), c.past ++ [.call (c.upcoming 0)]⟩)

def pause (delay : Nanoseconds) : StateM (Course ε α) Unit := fun c =>
  ((), ⟨c.upcoming, c.past ++ [.pause delay]⟩)

end Course

section Attempts

variable {ε α : Type} (transient : ε → Bool)

/-- An outcome that is not a passing failure. -/
def Settles : Except ε α → Prop
  | .ok _ => True
  | .error e => transient e = false

/-- The number of the first call whose outcome is not a passing failure; infinite if there is
none. -/
noncomputable def settledAt (outcomes : Nat → Except ε α) : ℕ∞ :=
  ⨅ (i : Nat) (_ : Settles transient (outcomes i)), ((i + 1 : Nat) : ℕ∞)

variable {transient} {outcomes : Nat → Except ε α} {n left : Nat}

theorem le_settledAt (h : ∀ i < n, ¬Settles transient (outcomes i)) :
    ((n + 1 : Nat) : ℕ∞) ≤ settledAt transient outcomes := by
  refine le_iInf fun i => le_iInf fun hi => ?_
  have hn : n ≤ i := Nat.le_of_not_lt fun hlt => h i hlt hi
  exact Nat.cast_le.mpr (Nat.succ_le_succ hn)

theorem settledAt_le (h : Settles transient (outcomes n)) :
    settledAt transient outcomes ≤ ((n + 1 : Nat) : ℕ∞) :=
  iInf₂_le n h

/-- The calls end with the first outcome that settles them, or with the last call that is
allowed. -/
theorem calls_eq_min (hleft : n ≤ left) (hbefore : ∀ i < n, ¬Settles transient (outcomes i))
    (hlast : n = left ∨ Settles transient (outcomes n)) :
    ((n + 1 : Nat) : ℕ∞) = min ((left + 1 : Nat) : ℕ∞) (settledAt transient outcomes) := by
  have hle := le_settledAt hbefore
  rcases hlast with rfl | hsettles
  · exact (min_eq_left hle).symm
  · have heq : settledAt transient outcomes = ((n + 1 : Nat) : ℕ∞) :=
      le_antisymm (settledAt_le hsettles) hle
    rw [heq]
    exact (min_eq_right (Nat.cast_le.mpr (Nat.succ_le_succ hleft))).symm

end Attempts

/-! ## Runs -/

namespace RetryPolicy

variable {ε α : Type} (p : RetryPolicy) (transient : ε → Bool)

/-- What has happened after a call and some more, with a pause before each of these; `failed` is the
number of the first call. -/
def moments (outcomes : Nat → Except ε α) (failed again : Nat) : List (Moment ε α) :=
  .call (outcomes 0) :: (List.range again).flatMap fun i =>
    [.pause (p.delayAfter (failed + i)), .call (outcomes (i + 1))]

variable {p transient}

theorem moments_succ (outcomes : Nat → Except ε α) (failed again : Nat) :
    p.moments outcomes failed (again + 1) =
      .call (outcomes 0) :: .pause (p.delayAfter failed) ::
        p.moments (fun i => outcomes (i + 1)) (failed + 1) again := by
  rw [moments, moments, List.range_succ_eq_map, List.flatMap_cons, List.flatMap_map]
  simp [Nat.add_comm, Nat.add_left_comm]

theorem run_call (c : Course ε α) :
    Course.call.run c =
      (c.upcoming 0, ⟨fun i => c.upcoming (i + 1), c.past ++ [.call (c.upcoming 0)]⟩) :=
  rfl

/-- One step: the outcome of a call that settles it is the result. -/
theorem runFrom_of_settles {c : Course ε α} (h : Settles transient (c.upcoming 0))
    (left failed : Nat) :
    (p.runFrom transient Course.pause Course.call left failed).run c = Course.call.run c := by
  cases left with
  | zero => rfl
  | succ left =>
    rw [runFrom, StateT.run_bind, run_call]
    cases houtcome : c.upcoming 0 with
    | ok value => rfl
    | error e =>
      rw [houtcome] at h
      have hfinal : ¬transient e = true := Bool.not_eq_true _ ▸ h
      show StateT.run (if transient e then _ else _) _ = _
      rw [if_neg hfinal]
      rfl

/-- One step: after a passing failure there is a pause, and then the calls that are left. -/
theorem runFrom_of_not_settles {c : Course ε α} (h : ¬Settles transient (c.upcoming 0))
    (left failed : Nat) :
    (p.runFrom transient Course.pause Course.call (left + 1) failed).run c =
      (p.runFrom transient Course.pause Course.call left (failed + 1)).run
        ⟨fun i => c.upcoming (i + 1),
          c.past ++ [.call (c.upcoming 0), .pause (p.delayAfter failed)]⟩ := by
  rw [runFrom, StateT.run_bind, run_call]
  cases houtcome : c.upcoming 0 with
  | ok value =>
    rw [houtcome] at h
    exact absurd trivial h
  | error e =>
    rw [houtcome] at h
    have hpassing : transient e = true := by simpa [Settles] using h
    show StateT.run (if transient e then _ else _) _ = _
    rw [if_pos hpassing, StateT.run_bind]
    show StateT.run _ (⟨_, (c.past ++ [.call (.error e)]) ++ [.pause (p.delayAfter failed)]⟩ :
      Course ε α) = _
    rw [List.append_assoc]
    rfl

/-- What is left to happen after a first call that is to be made again is one call less. -/
theorem append_moments (past : List (Moment ε α)) (outcomes : Nat → Except ε α)
    (failed again : Nat) :
    (past ++ [.call (outcomes 0), .pause (p.delayAfter failed)]) ++
        p.moments (fun i => outcomes (i + 1)) (failed + 1) again =
      past ++ p.moments outcomes failed (again + 1) := by
  rw [moments_succ, List.append_assoc]
  rfl

/-- A whole run: the calls go on as long as they fail for a passing reason and there are calls
left. -/
theorem runFrom_course (c : Course ε α) (left failed : Nat) :
    ∃ again ≤ left,
      (∀ i < again, ¬Settles transient (c.upcoming i)) ∧
      (again = left ∨ Settles transient (c.upcoming again)) ∧
      (p.runFrom transient Course.pause Course.call left failed).run c =
        (c.upcoming again,
          ⟨fun i => c.upcoming (i + (again + 1)), c.past ++ p.moments c.upcoming failed again⟩) := by
  induction left generalizing c failed with
  | zero => exact ⟨0, Nat.le_refl 0, nofun, .inl rfl, rfl⟩
  | succ left ih =>
    by_cases hfirst : Settles transient (c.upcoming 0)
    · refine ⟨0, Nat.zero_le _, nofun, .inr hfirst, ?_⟩
      rw [runFrom_of_settles hfirst]
      rfl
    · obtain ⟨again, hleft, hbefore, hlast, hrun⟩ := ih
        ⟨fun i => c.upcoming (i + 1),
          c.past ++ [.call (c.upcoming 0), .pause (p.delayAfter failed)]⟩ (failed + 1)
      refine ⟨again + 1, Nat.succ_le_succ hleft, fun i hi => ?_, hlast.imp_left (congrArg _), ?_⟩
      · cases i with
        | zero => exact hfirst
        | succ i => exact hbefore i (Nat.lt_of_succ_lt_succ hi)
      · rw [runFrom_of_not_settles hfirst, hrun, append_moments]
        rfl

/-- However often a call is to be tried and whatever its outcomes are, it is made until the first
outcome that is not a passing failure, at least once and at most as often as the policy says. The
last outcome is the result. Between two calls there is one pause, the first one after the first
failed call and so on, and there is none after the last call. -/
theorem run_course (p : RetryPolicy) (transient : ε → Bool) (outcomes : Nat → Except ε α) :
    ∃ calls : Nat,
      (calls : ℕ∞) = min ((max p.attempts 1 : Nat) : ℕ∞) (settledAt transient outcomes) ∧
      (p.run transient Course.pause Course.call).run ⟨outcomes, []⟩ =
        (outcomes (calls - 1),
          ⟨fun i => outcomes (i + calls),
            .call (outcomes 0) :: (List.range (calls - 1)).flatMap fun i =>
              [.pause (p.delayAfter (i + 1)), .call (outcomes (i + 1))]⟩) := by
  obtain ⟨again, hleft, hbefore, hlast, hrun⟩ :=
    @runFrom_course ε α p transient ⟨outcomes, []⟩ (max p.attempts 1 - 1) 1
  have hattempts : max p.attempts 1 - 1 + 1 = max p.attempts 1 := by omega
  refine ⟨again + 1, ?_, ?_⟩
  · rw [calls_eq_min hleft hbefore hlast, hattempts]
  · rw [run, hrun, moments]
    simp [Nat.add_comm]

end RetryPolicy
end HybridSearch
