import Mathlib.Data.List.Forall2

/-!
# Checks

Computations that may be refused, and what is known once one of them has gone through. A check that
has no other effect is a fault that stands in front of a value or does not.
-/
namespace HybridSearch

section Checks

variable {ε α β γ : Type}

theorem bind_eq_ok_iff {x : Except ε α} {next : α → Except ε β} {b : β} :
    (x >>= next) = .ok b ↔ ∃ a, x = .ok a ∧ next a = .ok b := by
  cases x with
  | error e => simp [bind, Except.bind]
  | ok a => simp [bind, Except.bind]

theorem bind_eq_error_iff {x : Except ε α} {next : α → Except ε β} {e : ε} :
    (x >>= next) = .error e ↔ x = .error e ∨ ∃ a, x = .ok a ∧ next a = .error e := by
  cases x with
  | error e => simp [bind, Except.bind]
  | ok a => simp [bind, Except.bind]

theorem map_eq_ok_iff {x : Except ε α} {g : α → β} {b : β} :
    g <$> x = .ok b ↔ ∃ a, x = .ok a ∧ g a = b := by
  cases x <;> simp [Functor.map, Except.map]

/-- A computation that is given up under a condition has gone through if the condition fails. -/
theorem ite_throw_eq_ok_iff {p : Prop} [Decidable p] {e : ε} {after : α → Except ε β}
    {next : Except ε β} {b : β} :
    (if p then throw e >>= after else next) = .ok b ↔ ¬p ∧ next = .ok b := by
  by_cases h : p
  · simp [h, throw, throwThe, MonadExceptOf.throw, bind, Except.bind]
  · simp [h]

theorem ite_throw_eq_error_iff {p : Prop} [Decidable p] {e e' : ε} {a : α} :
    (if p then throw e else pure a) = (.error e' : Except ε α) ↔ p ∧ e = e' := by
  by_cases h : p
  · simp [h, throw, throwThe, MonadExceptOf.throw]
  · simp [h, pure, Except.pure]

def faultOr (fault : Option ε) (value : α) : Except ε α :=
  match fault with
  | some e => .error e
  | none => .ok value

theorem faultOr_bind (fault : Option ε) (value : α) (next : α → Except ε β) :
    (faultOr fault value >>= next) = fault.elim (next value) .error := by
  cases fault <;> rfl

theorem faultOr_map (fault : Option ε) (value : α) (g : α → β) :
    g <$> faultOr fault value = faultOr fault (g value) := by
  cases fault <;> rfl

theorem faultOr_eq_ok_iff {fault : Option ε} {value a : α} :
    faultOr fault value = .ok a ↔ fault = none ∧ value = a := by
  cases fault <;> simp [faultOr]

theorem faultOr_eq_error_iff {fault : Option ε} {value : α} {e : ε} :
    faultOr fault value = .error e ↔ fault = some e := by
  cases fault <;> simp [faultOr]

/-- A row of values is gone through up to the first fault. -/
theorem filterMapM_faultOr {read : γ → Except ε (Option β)} {fault : γ → Option ε}
    {value : γ → Option β} (xs : List γ) (h : ∀ x ∈ xs, read x = faultOr (fault x) (value x)) :
    xs.filterMapM read = faultOr (xs.findSome? fault) (xs.filterMap value) := by
  induction xs with
  | nil => rfl
  | cons x xs ih =>
    have hx := h x List.mem_cons_self
    have hxs := ih fun y hy => h y (List.mem_cons_of_mem x hy)
    rw [List.filterMapM_cons, hx, hxs, faultOr_bind, List.findSome?_cons, List.filterMap_cons]
    cases fault x with
    | some e => rfl
    | none =>
      cases value x with
      | none => rfl
      | some b => simp [faultOr_map]

/-- A row of values is read as a whole if each of them is. -/
theorem mapM_eq_some_iff {read : α → Option β} {xs : List α} {ys : List β} :
    xs.mapM read = some ys ↔ List.Forall₂ (fun x y => read x = some y) xs ys := by
  induction xs generalizing ys with
  | nil => simp [eq_comm]
  | cons x xs ih =>
    rw [List.mapM_cons, List.forall₂_cons_left_iff]
    simp only [Option.bind_eq_bind, Option.bind_eq_some_iff, Option.pure_def, Option.some.injEq, ih]
    constructor
    · rintro ⟨y, hy, ys', hys', rfl⟩
      exact ⟨y, ys', hy, hys', rfl⟩
    · rintro ⟨y, ys', hy, hys', rfl⟩
      exact ⟨y, hy, ys', hys', rfl⟩

theorem mapM_eq_none_iff {read : α → Option β} {xs : List α} :
    xs.mapM read = none ↔ ∃ x ∈ xs, read x = none := by
  induction xs with
  | nil => simp
  | cons x xs ih =>
    rw [List.mapM_cons]
    simp only [List.mem_cons, exists_eq_or_imp, ← ih]
    cases read x with
    | none => simp
    | some y => cases xs.mapM read <;> simp

theorem mapM_eq_ok_iff {read : α → Except ε β} {xs : List α} {ys : List β} :
    xs.mapM read = .ok ys ↔ List.Forall₂ (fun x y => read x = .ok y) xs ys := by
  induction xs generalizing ys with
  | nil => simp [pure, Except.pure, eq_comm]
  | cons x xs ih =>
    rw [List.mapM_cons, List.forall₂_cons_left_iff]
    simp only [bind_eq_ok_iff, ih]
    constructor
    · rintro ⟨y, hy, ys', hys', ⟨⟩⟩
      exact ⟨y, ys', hy, hys', rfl⟩
    · rintro ⟨y, ys', hy, hys', rfl⟩
      exact ⟨y, hy, ys', hys', rfl⟩

/-- A row of values and what they are read as: every value has its own counterpart. -/
theorem exists_of_forall₂_of_mem {R : α → β → Prop} {xs : List α} {ys : List β}
    (h : List.Forall₂ R xs ys) :
    (∀ x ∈ xs, ∃ y ∈ ys, R x y) ∧ ∀ y ∈ ys, ∃ x ∈ xs, R x y := by
  induction h with
  | nil => exact ⟨nofun, nofun⟩
  | @cons x y xs ys hxy _ ih =>
    refine ⟨fun z hz => ?_, fun z hz => ?_⟩
    · rcases List.mem_cons.mp hz with rfl | hz
      · exact ⟨y, List.mem_cons_self, hxy⟩
      · obtain ⟨w, hw, hzw⟩ := ih.1 z hz
        exact ⟨w, List.mem_cons_of_mem _ hw, hzw⟩
    · rcases List.mem_cons.mp hz with rfl | hz
      · exact ⟨x, List.mem_cons_self, hxy⟩
      · obtain ⟨w, hw, hwz⟩ := ih.2 z hz
        exact ⟨w, List.mem_cons_of_mem _ hw, hwz⟩

/-- A row and what a function makes of it. -/
theorem forall₂_iff_eq_map {R : α → β → Prop} {g : α → β} (h : ∀ x y, R x y ↔ y = g x)
    {xs : List α} {ys : List β} : List.Forall₂ R xs ys ↔ ys = xs.map g := by
  have hR : R = fun x y => g x = y := funext₂ fun x y => propext ((h x y).trans eq_comm)
  rw [hR, ← List.forall₂_map_left_iff, List.forall₂_eq_eq_eq, eq_comm]

/-! ## Conditions in order -/

def errorOf? : Except ε α → Option ε
  | .ok _ => none
  | .error e => some e

theorem errorOf?_eq_some_iff {x : Except ε α} {e : ε} : errorOf? x = some e ↔ x = .error e := by
  cases x <;> simp [errorOf?]

theorem errorOf?_eq_none_iff {x : Except ε α} : errorOf? x = none ↔ ∃ a, x = .ok a := by
  cases x <;> simp [errorOf?]

/-- Of things that may be wrong, each with the error that says so, the error of the first one that
is; none if nothing is wrong. -/
def FirstViolated : List (Prop × ε) → Option ε → Prop
  | [], found => found = none
  | c :: rest, found => c.1 ∧ found = some c.2 ∨ ¬c.1 ∧ FirstViolated rest found

section Conditions

variable {conditions later : List (Prop × ε)} {found : Option ε} {p q : Prop} {e : ε}

theorem firstViolated_none_iff : FirstViolated conditions none ↔ ∀ c ∈ conditions, ¬c.1 := by
  induction conditions with
  | nil => simp [FirstViolated]
  | cons c rest ih => simp [FirstViolated, ih]

/-- What is found is determined by the conditions. -/
theorem FirstViolated.eq_iff (h : FirstViolated conditions found) {found' : Option ε} :
    found = found' ↔ FirstViolated conditions found' := by
  refine ⟨fun heq => heq ▸ h, fun h' => ?_⟩
  induction conditions with
  | nil => exact Eq.trans h (Eq.symm h')
  | cons c rest ih =>
    rcases h with ⟨hc, rfl⟩ | ⟨hc, hrest⟩ <;> rcases h' with ⟨hc', rfl⟩ | ⟨hc', hrest'⟩
    · rfl
    · exact absurd hc hc'
    · exact absurd hc' hc
    · exact ih hrest hrest'

/-- Nothing is refused if none of the conditions is violated. -/
theorem FirstViolated.exists_ok_iff {x : Except ε α} (h : FirstViolated conditions (errorOf? x)) :
    (∃ a, x = .ok a) ↔ ∀ c ∈ conditions, ¬c.1 := by
  rw [← errorOf?_eq_none_iff, h.eq_iff, firstViolated_none_iff]

theorem FirstViolated.map (h : FirstViolated conditions found) (g : ε → γ) :
    FirstViolated (conditions.map fun c => (c.1, g c.2)) (found.map g) := by
  induction conditions with
  | nil => exact congrArg (Option.map g) h
  | cons c rest ih =>
    rcases h with ⟨hc, rfl⟩ | ⟨hc, hrest⟩
    · exact .inl ⟨hc, rfl⟩
    · exact .inr ⟨hc, ih hrest⟩

theorem firstViolated_ite [Decidable p] (hqp : q ↔ p) (h : FirstViolated conditions found) :
    FirstViolated ((q, e) :: conditions) (if p then some e else found) := by
  by_cases hp : p
  · exact .inl ⟨hqp.mpr hp, if_pos hp⟩
  · exact .inr ⟨hqp.not.mpr hp, (if_neg hp).symm ▸ h⟩

theorem firstViolated_unless [Decidable p] (hqp : q ↔ p) (h : FirstViolated conditions found) :
    FirstViolated ((¬q, e) :: conditions) (if p then found else some e) := by
  by_cases hp : p
  · exact .inr ⟨not_not_intro (hqp.mpr hp), (if_pos hp).symm ▸ h⟩
  · exact .inl ⟨hqp.not.mpr hp, if_neg hp⟩

/-- Checks that are made one after the other look for what is wrong in that order. -/
theorem FirstViolated.append (h : FirstViolated conditions found) {found' : Option ε}
    (hlater : FirstViolated later found') :
    FirstViolated (conditions ++ later) (found <|> found') := by
  induction conditions with
  | nil =>
    obtain rfl : found = none := h
    exact hlater
  | cons c rest ih =>
    rcases h with ⟨hc, rfl⟩ | ⟨hc, hrest⟩
    · exact .inl ⟨hc, rfl⟩
    · exact .inr ⟨hc, ih hrest⟩

theorem errorOf?_bind (x : Except ε Unit) (next : Unit → Except ε α) :
    errorOf? (x >>= next) = (errorOf? x <|> errorOf? (next ())) := by
  cases x <;> rfl

/-- What is wrong is found among the first checks, whatever would be checked later. -/
theorem FirstViolated.append_left (h : FirstViolated conditions (some e)) :
    FirstViolated (conditions ++ later) (some e) := by
  induction conditions with
  | nil => cases h
  | cons c rest ih =>
    rcases h with hc | ⟨hc, hrest⟩
    · exact .inl hc
    · exact .inr ⟨hc, ih hrest⟩

theorem FirstViolated.bind {x : Except ε α} {next : α → Except ε β}
    (hx : FirstViolated conditions (errorOf? x))
    (hnext : ∀ a, x = .ok a → FirstViolated later (errorOf? (next a))) :
    FirstViolated (conditions ++ later) (errorOf? (x >>= next)) := by
  cases x with
  | error e => exact hx.append_left
  | ok a => exact hx.append (hnext a rfl)

/-- A row is checked element by element, from the left. -/
theorem FirstViolated.mapM {read : α → Except ε β} {own : α → List (Prop × ε)} {xs : List α}
    (h : ∀ x, FirstViolated (own x) (errorOf? (read x))) :
    FirstViolated (xs.flatMap own) (errorOf? (xs.mapM read)) := by
  induction xs with
  | nil => rfl
  | cons x xs ih =>
    rw [List.mapM_cons, List.flatMap_cons]
    refine (h x).bind fun y _ => ?_
    rw [← List.append_nil (xs.flatMap own)]
    exact ih.bind fun ys _ => rfl

theorem errorOf?_ite_throw [Decidable p] (after : α → Except ε β) (next : Except ε β) :
    errorOf? (if p then throw e >>= after else next) = if p then some e else errorOf? next := by
  by_cases hp : p
  · rw [if_pos hp, if_pos hp]
    rfl
  · rw [if_neg hp, if_neg hp]

end Conditions

/-! ## Checks in order -/

/-- The error of the first check of a row that fails. A check stands for the errors that it may fail
with, so that it passes if there are none. -/
inductive FirstFailure : List (ε → Prop) → ε → Prop
  | here {check : ε → Prop} {later : List (ε → Prop)} {e : ε} (h : check e) :
      FirstFailure (check :: later) e
  | there {check : ε → Prop} {later : List (ε → Prop)} {e : ε} (hpassed : ∀ e', ¬check e')
      (h : FirstFailure later e) : FirstFailure (check :: later) e

/-- The computation fails as the row of checks does, and not otherwise. -/
def Makes (checks : List (ε → Prop)) (x : Except ε α) : Prop :=
  ∀ e, x = .error e ↔ FirstFailure checks e

section Row

variable {checks later : List (ε → Prop)} {check : ε → Prop} {e : ε}

theorem firstFailure_cons_iff : FirstFailure (check :: later) e ↔
    check e ∨ (∀ e', ¬check e') ∧ FirstFailure later e := by
  constructor
  · intro h
    cases h with
    | here h => exact .inl h
    | there hpassed h => exact .inr ⟨hpassed, h⟩
  · rintro (h | ⟨hpassed, h⟩)
    · exact .here h
    · exact .there hpassed h

theorem not_firstFailure_nil : ¬FirstFailure ([] : List (ε → Prop)) e :=
  nofun

/-- Nothing fails if every check passes. -/
theorem forall_not_firstFailure_iff :
    (∀ e, ¬FirstFailure checks e) ↔ ∀ check ∈ checks, ∀ e, ¬check e := by
  induction checks with
  | nil => simp [not_firstFailure_nil]
  | cons check later ih =>
    rw [List.forall_mem_cons, ← ih]
    constructor
    · intro h
      have hpassed : ∀ e, ¬check e := fun e he => h e (.here he)
      exact ⟨hpassed, fun e he => h e (.there hpassed he)⟩
    · rintro ⟨hpassed, hlater⟩ e he
      rcases firstFailure_cons_iff.mp he with he | ⟨-, he⟩
      · exact hpassed e he
      · exact hlater e he

theorem firstFailure_append_iff : FirstFailure (checks ++ later) e ↔
    FirstFailure checks e ∨ (∀ e', ¬FirstFailure checks e') ∧ FirstFailure later e := by
  induction checks with
  | nil => simp [not_firstFailure_nil]
  | cons check rest ih =>
    rw [List.cons_append, firstFailure_cons_iff, firstFailure_cons_iff, ih]
    simp only [firstFailure_cons_iff, not_or, forall_and]
    by_cases hpassed : ∀ e', ¬check e'
    · simp [hpassed]
    · simp [hpassed]

namespace Makes

theorem exists_ok_iff {x : Except ε α} (h : Makes checks x) :
    (∃ a, x = .ok a) ↔ ∀ check ∈ checks, ∀ e, ¬check e := by
  rw [← forall_not_firstFailure_iff]
  simp only [← h _]
  cases x <;> simp

theorem single {x : Except ε α} (h : ∀ e, x = .error e ↔ check e) : Makes [check] x := by
  intro e
  rw [h, firstFailure_cons_iff]
  simp [not_firstFailure_nil]

theorem pure (a : α) : Makes [] (.ok a : Except ε α) := by
  intro e
  simp [not_firstFailure_nil]

theorem bind {x : Except ε α} {next : α → Except ε β} (hx : Makes checks x)
    (hnext : ∀ a, x = .ok a → Makes later (next a)) : Makes (checks ++ later) (x >>= next) := by
  intro e
  rw [bind_eq_error_iff, firstFailure_append_iff, hx]
  simp only [← hx _]
  cases x with
  | error e' => simp
  | ok a => simp [hnext a rfl e]

theorem map {x : Except ε α} (h : Makes checks x) (g : α → β) : Makes checks (g <$> x) := by
  intro e
  rw [← h]
  cases x <;> simp [Functor.map, Except.map]

end Makes

end Row

end Checks
end HybridSearch
