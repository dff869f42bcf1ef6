import HybridSearch.Proofs.Filter.Readability
import HybridSearch.Proofs.Number.ReadBack
import Mathlib.Data.EReal.Basic

/-!
# Ranges of numbers

A range is accepted if its bounds are numbers and some real number lies between them. The text of a
range is read back by its own marks: a parenthesis excludes a bound, and infinity stands for none.
What is read are the reals that the comparison behind the range holds of.

* `Bound.Below`, `Bound.Above`: on which side of a bound a number lies.
* `Filter.exists_numericRange_iff`: the ranges that are accepted.
* `Comparison`: the comparisons that filters are made for.
* `Query.readRange?`: the range that a query text asks for.
* `Comparison.denoted`: it is that of the comparison.
-/
namespace HybridSearch

open Number

/-! ## Ranges that hold something -/

namespace Bound

/-- A number lies above a lower bound. -/
def Below (lower : Bound) (r : ℝ) : Prop :=
  match lower with
  | unbounded => True
  | inclusive x => (x.value : ℝ) ≤ r
  | exclusive x => (x.value : ℝ) < r

/-- A number lies below an upper bound. -/
def Above (upper : Bound) (r : ℝ) : Prop :=
  match upper with
  | unbounded => True
  | inclusive x => r ≤ (x.value : ℝ)
  | exclusive x => r < (x.value : ℝ)

theorem exists_below (lower : Bound) : ∃ r, lower.Below r := by
  cases lower with
  | unbounded => exact ⟨0, trivial⟩
  | inclusive x => exact ⟨x.value, le_rfl⟩
  | exclusive x => exact exists_gt _

theorem exists_above (upper : Bound) : ∃ r, upper.Above r := by
  cases upper with
  | unbounded => exact ⟨0, trivial⟩
  | inclusive x => exact ⟨x.value, le_rfl⟩
  | exclusive x => exact exists_lt _

theorem below_of_lt {lower : Bound} {x : Binary64} (h : lower.IsAt x) {r : ℝ}
    (hr : (x.value : ℝ) < r) : lower.Below r := by
  cases h with
  | inclusive => exact hr.le
  | exclusive => exact hr

theorem above_of_lt {upper : Bound} {x : Binary64} (h : upper.IsAt x) {r : ℝ}
    (hr : r < (x.value : ℝ)) : upper.Above r := by
  cases h with
  | inclusive => exact hr.le
  | exclusive => exact hr

theorem le_of_below {lower : Bound} {x : Binary64} (h : lower.IsAt x) {r : ℝ}
    (hr : lower.Below r) : (x.value : ℝ) ≤ r := by
  cases h with
  | inclusive => exact hr
  | exclusive => exact le_of_lt hr

theorem le_of_above {upper : Bound} {x : Binary64} (h : upper.IsAt x) {r : ℝ}
    (hr : upper.Above r) : r ≤ (x.value : ℝ) := by
  cases h with
  | inclusive => exact hr
  | exclusive => exact le_of_lt hr

/-- A bound holds of its own number only if it is inclusive. -/
theorem below_value_iff {lower : Bound} {x : Binary64} (h : lower.IsAt x) :
    lower.Below x.value ↔ lower = .inclusive x := by
  cases h <;> simp [Below]

theorem above_value_iff {upper : Bound} {x : Binary64} (h : upper.IsAt x) :
    upper.Above x.value ↔ upper = .inclusive x := by
  cases h <;> simp [Above]

section Between

variable {lower upper : Bound}

theorem exists_between_of_unbounded (h : ¬∃ lo hi, lower.IsAt lo ∧ upper.IsAt hi) :
    ∃ r, lower.Below r ∧ upper.Above r := by
  have hnumber : ∀ {bound : Bound}, bound = unbounded ∨ ∃ x, bound.IsAt x := by
    rintro (_ | x | x)
    · exact .inl rfl
    · exact .inr ⟨x, .inclusive x⟩
    · exact .inr ⟨x, .exclusive x⟩
  rcases @hnumber lower with rfl | ⟨lo, hlower⟩
  · obtain ⟨r, hr⟩ := exists_above upper
    exact ⟨r, trivial, hr⟩
  rcases @hnumber upper with rfl | ⟨hi, hupper⟩
  · obtain ⟨r, hr⟩ := exists_below lower
    exact ⟨r, hr, trivial⟩
  · exact absurd ⟨lo, hi, hlower, hupper⟩ h

/-- Between two bounds with different numbers the numbers lie dense; with one number for both, it
is the only candidate. -/
theorem exists_between_iff {lo hi : Binary64} (hlower : lower.IsAt lo) (hupper : upper.IsAt hi) :
    (∃ r, lower.Below r ∧ upper.Above r) ↔
      lo.value < hi.value ∨
        lo.value = hi.value ∧ lower = .inclusive lo ∧ upper = .inclusive hi := by
  constructor
  · rintro ⟨r, hbelow, habove⟩
    have hle : (lo.value : ℝ) ≤ hi.value :=
      (le_of_below hlower hbelow).trans (le_of_above hupper habove)
    rcases lt_or_eq_of_le (Rat.cast_le.mp hle) with hlt | heq
    · exact .inl hlt
    · have hself : r = lo.value := by
        refine le_antisymm ?_ (le_of_below hlower hbelow)
        rw [heq]
        exact le_of_above hupper habove
      subst hself
      refine .inr ⟨heq, (below_value_iff hlower).mp hbelow, ?_⟩
      rw [heq] at habove
      exact (above_value_iff hupper).mp habove
  · rintro (hlt | ⟨heq, hlowerIn, hupperIn⟩)
    · have hcast : (lo.value : ℝ) < hi.value := Rat.cast_lt.mpr hlt
      obtain ⟨r, hlow, hhigh⟩ := exists_between hcast
      exact ⟨r, below_of_lt hlower hlow, above_of_lt hupper hhigh⟩
    · refine ⟨lo.value, (below_value_iff hlower).mpr hlowerIn, ?_⟩
      rw [heq]
      exact (above_value_iff hupper).mpr hupperIn

end Between

end Bound

namespace Predicate

variable {lower upper : Bound}

theorem rangeFault?_eq_none_iff : rangeFault? lower upper = none ↔
    lower.IsFinite ∧ upper.IsFinite ∧ ∃ r, lower.Below r ∧ upper.Above r := by
  rw [← and_assoc, ← find?_not_isFinite_eq_none_iff]
  cases hfind : (lower.value?.toList ++ upper.value?.toList).find? fun x => !x.isFinite with
  | some x => simp [rangeFault?, hfind]
  | none =>
    obtain ⟨hfiniteLower, hfiniteUpper⟩ := find?_not_isFinite_eq_none_iff.mp hfind
    rw [and_iff_right rfl]
    by_cases hnumbers : ∃ lo hi, lower.IsAt lo ∧ upper.IsAt hi
    · obtain ⟨lo, hi, hlower, hupper⟩ := hnumbers
      have hlo := hfiniteLower lo hlower
      have hhi := hfiniteUpper hi hupper
      rw [rangeFault?_of_isFinite hlower hupper hlo hhi, Bound.exists_between_iff hlower hupper]
      rcases lt_trichotomy lo.value hi.value with hlt | heq | hgt
      · simp [hlt, hlt.ne, hlt.le]
      · simp [heq]
      · simp [hgt, hgt.ne', hgt.le]
    · rw [rangeFault?_of_unbounded hfiniteLower hfiniteUpper hnumbers]
      exact iff_of_true rfl (Bound.exists_between_of_unbounded hnumbers)

end Predicate

namespace Filter

variable {field : String} {lower upper : Bound} {f : Filter}

theorem ofPredicate_eq (p : Predicate) : ofPredicate p = faultOr p.operandFault? (leaf p) := by
  rw [ofPredicate, Predicate.make, Predicate.checkOperands]
  cases p.operandFault? <;> rfl

theorem numericRange_eq_ok_iff : numericRange field lower upper = .ok f ↔
    (lower.IsFinite ∧ upper.IsFinite ∧ ∃ r, lower.Below r ∧ upper.Above r) ∧
      leaf (.range field lower upper) = f := by
  rw [numericRange, ofPredicate_eq, faultOr_eq_ok_iff, Predicate.operandFault?,
    Option.map_eq_none_iff, Predicate.rangeFault?_eq_none_iff]

theorem exists_numericRange_iff : (∃ f, numericRange field lower upper = .ok f) ↔
    lower.IsFinite ∧ upper.IsFinite ∧ ∃ r, lower.Below r ∧ upper.Above r := by
  simp only [numericRange_eq_ok_iff, exists_and_left, exists_eq', and_true]

theorem exists_compile_range_iff (h : numericRange field lower upper = .ok f) (s : Schema) :
    (∃ t, f.compile s = .ok t) ↔ ∃ d ∈ s.fields, d.name = field ∧ d.type = .numeric := by
  obtain ⟨hrange, rfl⟩ := numericRange_eq_ok_iff.mp h
  have hoperands : (Predicate.range field lower upper).operandFault? = none := by
    rw [Predicate.operandFault?, Option.map_eq_none_iff]
    exact Predicate.rangeFault?_eq_none_iff.mpr hrange
  simp only [compile_eq, faultOr_eq_ok_iff, exists_and_left, exists_eq', and_true]
  rw [firstFault?_leaf, Predicate.fault?_eq, hoperands, Option.none_or,
    Predicate.fieldFault?_eq_none_iff rfl]
  refine exists_congr fun d => and_congr_right fun _ => and_congr_right fun _ => ?_
  exact FieldType.isOf_iff.symm.trans FieldType.isOf_numeric_iff

theorem canonical_range (field : String) (lower upper : Bound) :
    (leaf (.range field lower upper)).canonical = some (.leaf (.range field lower upper)) :=
  canonical_leaf nofun

theorem conditions_range (field : String) (lower upper : Bound) :
    (leaf (.range field lower upper)).conditions =
      some (.leaf ⟨field, .range lower.lowerText upper.upperText⟩) := by
  rw [conditions, canonical_range]
  rfl

theorem conditions_not (f : Filter) : (not f).conditions = f.conditions.map .not := by
  rw [conditions, canonical, conditions, Option.map_map, Option.map_map]
  rfl

theorem compile_not (f : Filter) (hf : f.isMatchAll = false) (s : Schema) :
    (not f).compile s = (fun t => "(-" ++ t ++ ")") <$> f.compile s := by
  have hnode : fault? s (not f) = none := by
    rw [fault?, hf, if_neg Bool.false_ne_true]
  rw [compile_eq, compile_eq, faultOr_map, firstFault?_not, hnode, Option.or_none]
  cases hfault : f.firstFault? s with
  | some e => rfl
  | none =>
    obtain ⟨c, hc⟩ : ∃ c, f.canonical = some c := by
      rw [← Option.ne_none_iff_exists', Ne, canonical_eq_none_iff hfault, hf]
      exact Bool.false_ne_true
    rw [canonicalText?, canonicalText?, canonical, hc]
    rfl

end Filter

/-! ## Comparisons -/

/-- A comparison of the numbers of a field. -/
inductive Comparison where
  | equals (x : Binary64)
  | greater (x : Binary64)
  | atLeast (x : Binary64)
  | less (x : Binary64)
  | atMost (x : Binary64)
  | between (lower upper : Binary64)

namespace Comparison

def filter (field : String) : Comparison → Except QueryError Filter
  | equals x => Filter.numericEquals field x
  | greater x => Filter.numericGreater field x
  | atLeast x => Filter.numericAtLeast field x
  | less x => Filter.numericLess field x
  | atMost x => Filter.numericAtMost field x
  | between lower upper => Filter.numericBetween field lower upper

def Holds (r : ℝ) : Comparison → Prop
  | equals x => r = x.value
  | greater x => r > x.value
  | atLeast x => r ≥ x.value
  | less x => r < x.value
  | atMost x => r ≤ x.value
  | between lower upper => lower.value ≤ r ∧ r ≤ upper.value

def operands : Comparison → List Binary64
  | equals x | greater x | atLeast x | less x | atMost x => [x]
  | between lower upper => [lower, upper]

/-- The two operands of a comparison that has two are in order. -/
def IsOrdered : Comparison → Prop
  | between lower upper => lower.value ≤ upper.value
  | _ => True

def lower : Comparison → Bound
  | equals x | atLeast x | between x _ => .inclusive x
  | greater x => .exclusive x
  | less _ | atMost _ => .unbounded

def upper : Comparison → Bound
  | equals x | atMost x | between _ x => .inclusive x
  | less x => .exclusive x
  | greater _ | atLeast _ => .unbounded

variable {c : Comparison}

theorem filter_eq (c : Comparison) (field : String) :
    c.filter field = Filter.numericRange field c.lower c.upper := by
  cases c <;> rfl

theorem holds_iff {r : ℝ} : c.Holds r ↔ c.lower.Below r ∧ c.upper.Above r := by
  cases c with
  | equals x => exact ⟨fun h => ⟨h.ge, h.le⟩, fun h => le_antisymm h.2 h.1⟩
  | greater x => exact (and_iff_left trivial).symm
  | atLeast x => exact (and_iff_left trivial).symm
  | less x => exact (and_iff_right trivial).symm
  | atMost x => exact (and_iff_right trivial).symm
  | between lower upper => exact Iff.rfl

theorem exists_holds_iff : (∃ r, c.Holds r) ↔ c.IsOrdered := by
  cases c with
  | equals x => exact ⟨fun _ => trivial, fun _ => ⟨x.value, rfl⟩⟩
  | greater x => exact ⟨fun _ => trivial, fun _ => exists_gt _⟩
  | atLeast x => exact ⟨fun _ => trivial, fun _ => ⟨x.value, le_rfl⟩⟩
  | less x => exact ⟨fun _ => trivial, fun _ => exists_lt _⟩
  | atMost x => exact ⟨fun _ => trivial, fun _ => ⟨x.value, le_rfl⟩⟩
  | between lower upper =>
    constructor
    · rintro ⟨r, hlower, hupper⟩
      exact Rat.cast_le.mp (hlower.trans hupper)
    · intro h
      exact ⟨lower.value, le_rfl, Rat.cast_le.mpr h⟩

theorem isFinite_bounds_iff : c.lower.IsFinite ∧ c.upper.IsFinite ↔
    ∀ x ∈ c.operands, x.isFinite = true := by
  cases c <;>
    simp [lower, upper, operands]

/-- A comparison with finite operands makes a filter unless the two operands of one that has two
are not in order. -/
theorem exists_filter_iff (hc : ∀ x ∈ c.operands, x.isFinite = true) (field : String) :
    (∃ f, c.filter field = .ok f) ↔ c.IsOrdered := by
  rw [← isFinite_bounds_iff] at hc
  rw [filter_eq, Filter.exists_numericRange_iff, ← exists_holds_iff]
  simp only [hc, true_and, holds_iff]

end Comparison

/-! ## Ranges as they are read -/

/-- A bound as it is read, with the infinities for no bound. -/
structure Endpoint where
  limit : EReal
  isExclusive : Bool

/-- A range as it is read, with its field. -/
structure NumberRange where
  field : String
  lower : Endpoint
  upper : Endpoint

namespace Endpoint

def Below (e : Endpoint) (r : ℝ) : Prop :=
  if e.isExclusive then e.limit < r else e.limit ≤ r

def Above (e : Endpoint) (r : ℝ) : Prop :=
  if e.isExclusive then (r : EReal) < e.limit else (r : EReal) ≤ e.limit

section Reading

-- The numbers themselves are read by the search engine, in a way of its own.
variable (read : String → Option ℝ)

noncomputable def readLimit? (text : String) : Option EReal :=
  if text = "-inf" then some ⊥
  else if text = "+inf" then some ⊤
  else (read text).map Real.toEReal

noncomputable def read? (text : String) : Option Endpoint :=
  match text.toList with
  | '(' :: rest => (readLimit? read (String.ofList rest)).map fun limit => ⟨limit, true⟩
  | _ => (readLimit? read text).map fun limit => ⟨limit, false⟩

end Reading

end Endpoint

namespace NumberRange

def Contains (range : NumberRange) (r : ℝ) : Prop :=
  range.lower.Below r ∧ range.upper.Above r

end NumberRange

/-- The range that a query text asks for, if it asks for one and nothing else. -/
noncomputable def Query.readRange? (read : String → Option ℝ) (text : String) :
    Option NumberRange :=
  match Query.readText? text with
  | some (some (.leaf ⟨field, .range lower upper⟩)) => do
    return ⟨field, ← Endpoint.read? read lower, ← Endpoint.read? read upper⟩
  | _ => none

/-- The text of a number is read as that number. -/
def Binary64.IsReadBack (read : String → Option ℝ) (x : Binary64) : Prop :=
  read x.text = some (x.value : ℝ)

/-- The number that a numeral is nearest to. -/
noncomputable def readNumeral? (text : String) : Option ℝ :=
  (ofText? text).map fun x => (x.value : ℝ)

theorem Binary64.isReadBack_readNumeral? {x : Binary64} (hx : x.isFinite = true) :
    x.IsReadBack readNumeral? := by
  rw [IsReadBack, readNumeral?, ofText?_text hx]
  rfl

/-! ## Bounds read back -/

theorem Binary64.not_mem_text_of_isFinite {x : Binary64} (hx : x.isFinite = true) {c : Char}
    (hdigit : c.isDigit = false) (hpoint : c ≠ '.') (hminus : c ≠ '-') : c ∉ x.text.toList := by
  intro hc
  rcases Style.mem_text_of_isFinite hx hc with h | h | h
  · rw [hdigit] at h
    cases h
  · exact hpoint h
  · exact hminus h

namespace Endpoint

variable {read : String → Option ℝ} {x : Binary64}

theorem readLimit?_text (hx : x.isFinite = true) (h : x.IsReadBack read) :
    readLimit? read x.text = some ((x.value : ℝ) : EReal) := by
  have hletter : 'i' ∉ x.text.toList :=
    Binary64.not_mem_text_of_isFinite hx (by decide) (by decide) (by decide)
  have hne : ∀ {infinity : String}, 'i' ∈ infinity.toList → x.text ≠ infinity := by
    rintro infinity hmem rfl
    exact hletter hmem
  rw [readLimit?, if_neg (hne (by decide)), if_neg (hne (by decide)), h]
  rfl

end Endpoint

namespace Bound

variable {read : String → Option ℝ}

/-- A bound as it is to be read. -/
noncomputable def endpoint (infinity : EReal) : Bound → Endpoint
  | unbounded => ⟨infinity, false⟩
  | inclusive x => ⟨(x.value : ℝ), false⟩
  | exclusive x => ⟨(x.value : ℝ), true⟩

theorem read?_text {bound : Bound} {infinityText : String} {infinity : EReal}
    (hinfinity : Endpoint.read? read infinityText = some ⟨infinity, false⟩)
    (hfinite : bound.IsFinite) (hread : ∀ x, bound.IsAt x → x.IsReadBack read) :
    Endpoint.read? read (bound.text infinityText) = some (bound.endpoint infinity) := by
  cases bound with
  | unbounded => exact hinfinity
  | inclusive x =>
    have hx := Bound.isFinite_inclusive_iff.mp hfinite
    have hparenthesis : '(' ∉ x.text.toList :=
      Binary64.not_mem_text_of_isFinite hx (by decide) (by decide) (by decide)
    rw [Bound.text, Endpoint.read?]
    split
    · rename_i rest hrest
      rw [hrest] at hparenthesis
      exact absurd List.mem_cons_self hparenthesis
    · rw [Endpoint.readLimit?_text hx (hread x (.inclusive x))]
      rfl
  | exclusive x =>
    have htext : (Bound.text infinityText (.exclusive x)).toList = '(' :: x.text.toList := by
      rw [Bound.text, String.toList_append]
      rfl
    have hx := Bound.isFinite_exclusive_iff.mp hfinite
    have hlimit := Endpoint.readLimit?_text hx (hread x (.exclusive x))
    rw [← String.ofList_toList (s := x.text)] at hlimit
    rw [Endpoint.read?, htext]
    simp only [hlimit]
    rfl

theorem read?_lowerText {lower : Bound} (hfinite : lower.IsFinite)
    (hread : ∀ x, lower.IsAt x → x.IsReadBack read) :
    Endpoint.read? read lower.lowerText = some (lower.endpoint ⊥) :=
  read?_text rfl hfinite hread

theorem read?_upperText {upper : Bound} (hfinite : upper.IsFinite)
    (hread : ∀ x, upper.IsAt x → x.IsReadBack read) :
    Endpoint.read? read upper.upperText = some (upper.endpoint ⊤) :=
  read?_text rfl hfinite hread

theorem below_endpoint_iff {lower : Bound} {r : ℝ} :
    (lower.endpoint ⊥).Below r ↔ lower.Below r := by
  cases lower with
  | unbounded => exact iff_of_true bot_le trivial
  | inclusive x => exact EReal.coe_le_coe_iff
  | exclusive x => exact EReal.coe_lt_coe_iff

theorem above_endpoint_iff {upper : Bound} {r : ℝ} :
    (upper.endpoint ⊤).Above r ↔ upper.Above r := by
  cases upper with
  | unbounded => exact iff_of_true le_top trivial
  | inclusive x => exact EReal.coe_le_coe_iff
  | exclusive x => exact EReal.coe_lt_coe_iff

end Bound

namespace Comparison

variable {read : String → Option ℝ} {c : Comparison} {field : String} {f : Filter} {s : Schema}
  {t : String}

theorem mem_operands_of_isAt {x : Binary64} (h : c.lower.IsAt x ∨ c.upper.IsAt x) :
    x ∈ c.operands := by
  cases c <;> rcases h with ⟨⟨⟩⟩ | ⟨⟨⟩⟩ <;> simp [operands]

/-- The text of a comparison is read as the numbers that it holds of. -/
theorem readRange?_of_compile (hfilter : c.filter field = .ok f) (hcompile : f.compile s = .ok t)
    (hread : ∀ x ∈ c.operands, x.IsReadBack read) :
    Query.readRange? read t = some ⟨field, c.lower.endpoint ⊥, c.upper.endpoint ⊤⟩ := by
  rw [filter_eq, Filter.numericRange_eq_ok_iff] at hfilter
  obtain ⟨⟨hlower, hupper, -⟩, rfl⟩ := hfilter
  have hlowerRead := Bound.read?_lowerText hlower fun x hx =>
    hread x (mem_operands_of_isAt (.inl hx))
  have hupperRead := Bound.read?_upperText hupper fun x hx =>
    hread x (mem_operands_of_isAt (.inr hx))
  rw [Query.readRange?, Filter.readText?_of_compile hcompile, Filter.conditions_range]
  simp only [hlowerRead, hupperRead]
  rfl

theorem contains_endpoints_iff {r : ℝ} :
    NumberRange.Contains ⟨field, c.lower.endpoint ⊥, c.upper.endpoint ⊤⟩ r ↔ c.Holds r := by
  rw [holds_iff, NumberRange.Contains, Bound.below_endpoint_iff, Bound.above_endpoint_iff]

end Comparison

namespace Filter

/-- The text of an inequation is that of the equation, negated; where one is refused, so is the
other, with the same error. -/
theorem compile_numericNotEquals (field : String) (x : Binary64) (s : Schema) :
    (numericNotEquals field x >>= fun g => g.compile s) =
      (fun t => "(-" ++ t ++ ")") <$> (numericEquals field x >>= fun f => f.compile s) := by
  rw [numericNotEquals]
  cases hmade : numericEquals field x with
  | error e => rfl
  | ok f =>
    obtain ⟨-, rfl⟩ := numericRange_eq_ok_iff.mp hmade
    exact compile_not _ rfl s

theorem readText?_numericNotEquals {field : String} {x : Binary64} {s : Schema} {t : String}
    (h : (numericEquals field x >>= fun f => f.compile s) = .ok t) :
    ∃ c, Query.readText? t = some (some c) ∧
      Query.readText? ("(-" ++ t ++ ")") = some (some (.not c)) := by
  have hnot := compile_numericNotEquals field x s
  rw [h] at hnot
  obtain ⟨f, hmade, hf⟩ := bind_eq_ok_iff.mp h
  rw [numericNotEquals, hmade] at hnot
  obtain ⟨-, rfl⟩ := numericRange_eq_ok_iff.mp hmade
  have hread := readText?_of_compile hf
  have hreadNot := readText?_of_compile hnot
  rw [conditions_range] at hread
  rw [conditions_not, conditions_range] at hreadNot
  exact ⟨_, hread, hreadNot⟩

/-- Ranges are accepted exactly if they are satisfiable, and a comparison with finite operands makes
one unless its two operands are not in order. The range compiles where its field is a field of
numbers, and its text asks for the numbers that the comparison holds of; an inequation is the
negated equation, as text and as it is read. -/
theorem numeric_ranges_exact (read : String → Option ℝ) :
    (∀ (field : String) (lower upper : Bound),
      (∃ f, numericRange field lower upper = .ok f) ↔
        lower.IsFinite ∧ upper.IsFinite ∧ ∃ r, lower.Below r ∧ upper.Above r) ∧
    (∀ (field : String) (c : Comparison), (∀ x ∈ c.operands, x.isFinite = true) →
      ((∃ f, c.filter field = .ok f) ↔ c.IsOrdered) ∧
      ∀ f, c.filter field = .ok f → ∀ s : Schema,
        ((∃ t, f.compile s = .ok t) ↔ ∃ d ∈ s.fields, d.name = field ∧ d.type = .numeric) ∧
        ∀ t, f.compile s = .ok t → (∀ x ∈ c.operands, x.IsReadBack read) →
          ∃ range, Query.readRange? read t = some range ∧ range.field = field ∧
            {r | range.Contains r} = {r | c.Holds r}) ∧
    ∀ (field : String) (x : Binary64) (s : Schema),
      (numericNotEquals field x >>= fun g => g.compile s) =
        (fun t => "(-" ++ t ++ ")") <$> (numericEquals field x >>= fun f => f.compile s) ∧
      ∀ t, (numericEquals field x >>= fun f => f.compile s) = .ok t →
        ∃ c, Query.readText? t = some (some c) ∧
          Query.readText? ("(-" ++ t ++ ")") = some (some (.not c)) := by
  refine ⟨fun _ _ _ => exists_numericRange_iff, fun field c hc => ⟨?_, ?_⟩,
    fun field x s => ⟨compile_numericNotEquals field x s, fun t => readText?_numericNotEquals⟩⟩
  · exact Comparison.exists_filter_iff hc field
  · intro f hf s
    refine ⟨?_, fun t ht hread => ?_⟩
    · rw [Comparison.filter_eq] at hf
      exact exists_compile_range_iff hf s
    · refine ⟨_, Comparison.readRange?_of_compile hf ht hread, rfl, ?_⟩
      exact Set.ext fun r => Comparison.contains_endpoints_iff

/-- The numbers from 1 up to 2.5. -/
def oneToTwoAndHalf : Comparison :=
  .between ⟨0x3FF0000000000000⟩ ⟨0x4004000000000000⟩

theorem filter_oneToTwoAndHalf : oneToTwoAndHalf.filter "age" =
    .ok (leaf (.range "age" oneToTwoAndHalf.lower oneToTwoAndHalf.upper)) := by
  decide +kernel

theorem compile_oneToTwoAndHalf :
    (leaf (.range "age" oneToTwoAndHalf.lower oneToTwoAndHalf.upper)).compile sampleSchema =
      .ok "@age:[1 2.5]" := by
  rw [compile_eq, canonicalText?, canonical_range, faultOr_eq_ok_iff]
  exact ⟨by decide +kernel, by decide +kernel⟩

theorem oneToTwoAndHalf_denoted :
    ∃ range, Query.readRange? readNumeral? "@age:[1 2.5]" = some range ∧ range.field = "age" ∧
      {r | range.Contains r} = {r | oneToTwoAndHalf.Holds r} := by
  have hfinite : ∀ x ∈ oneToTwoAndHalf.operands, x.isFinite = true := by decide
  obtain ⟨-, hcompiled⟩ := (numeric_ranges_exact readNumeral?).2.1 "age" oneToTwoAndHalf hfinite
  exact (hcompiled _ filter_oneToTwoAndHalf sampleSchema).2 _ compile_oneToTwoAndHalf fun x hx =>
    Binary64.isReadBack_readNumeral? (hfinite x hx)

end Filter
end HybridSearch
