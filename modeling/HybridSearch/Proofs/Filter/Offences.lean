import HybridSearch.Proofs.Filter.Rendering
import HybridSearch.Proofs.Schema.Fields
import HybridSearch.Proofs.Text.Blank

/-!
# Which filters are refused, and why

A node of a filter offends if it is a condition with bad operands, on a field that is not declared,
or on a field of another kind; or if it negates a filter that every document matches. Compilation
goes along flattened chains and drops members, and yet it is refused exactly for the first offending
node of the filter itself.

* `Predicate.BadOperands`: what is wrong with operands, by `BadRange` and `BadCircle` for numbers.
* `Predicate.IsOn`: the field that a condition is on, and its kind.
* `Predicate.Offends`, `Filter.Offends`: what is wrong with a node, said without the checks.
* `Filter.FirstOffence`: the offence that is met first.
* `compile_refuses_first_offence`: the filters that compile, and the errors of the others.
-/
namespace HybridSearch

/-! ## Bounds -/

namespace Bound

/-- A bound with a number, which may itself lie in the range or not. -/
inductive IsAt : Bound → Binary64 → Prop
  | inclusive (x : Binary64) : IsAt (.inclusive x) x
  | exclusive (x : Binary64) : IsAt (.exclusive x) x

theorem value?_eq_some_iff {bound : Bound} {x : Binary64} :
    bound.value? = some x ↔ bound.IsAt x := by
  constructor
  · intro h
    cases bound with
    | unbounded => cases h
    | inclusive y =>
      obtain rfl := Option.some.inj h
      exact .inclusive y
    | exclusive y =>
      obtain rfl := Option.some.inj h
      exact .exclusive y
  · rintro (_ | _) <;> rfl

/-- A bound without a number, or one with a finite number. -/
def IsFinite (bound : Bound) : Prop :=
  ∀ x, bound.IsAt x → x.isFinite = true

@[simp] theorem isFinite_unbounded : unbounded.IsFinite :=
  nofun

@[simp] theorem isFinite_inclusive_iff {x : Binary64} :
    (inclusive x).IsFinite ↔ x.isFinite = true := by
  constructor
  · intro h
    exact h x (.inclusive x)
  · rintro h _ ⟨⟩
    exact h

@[simp] theorem isFinite_exclusive_iff {x : Binary64} :
    (exclusive x).IsFinite ↔ x.isFinite = true := by
  constructor
  · intro h
    exact h x (.exclusive x)
  · rintro h _ ⟨⟩
    exact h

theorem find?_value?_eq_none_iff {bound : Bound} :
    bound.value?.toList.find? (fun x => !x.isFinite) = none ↔ bound.IsFinite := by
  simp only [List.find?_eq_none, Option.mem_toList, value?_eq_some_iff, IsFinite,
    Bool.not_eq_true', Bool.not_eq_false]

theorem find?_value?_eq_some_iff {bound : Bound} {x : Binary64} :
    bound.value?.toList.find? (fun y => !y.isFinite) = some x ↔
      bound.IsAt x ∧ x.isFinite = false := by
  rw [← value?_eq_some_iff]
  cases bound.value? with
  | none => simp
  | some y =>
    rw [Option.toList_some, List.find?_singleton, Option.ite_none_right_eq_some, Bool.not_eq_true']
    constructor
    · rintro ⟨hy, ⟨⟩⟩
      exact ⟨rfl, hy⟩
    · rintro ⟨⟨⟩, hy⟩
      exact ⟨hy, rfl⟩

end Bound

/-! ## Conditions -/

namespace Predicate

/-- What is wrong with a range: the first bound that is no finite number, or else bounds that leave
no number between them. -/
inductive BadRange (lower upper : Bound) : RangeFault → Prop
  | lower {x : Binary64} (hat : lower.IsAt x) (hx : x.isFinite = false) :
      BadRange lower upper (.notFinite x)
  | upper {x : Binary64} (hlower : lower.IsFinite) (hat : upper.IsAt x)
      (hx : x.isFinite = false) : BadRange lower upper (.notFinite x)
  | reversed {lo hi : Binary64} (hlower : lower.IsAt lo) (hupper : upper.IsAt hi)
      (hlo : lo.isFinite = true) (hhi : hi.isFinite = true) (h : hi.value < lo.value) :
      BadRange lower upper (.reversed lo hi)
  | empty {lo hi : Binary64} (hlower : lower.IsAt lo) (hupper : upper.IsAt hi)
      (hlo : lo.isFinite = true) (hhi : hi.isFinite = true) (h : lo.value = hi.value)
      (hopen : ¬(lower = .inclusive lo ∧ upper = .inclusive hi)) :
      BadRange lower upper (.empty lo hi)

section Range

variable {lower upper : Bound}

theorem find?_not_isFinite_eq_none_iff :
    (lower.value?.toList ++ upper.value?.toList).find? (fun x => !x.isFinite) = none ↔
      lower.IsFinite ∧ upper.IsFinite := by
  rw [List.find?_append, Option.or_eq_none_iff, Bound.find?_value?_eq_none_iff,
    Bound.find?_value?_eq_none_iff]

theorem find?_not_isFinite_eq_some_iff {x : Binary64} :
    (lower.value?.toList ++ upper.value?.toList).find? (fun y => !y.isFinite) = some x ↔
      (lower.IsAt x ∧ x.isFinite = false) ∨
        lower.IsFinite ∧ upper.IsAt x ∧ x.isFinite = false := by
  rw [List.find?_append, Option.or_eq_some_iff, Bound.find?_value?_eq_none_iff,
    Bound.find?_value?_eq_some_iff, Bound.find?_value?_eq_some_iff]

/-- Two finite numbers are compared, and of equal ones both have to be in the range. -/
theorem rangeFault?_of_isFinite {lo hi : Binary64} (hlower : lower.IsAt lo) (hupper : upper.IsAt hi)
    (hlo : lo.isFinite = true) (hhi : hi.isFinite = true) :
    rangeFault? lower upper =
      if hi.value < lo.value then some (.reversed lo hi)
      else if lo.value = hi.value ∧ ¬(lower = .inclusive lo ∧ upper = .inclusive hi) then
        some (.empty lo hi)
      else none := by
  have hless : hi.less lo = true ↔ hi.value < lo.value := Binary64.less_iff hhi hlo
  have hsame : lo.same hi = true ↔ lo.value = hi.value := Binary64.same_iff hlo hhi
  cases hlower <;> cases hupper <;>
    simp [rangeFault?, Bound.value?, Bound.isInclusive, hlo, hhi, hless, hsame]

theorem rangeFault?_of_unbounded (hlower : lower.IsFinite) (hupper : upper.IsFinite)
    (h : ¬∃ lo hi, lower.IsAt lo ∧ upper.IsAt hi) : rangeFault? lower upper = none := by
  simp only [← Bound.value?_eq_some_iff] at h
  rw [rangeFault?, find?_not_isFinite_eq_none_iff.mpr ⟨hlower, hupper⟩]
  cases hlo : lower.value? with
  | none => rfl
  | some lo =>
    cases hhi : upper.value? with
    | none => rfl
    | some hi => exact absurd ⟨lo, hi, hlo, hhi⟩ h

theorem rangeFault?_eq_some_iff {fault : RangeFault} :
    rangeFault? lower upper = some fault ↔ BadRange lower upper fault := by
  constructor
  · intro h
    cases hfind : (lower.value?.toList ++ upper.value?.toList).find? fun x => !x.isFinite with
    | some x =>
      rw [rangeFault?, hfind] at h
      obtain rfl := Option.some.inj h
      rcases find?_not_isFinite_eq_some_iff.mp hfind with ⟨hat, hx⟩ | ⟨hlower, hat, hx⟩
      · exact .lower hat hx
      · exact .upper hlower hat hx
    | none =>
      obtain ⟨hfiniteLower, hfiniteUpper⟩ := find?_not_isFinite_eq_none_iff.mp hfind
      by_cases hnumbers : ∃ lo hi, lower.IsAt lo ∧ upper.IsAt hi
      · obtain ⟨lo, hi, hlower, hupper⟩ := hnumbers
        have hlo := hfiniteLower lo hlower
        have hhi := hfiniteUpper hi hupper
        rw [rangeFault?_of_isFinite hlower hupper hlo hhi] at h
        split_ifs at h with hreversed hempty
        · obtain rfl := Option.some.inj h
          exact .reversed hlower hupper hlo hhi hreversed
        · obtain rfl := Option.some.inj h
          exact .empty hlower hupper hlo hhi hempty.1 hempty.2
      · cases (rangeFault?_of_unbounded hfiniteLower hfiniteUpper hnumbers).symm.trans h
  · intro h
    cases h with
    | lower hat hx =>
      rw [rangeFault?, find?_not_isFinite_eq_some_iff.mpr (.inl ⟨hat, hx⟩)]
    | upper hlower hat hx =>
      rw [rangeFault?, find?_not_isFinite_eq_some_iff.mpr (.inr ⟨hlower, hat, hx⟩)]
    | reversed hlower hupper hlo hhi h =>
      rw [rangeFault?_of_isFinite hlower hupper hlo hhi, if_pos h]
    | empty hlower hupper hlo hhi h hopen =>
      rw [rangeFault?_of_isFinite hlower hupper hlo hhi, if_neg h.le.not_gt, if_pos ⟨h, hopen⟩]

end Range

section Circle

variable {lon lat radius : Binary64}

/-- A number of degrees, up to a limit on both sides. -/
def Within (limit : ℚ) (x : Binary64) : Prop :=
  x.isFinite = true ∧ -limit ≤ x.value ∧ x.value ≤ limit

instance (limit : ℚ) (x : Binary64) : Decidable (Within limit x) :=
  inferInstanceAs (Decidable (_ ∧ _))

theorem isWithin_iff {limit : Nat} (h : limit < 2 ^ 24) {x : Binary64} :
    isWithin limit x = true ↔ Within limit x := by
  obtain ⟨hupper, hupperValue⟩ := Binary64.value_ofInt (n := limit) h
  obtain ⟨hlower, hlowerValue⟩ := Binary64.value_ofInt (n := -limit) (by simpa using h)
  rw [isWithin, Binary64.between_iff hlower hupper, hlowerValue, hupperValue, Int.cast_neg,
    Int.cast_natCast, Within]

/-- What is wrong with a circle: the first of its numbers that is out of its range. -/
inductive BadCircle (lon lat radius : Binary64) : GeoFault → Prop
  | longitude (h : ¬Within 180 lon) : BadCircle lon lat radius (.longitude lon)
  | latitude (hlon : Within 180 lon) (h : ¬Within 90 lat) :
      BadCircle lon lat radius (.latitude lat)
  | radius (hlon : Within 180 lon) (hlat : Within 90 lat)
      (h : ¬(radius.isFinite = true ∧ 0 < radius.value)) :
      BadCircle lon lat radius (.radius radius)

theorem geoFault?_eq_some_iff {fault : GeoFault} :
    geoFault? lon lat radius = some fault ↔ BadCircle lon lat radius fault := by
  have hlon : isWithin 180 lon = true ↔ Within 180 lon := isWithin_iff (by decide)
  have hlat : isWithin 90 lat = true ↔ Within 90 lat := isWithin_iff (by decide)
  simp only [geoFault?, Bool.not_eq_true', ← Bool.not_eq_true, hlon, hlat,
    Binary64.isPositive_iff, ite_not]
  constructor
  · intro h
    split_ifs at h with hinLon hinLat hpositive
    all_goals obtain rfl := Option.some.inj h
    · exact .radius hinLon hinLat hpositive
    · exact .latitude hinLon hinLat
    · exact .longitude hinLon
  · intro h
    cases h with
    | longitude h => rw [if_neg h]
    | latitude hinLon h => rw [if_pos hinLon, if_neg h]
    | radius hinLon hinLat h => rw [if_pos hinLon, if_pos hinLat, if_neg h]

end Circle

inductive BadOperands : Predicate → QueryError → Prop
  | tag {field : String} {values : List String} (h : values = [] ∨ "" ∈ values) :
      BadOperands (.tag field values) (.emptyValue field)
  | range {field : String} {lower upper : Bound} {fault : RangeFault}
      (h : BadRange lower upper fault) :
      BadOperands (.range field lower upper) (.invalidRange field fault)
  | geo {field : String} {lon lat radius : Binary64} {unit : GeoUnit} {fault : GeoFault}
      (h : BadCircle lon lat radius fault) :
      BadOperands (.geo field lon lat radius unit) (.invalidGeo field fault)
  | text {field pattern : String} {fuzzy : Bool} (h : ∀ c ∈ pattern.toList, Text.WhiteSpace c) :
      BadOperands (.text field pattern fuzzy) (.emptyValue field)

theorem operandFault?_eq_some_iff {p : Predicate} {e : QueryError} :
    p.operandFault? = some e ↔ p.BadOperands e := by
  cases p with
  | tag field values =>
    have hbad : (values.isEmpty || values.any String.isEmpty) = true ↔
        values = [] ∨ "" ∈ values := by
      simp
    rw [operandFault?, Option.ite_none_right_eq_some, hbad]
    constructor
    · rintro ⟨h, ⟨⟩⟩
      exact .tag h
    · intro hbad
      cases hbad with
      | tag h => exact ⟨h, rfl⟩
  | range field lower upper =>
    simp only [operandFault?, Option.map_eq_some_iff, rangeFault?_eq_some_iff]
    constructor
    · rintro ⟨fault, h, rfl⟩
      exact .range h
    · intro hbad
      cases hbad with
      | range h => exact ⟨_, h, rfl⟩
  | geo field lon lat radius unit =>
    simp only [operandFault?, Option.map_eq_some_iff, geoFault?_eq_some_iff]
    constructor
    · rintro ⟨fault, h, rfl⟩
      exact .geo h
    · intro hbad
      cases hbad with
      | geo h => exact ⟨_, h, rfl⟩
  | text field pattern fuzzy =>
    rw [operandFault?, Option.ite_none_right_eq_some, Text.isBlankText_iff]
    constructor
    · rintro ⟨h, ⟨⟩⟩
      exact .text h
    · intro hbad
      cases hbad with
      | text h => exact ⟨h, rfl⟩
  | all =>
    constructor
    · rintro ⟨⟩
    · rintro ⟨⟩

theorem operandFault?_eq_none_iff {p : Predicate} :
    p.operandFault? = none ↔ ∀ e, ¬p.BadOperands e := by
  simp only [← operandFault?_eq_some_iff]
  cases p.operandFault? <;> simp

/-- The field that a condition is on, and the kind that the field has to be of. -/
inductive IsOn : Predicate → String → FieldKind → Prop
  | tag (field : String) (values : List String) : IsOn (.tag field values) field .tag
  | range (field : String) (lower upper : Bound) : IsOn (.range field lower upper) field .numeric
  | geo (field : String) (lon lat radius : Binary64) (unit : GeoUnit) :
      IsOn (.geo field lon lat radius unit) field .geo
  | text (field pattern : String) (fuzzy : Bool) : IsOn (.text field pattern fuzzy) field .text

theorem target?_eq_some_iff {p : Predicate} {field : String} {kind : FieldKind} :
    p.target? = some (field, kind) ↔ p.IsOn field kind := by
  constructor
  · intro h
    cases p <;> cases h <;> constructor
  · intro h
    cases h <;> rfl

def fieldFault? (s : Schema) (p : Predicate) : Option QueryError :=
  match p.target? with
  | none => none
  | some (field, kind) =>
    match s.field? field with
    | none => some (.unknownField field)
    | some f => if f.kind = kind then none else some (.typeMismatch field kind f.kind)

/-- What is wrong with a condition under a schema: its operands, or else its field. -/
inductive Offends (s : Schema) (p : Predicate) : QueryError → Prop
  | operands {e : QueryError} (h : p.BadOperands e) : Offends s p e
  | undeclared {field : String} {kind : FieldKind} (hoperands : ∀ e, ¬p.BadOperands e)
      (hon : p.IsOn field kind) (h : ∀ f ∈ s.fields, f.name ≠ field) :
      Offends s p (.unknownField field)
  | mistyped {field : String} {kind actual : FieldKind} {f : Field}
      (hoperands : ∀ e, ¬p.BadOperands e) (hon : p.IsOn field kind) (hmem : f ∈ s.fields)
      (hname : f.name = field) (hactual : f.type.IsOf actual) (hkind : actual ≠ kind) :
      Offends s p (.typeMismatch field kind actual)

theorem fault?_eq (s : Schema) (p : Predicate) :
    p.fault? s = p.operandFault?.or (p.fieldFault? s) := by
  simp only [fault?, check, checkOperands, fieldFault?]
  cases p.operandFault? with
  | some fault => rfl
  | none =>
    cases p.target? with
    | none => rfl
    | some target =>
      obtain ⟨field, kind⟩ := target
      cases hf : s.field? field with
      | none => simp [Schema.requireField, hf]; rfl
      | some f =>
        by_cases hkind : f.kind = kind
        · simp [Schema.requireField, hf, hkind]; rfl
        · simp [Schema.requireField, hf, hkind]; rfl

theorem fieldFault?_eq_some_iff {s : Schema} {p : Predicate} {e : QueryError} :
    p.fieldFault? s = some e ↔ ∃ field kind, p.target? = some (field, kind) ∧
      (((∀ f ∈ s.fields, f.name ≠ field) ∧ .unknownField field = e) ∨
        ∃ f ∈ s.fields, f.name = field ∧ f.kind ≠ kind ∧ .typeMismatch field kind f.kind = e) := by
  rw [fieldFault?]
  cases p.target? with
  | none => simp
  | some target =>
    obtain ⟨field, kind⟩ := target
    dsimp only
    cases hf : s.field? field with
    | none =>
      have hnone := s.field?_eq_none_iff.mp hf
      constructor
      · intro h
        exact ⟨field, kind, rfl, .inl ⟨hnone, Option.some.inj h⟩⟩
      · rintro ⟨_, _, ⟨⟩, ⟨-, rfl⟩ | ⟨f, hmem, hname, -⟩⟩
        · rfl
        · exact absurd hname (hnone f hmem)
    | some f =>
      obtain ⟨hmem, hname⟩ := s.field?_eq_some_iff.mp hf
      constructor
      · intro h
        obtain ⟨hkind, heq⟩ := Option.ite_none_left_eq_some.mp h
        exact ⟨field, kind, rfl, .inr ⟨f, hmem, hname, hkind, Option.some.inj heq⟩⟩
      · rintro ⟨_, _, ⟨⟩, ⟨hnone, -⟩ | ⟨g, hg, hgname, hkind, rfl⟩⟩
        · exact absurd hname (hnone f hmem)
        · obtain rfl := s.eq_of_name hmem hg (hname.trans hgname.symm)
          simp [hkind]

theorem fieldFault?_eq_none_iff {s : Schema} {p : Predicate} {field : String} {kind : FieldKind}
    (htarget : p.target? = some (field, kind)) :
    p.fieldFault? s = none ↔ ∃ f ∈ s.fields, f.name = field ∧ f.kind = kind := by
  rw [fieldFault?, htarget]
  dsimp only
  cases hf : s.field? field with
  | none =>
    have hnone := s.field?_eq_none_iff.mp hf
    simp only [reduceCtorEq, false_iff]
    rintro ⟨f, hmem, hname, -⟩
    exact hnone f hmem hname
  | some f =>
    obtain ⟨hmem, hname⟩ := s.field?_eq_some_iff.mp hf
    simp only [ite_eq_left_iff, reduceCtorEq, imp_false, Classical.not_not]
    constructor
    · intro hkind
      exact ⟨f, hmem, hname, hkind⟩
    · rintro ⟨g, hg, hgname, hkind⟩
      obtain rfl := s.eq_of_name hmem hg (hname.trans hgname.symm)
      exact hkind

theorem fault?_eq_some_iff {s : Schema} {p : Predicate} {e : QueryError} :
    p.fault? s = some e ↔ p.Offends s e := by
  simp only [fault?_eq, Option.or_eq_some_iff, operandFault?_eq_some_iff,
    operandFault?_eq_none_iff, fieldFault?_eq_some_iff, target?_eq_some_iff]
  constructor
  · rintro (h | ⟨hok, field, kind, hon, ⟨h, rfl⟩ | ⟨f, hmem, hname, hkind, rfl⟩⟩)
    · exact .operands h
    · exact .undeclared hok hon h
    · exact .mistyped hok hon hmem hname (FieldType.isOf_iff.mpr rfl) hkind
  · intro h
    cases h with
    | operands h => exact .inl h
    | undeclared hok hon h => exact .inr ⟨hok, _, _, hon, .inl ⟨h, rfl⟩⟩
    | mistyped hok hon hmem hname hactual hkind =>
      obtain rfl := FieldType.isOf_iff.mp hactual
      exact .inr ⟨hok, _, _, hon, .inr ⟨_, hmem, hname, hkind, rfl⟩⟩

/-- A condition that passes its checks is on a declared field. -/
theorem declared_of_fault?_eq_none {s : Schema} {p : Predicate} (h : p.fault? s = none)
    {field : String} {kind : FieldKind} (hon : p.IsOn field kind) :
    ∃ f ∈ s.fields, f.name = field := by
  have hok : ∀ e, ¬p.Offends s e := by
    intro e he
    rw [fault?_eq_some_iff.mpr he] at h
    cases h
  apply Classical.byContradiction
  intro hnone
  refine hok _ (.undeclared (fun e he => hok e (.operands he)) hon fun f hf hname => ?_)
  exact hnone ⟨f, hf, hname⟩

end Predicate

namespace Filter

/-! ## Filters -/

/-- What is wrong with a node of a filter. -/
inductive Offends (s : Schema) : Filter → QueryError → Prop
  | leaf {p : Predicate} {e : QueryError} (h : p.Offends s e) : Offends s (leaf p) e
  | negation {f : Filter} (h : f.isMatchAll = true) : Offends s (not f) .negatedMatchAll

/-- The offence of the first offending node: no node before it offends. -/
def FirstOffence (s : Schema) (f : Filter) (e : QueryError) : Prop :=
  ∃ before g after, f.postorder = before ++ g :: after ∧
    (∀ h ∈ before, ∀ e', ¬Offends s h e') ∧ Offends s g e

theorem fault?_eq_some_iff {s : Schema} {f : Filter} {e : QueryError} :
    f.fault? s = some e ↔ Offends s f e := by
  cases f with
  | leaf p =>
    rw [fault?, Predicate.fault?_eq_some_iff]
    constructor
    · exact .leaf
    · rintro ⟨h⟩
      exact h
  | join op left right =>
    constructor
    · rintro ⟨⟩
    · rintro ⟨⟩
  | not f =>
    rw [fault?, Option.ite_none_right_eq_some]
    constructor
    · rintro ⟨h, ⟨⟩⟩
      exact .negation h
    · intro h
      cases h with
      | negation h => exact ⟨h, rfl⟩

theorem fault?_eq_none_iff {s : Schema} {f : Filter} :
    f.fault? s = none ↔ ∀ e, ¬Offends s f e := by
  simp only [← fault?_eq_some_iff]
  cases f.fault? s <;> simp

theorem firstFault?_eq_some_iff {s : Schema} {f : Filter} {e : QueryError} :
    f.firstFault? s = some e ↔ FirstOffence s f e := by
  rw [firstFault?, List.findSome?_eq_some_iff]
  constructor
  · rintro ⟨before, g, after, hsplit, hg, hbefore⟩
    exact ⟨before, g, after, hsplit, fun h hh => fault?_eq_none_iff.mp (hbefore h hh),
      fault?_eq_some_iff.mp hg⟩
  · rintro ⟨before, g, after, hsplit, hbefore, hg⟩
    exact ⟨before, g, after, hsplit, fault?_eq_some_iff.mpr hg,
      fun h hh => fault?_eq_none_iff.mpr (hbefore h hh)⟩

theorem firstFault?_eq_none_iff {s : Schema} {f : Filter} :
    f.firstFault? s = none ↔ ∀ g ∈ f.postorder, ∀ e, ¬Offends s g e := by
  simp only [firstFault?, List.findSome?_eq_none_iff, fault?_eq_none_iff]

/-- A filter compiles exactly if none of its nodes offends. Otherwise the error is the offence of
the first offending node, each node counted after those below it and the left before the right; and
the checks alone give the same answer. -/
theorem compile_refuses_first_offence (s : Schema) (f : Filter) :
    ((∃ text, f.compile s = .ok text) ↔ ∀ g ∈ f.postorder, ∀ e, ¬Offends s g e) ∧
      (∀ e, f.compile s = .error e ↔ FirstOffence s f e) ∧
      f.validate s = (f.compile s).map fun _ => () := by
  refine ⟨?_, fun e => ?_, ?_⟩
  · rw [← firstFault?_eq_none_iff, compile_eq]
    simp only [faultOr_eq_ok_iff]
    simp
  · rw [compile_eq, faultOr_eq_error_iff, firstFault?_eq_some_iff]
  · rw [compile_eq, validate_eq]
    cases f.firstFault? s <;> rfl

end Filter
end HybridSearch
