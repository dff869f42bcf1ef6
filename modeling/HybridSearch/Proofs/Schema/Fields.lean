import HybridSearch.Filter.Predicate
import HybridSearch.Proofs.Checks
import HybridSearch.Proofs.Named
import HybridSearch.Proofs.Number.Values

/-!
# The fields of a schema

What the checks of a draft leave: names that are words, no name twice, vectors of a sensible length,
and a look-up by name that finds exactly what is declared.

* `FieldType.IsOf`: the kind of a field, said by its options.
* `Schema.mem_positions_iff`: the positions that have been noted.
* `Schema.isWord_of_mem`, `Schema.nodup_names`: the names.
* `Schema.dims_of_mem`: the dimensions of vectors.
* `Schema.field?_eq_some_iff`, `Schema.field?_eq_none_iff`: the look-up.
-/
namespace HybridSearch

theorem Binary64.isPositive_iff {x : Binary64} :
    x.isPositive = true ↔ x.isFinite = true ∧ 0 < x.value := by
  rw [isPositive, Bool.and_eq_true, decide_eq_true_iff, units_pos_iff]

/-! ## Kinds -/

/-- The kind of a field, by the options that it has. -/
inductive FieldType.IsOf : FieldType → FieldKind → Prop
  | tag (options : TagOptions) : IsOf (.tag options) .tag
  | text (options : TextOptions) : IsOf (.text options) .text
  | numeric : IsOf .numeric .numeric
  | geo : IsOf .geo .geo
  | vector (options : VectorOptions) : IsOf (.vector options) .vector

theorem FieldType.isOf_iff {type : FieldType} {kind : FieldKind} :
    type.IsOf kind ↔ type.kind = kind := by
  constructor
  · intro h
    cases h <;> rfl
  · rintro rfl
    cases type <;> constructor

theorem FieldType.isOf_numeric_iff {type : FieldType} : type.IsOf .numeric ↔ type = .numeric := by
  constructor
  · rintro ⟨⟩
    rfl
  · rintro rfl
    exact .numeric

theorem FieldType.isOf_vector_iff {type : FieldType} :
    type.IsOf .vector ↔ ∃ options, type = .vector options := by
  constructor
  · intro h
    cases h with
    | vector options => exact ⟨options, rfl⟩
  · rintro ⟨options, rfl⟩
    exact .vector options

instance (type : FieldType) (kind : FieldKind) : Decidable (type.IsOf kind) :=
  decidable_of_iff _ FieldType.isOf_iff.symm

/-! ## Fields that have passed their checks -/

namespace Field

theorem isWord_of_check {f : Field} (h : f.check = .ok ()) : Text.isWord f.name = true := by
  cases hw : Text.isWord f.name with
  | true => rfl
  | false => simp [check, hw] at h

theorem fault?_of_check {f : Field} (h : f.check = .ok ()) : f.type.fault? = none := by
  cases hfault : f.type.fault? with
  | none => rfl
  | some option => simp [check, isWord_of_check h, hfault] at h

theorem exists_type_of_kind (f : Field) (h : f.kind = .vector) :
    ∃ options, f.type = .vector options :=
  FieldType.isOf_vector_iff.mp (FieldType.isOf_iff.mpr h)

theorem checkAfter_eq_ok {f : Field} {storage : Storage} {noted : List (String × Nat)}
    (h : f.checkAfter storage noted = .ok ()) :
    f.check = .ok () ∧ f.name ∉ noted.map Prod.fst := by
  obtain ⟨⟨⟩, hcheck, hrest⟩ := bind_eq_ok_iff.mp h
  refine ⟨hcheck, fun hmem => ?_⟩
  obtain ⟨-, hname⟩ := ite_throw_eq_ok_iff.mp hrest
  obtain ⟨entry, hentry, heq⟩ := List.mem_map.mp hmem
  have hany : (noted.any fun entry => entry.1 == f.name) = true :=
    List.any_eq_true.mpr ⟨entry, hentry, beq_iff_eq.mpr heq⟩
  cases (if_pos hany).symm.trans hname

/-- Fields that have been noted have passed their checks, no name twice, and what is noted is the
position of each. -/
theorem noteAll_eq_ok {storage : Storage} {position : Nat} {noted noted' : List (String × Nat)}
    {fields : List Field} (h : noteAll storage position noted fields = .ok noted')
    (hnoted : (noted.map Prod.fst).Nodup) :
    (∀ f ∈ fields, f.check = .ok ()) ∧ (noted'.map Prod.fst).Nodup ∧
      ∀ entry, entry ∈ noted' ↔ entry ∈ noted ∨
        ∃ i f, fields[i]? = some f ∧ entry = (f.name, position + i) := by
  induction fields generalizing position noted with
  | nil =>
    obtain rfl := Except.ok.inj h
    exact ⟨List.forall_mem_nil _, hnoted, by simp⟩
  | cons f rest ih =>
    obtain ⟨⟨⟩, hf, hrest⟩ := bind_eq_ok_iff.mp h
    obtain ⟨hcheck, hnew⟩ := checkAfter_eq_ok hf
    obtain ⟨hall, hnodup, hmem⟩ := ih hrest (List.nodup_cons.mpr ⟨hnew, hnoted⟩)
    refine ⟨List.forall_mem_cons.mpr ⟨hcheck, hall⟩, hnodup, fun entry => ?_⟩
    rw [hmem, List.mem_cons]
    constructor
    · rintro ((rfl | hentry) | ⟨i, g, hg, rfl⟩)
      · exact .inr ⟨0, f, rfl, rfl⟩
      · exact .inl hentry
      · exact .inr ⟨i + 1, g, hg, by rw [Nat.add_right_comm, Nat.add_assoc]⟩
    · rintro (hentry | ⟨i, g, hg, rfl⟩)
      · exact .inl (.inr hentry)
      · cases i with
        | zero =>
          obtain rfl := Option.some.inj hg
          exact .inl (.inl rfl)
        | succ i => exact .inr ⟨i, g, hg, by rw [Nat.add_right_comm, Nat.add_assoc]⟩

end Field

namespace Schema

variable (s : Schema)

theorem noteAll_fields : Field.noteAll s.storage 0 [] s.fields = .ok s.positions := by
  have h := s.checked
  simp only [Draft.positions] at h
  exact (ite_throw_eq_ok_iff.mp (ite_throw_eq_ok_iff.mp h).2).2

theorem check_of_mem {f : Field} (h : f ∈ s.fields) : f.check = .ok () :=
  (Field.noteAll_eq_ok s.noteAll_fields List.nodup_nil).1 f h

theorem isWord_of_mem {f : Field} (h : f ∈ s.fields) : Text.isWord f.name = true :=
  Field.isWord_of_check (s.check_of_mem h)

theorem nodup_positions : (s.positions.map Prod.fst).Nodup :=
  (Field.noteAll_eq_ok s.noteAll_fields List.nodup_nil).2.1

theorem mem_positions_iff {name : String} {i : Nat} :
    (name, i) ∈ s.positions ↔ ∃ f, s.fields[i]? = some f ∧ f.name = name := by
  rw [(Field.noteAll_eq_ok s.noteAll_fields List.nodup_nil).2.2]
  constructor
  · rintro (hentry | ⟨j, f, hf, heq⟩)
    · cases hentry
    · obtain ⟨rfl, rfl⟩ := Prod.mk.inj heq
      exact ⟨f, by rwa [Nat.zero_add], rfl⟩
  · rintro ⟨f, hf, rfl⟩
    exact .inr ⟨i, f, hf, by rw [Nat.zero_add]⟩

/-- Two fields of one name would have been noted twice. -/
theorem nodup_names : (s.fields.map Field.name).Nodup := by
  rw [List.nodup_iff_getElem?_ne_getElem?]
  intro i j hij hj heq
  obtain ⟨g, hg⟩ : ∃ g, s.fields[j]? = some g :=
    ⟨_, List.getElem?_eq_getElem (by rwa [List.length_map] at hj)⟩
  rw [List.getElem?_map, List.getElem?_map, hg, Option.map_some, Option.map_eq_some_iff] at heq
  obtain ⟨f, hf, hname⟩ := heq
  have hnoted : (g.name, i) = (g.name, j) := List.inj_on_of_nodup_map s.nodup_positions
    (s.mem_positions_iff.mpr ⟨f, hf, hname⟩) (s.mem_positions_iff.mpr ⟨g, hg, rfl⟩) rfl
  exact Nat.ne_of_lt hij (Prod.mk.inj hnoted).2

/-- The dimensions of a vector field are within the limits, so that no length in bytes is too great
to be counted. -/
theorem dims_of_mem {f : Field} (h : f ∈ s.fields) {options : VectorOptions}
    (htype : f.type = .vector options) :
    1 ≤ options.dims ∧ options.dims ≤ maxDims ∧
      options.byteLength = options.dims * options.elementType.size := by
  have hfault := Field.fault?_of_check (s.check_of_mem h)
  have hdims : ¬(options.dims = 0 ∨ maxDims < options.dims) := by
    intro hdims
    rw [htype, FieldType.fault?, if_pos hdims] at hfault
    cases hfault
  rw [not_or] at hdims
  have hsize : options.elementType.size ≤ 8 := by cases options.elementType <;> decide
  have hlimit : options.dims * options.elementType.size ≤ maxDims * 8 :=
    Nat.mul_le_mul (by omega) hsize
  refine ⟨by omega, by omega, ?_⟩
  exact Nat.min_eq_left (Nat.le_trans hlimit (by decide))

/-! ## Fields without vectors -/

/-- The names of the fields that are no vectors. -/
def plainNames : List String :=
  (s.fields.filter fun f => ¬f.type.IsOf .vector).map Field.name

theorem plainNames_eq :
    s.plainNames = (s.fields.filter fun f => f.kind != .vector).map Field.name := by
  rw [plainNames]
  congr 1
  refine List.filter_congr fun f _ => ?_
  rw [decide_not, decide_eq_decide.mpr FieldType.isOf_iff]
  rfl

/-! ## Looking a field up -/

theorem field?_eq_some_iff {name : String} {f : Field} :
    s.field? name = some f ↔ f ∈ s.fields ∧ f.name = name := by
  rw [field?, Option.bind_eq_some_iff]
  simp only [find?_named_eq_some_iff s.nodup_positions]
  constructor
  · rintro ⟨⟨noted, i⟩, ⟨hentry, rfl⟩, hf⟩
    obtain ⟨g, hg, hname⟩ := s.mem_positions_iff.mp hentry
    obtain rfl := Option.some.inj (hg.symm.trans hf)
    exact ⟨List.mem_of_getElem? hf, hname⟩
  · rintro ⟨hmem, rfl⟩
    obtain ⟨i, hf⟩ := List.mem_iff_getElem?.mp hmem
    exact ⟨(f.name, i), ⟨s.mem_positions_iff.mpr ⟨f, hf, rfl⟩, rfl⟩, hf⟩

theorem eq_of_name {f g : Field} (hf : f ∈ s.fields) (hg : g ∈ s.fields) (h : f.name = g.name) :
    f = g := by
  have hfound : s.field? g.name = some f := s.field?_eq_some_iff.mpr ⟨hf, h⟩
  rw [s.field?_eq_some_iff.mpr ⟨hg, rfl⟩] at hfound
  exact (Option.some.inj hfound).symm

theorem field?_eq_none_iff {name : String} :
    s.field? name = none ↔ ∀ f ∈ s.fields, f.name ≠ name := by
  rw [Option.eq_none_iff_forall_ne_some]
  simp only [ne_eq, s.field?_eq_some_iff, not_and]

end Schema
end HybridSearch
