import HybridSearch.Proofs.Schema.Fields
import HybridSearch.Proofs.Text.Blank

/-!
# Well-formed schemas

What every schema keeps to, however it came about, and when a draft is refused: the conditions on a
draft are written down in order, and a refusal names the first one that is violated.

* `Draft.conditions`: what may be wrong with a draft, in the order in which it is looked for.
* `Schema.WellFormed`: what a schema keeps to.
* `Schema.wellFormed_or_refused`: every schema keeps to it, and a draft is refused for the first
  condition that it violates.
-/
namespace HybridSearch

/-! ## Conditions -/

def Algorithm.conditions : Algorithm → List (Prop × String × OptionFault)
  | flat blockSize => [(blockSize = some 0, "block_size", .notPositive)]
  | hnsw graph =>
    [(graph.m = 0, "m", .notPositive), (graph.efConstruction = 0, "ef_construction", .notPositive),
      (graph.efRuntime = 0, "ef_runtime", .notPositive),
      (¬(graph.epsilon.isFinite = true ∧ 0 < graph.epsilon.value), "epsilon", .notPositive)]

/-- What may be wrong with the options of a field: the option, and why. -/
def FieldType.conditions : FieldType → List (Prop × String × OptionFault)
  | tag options => [(Text.WhiteSpace options.separator, "separator", .blankSeparator)]
  | text options =>
    [(¬(options.weight.isFinite = true ∧ 0 < options.weight.value), "weight",
      .weight options.weight)]
  | numeric => []
  | geo => []
  | vector options =>
    [(options.dims = 0 ∨ 32768 < options.dims, "dims", .dimensions options.dims),
      (options.initialCap = some 0, "initial_cap", .notPositive)] ++ options.algorithm.conditions

namespace Field

def conditions (f : Field) : List (Prop × SchemaError) :=
  (¬(f.name ≠ "" ∧ ∀ c ∈ f.name.toList, c.isAlphanum = true ∨ c = '_'),
      .invalidFieldName f.name) ::
    f.type.conditions.map fun c => (c.1, .invalidOption f.name c.2.1 c.2.2)

/-- What may be wrong with a field behind others: it itself, then its path, then its name. -/
def conditionsAfter (f : Field) (storage : Storage) (earlier : List Field) :
    List (Prop × SchemaError) :=
  f.conditions ++
    [(storage = .hash ∧ f.path ≠ none, .invalidOption f.name "path" .pathWithoutJson),
      (∃ g ∈ earlier, g.name = f.name, .duplicateField f.name)]

/-- What may be wrong with fields, from the left, behind others. -/
def conditionsOfAll (storage : Storage) :
    (earlier : List Field) → List Field → List (Prop × SchemaError)
  | _, [] => []
  | earlier, f :: rest =>
    f.conditionsAfter storage earlier ++ conditionsOfAll storage (earlier ++ [f]) rest

end Field

/-- What may be wrong with a draft, in order: its name, its prefix, then field by field. -/
def Draft.conditions (d : Draft) : List (Prop × SchemaError) :=
  (∀ c ∈ d.name.toList, Text.WhiteSpace c, .emptyIndexName) ::
    (d.storage = .hash ∧ d.keyPrefix = "", .missingPrefix) ::
      Field.conditionsOfAll d.storage [] d.fields

/-- Fields that are right by themselves, have no paths and no name twice violate no condition. -/
theorem Field.not_conditionsOfAll {storage : Storage} {earlier fields : List Field}
    (hown : ∀ f ∈ fields, ∀ c ∈ f.conditions, ¬c.1) (hpath : ∀ f ∈ fields, f.path = none)
    (hnames : ((earlier ++ fields).map Field.name).Nodup) :
    ∀ c ∈ conditionsOfAll storage earlier fields, ¬c.1 := by
  induction fields generalizing earlier with
  | nil => exact List.forall_mem_nil _
  | cons f rest ih =>
    obtain ⟨hown, hownRest⟩ := List.forall_mem_cons.mp hown
    obtain ⟨hpath, hpathRest⟩ := List.forall_mem_cons.mp hpath
    have hfresh : ¬∃ g ∈ earlier, g.name = f.name := by
      rintro ⟨g, hg, hname⟩
      rw [List.map_append, List.nodup_append'] at hnames
      exact hnames.2.2 (List.mem_map_of_mem hg) (hname ▸ List.mem_cons_self)
    rw [List.append_cons] at hnames
    simp only [conditionsOfAll, conditionsAfter, List.forall_mem_append, List.forall_mem_cons]
    exact ⟨⟨hown, fun h => h.2 hpath, hfresh, List.forall_mem_nil _⟩,
      ih hownRest hpathRest hnames⟩

/-! ## Checks look for violated conditions in order -/

theorem FieldType.firstViolated_fault? (type : FieldType) :
    FirstViolated type.conditions type.fault? := by
  have hnone : FirstViolated ([] : List (Prop × String × OptionFault)) none := rfl
  cases type with
  | tag options => exact firstViolated_ite Text.isBlank_iff.symm hnone
  | text options => exact firstViolated_unless Binary64.isPositive_iff.symm hnone
  | numeric => exact hnone
  | geo => exact hnone
  | vector options =>
    refine firstViolated_ite Iff.rfl (firstViolated_ite Iff.rfl ?_)
    cases options.algorithm with
    | flat blockSize => exact firstViolated_ite Iff.rfl hnone
    | hnsw graph =>
      exact firstViolated_ite Iff.rfl (firstViolated_ite Iff.rfl
        (firstViolated_ite Iff.rfl (firstViolated_unless Binary64.isPositive_iff.symm hnone)))

namespace Field

variable {storage : Storage}

theorem conditionsAfter_subset_of_mem {f : Field} {earlier fields : List Field} (h : f ∈ fields) :
    ∃ others, f.conditionsAfter storage others ⊆ conditionsOfAll storage earlier fields := by
  induction fields generalizing earlier with
  | nil => cases h
  | cons first rest ih =>
    rw [conditionsOfAll]
    rcases List.mem_cons.mp h with rfl | h
    · exact ⟨earlier, List.subset_append_left _ _⟩
    · obtain ⟨others, hothers⟩ := @ih (earlier ++ [first]) h
      exact ⟨others, List.Subset.trans hothers (List.subset_append_right _ _)⟩

theorem errorOf?_check (f : Field) :
    errorOf? f.check =
      if Text.isWord f.name then
        f.type.fault?.map fun option => .invalidOption f.name option.1 option.2
      else some (.invalidFieldName f.name) := by
  rw [check]
  cases Text.isWord f.name with
  | false => rfl
  | true => cases f.type.fault? <;> rfl

theorem firstViolated_check (f : Field) : FirstViolated f.conditions (errorOf? f.check) := by
  rw [errorOf?_check]
  exact firstViolated_unless Text.isWord_iff.symm (f.type.firstViolated_fault?.map
    fun option => SchemaError.invalidOption f.name option.1 option.2)

theorem firstViolated_checkAfter (f : Field) {noted : List (String × Nat)} {earlier : List Field}
    (hnoted : ∀ name, name ∈ noted.map Prod.fst ↔ ∃ g ∈ earlier, g.name = name) :
    FirstViolated (f.conditionsAfter storage earlier) (errorOf? (f.checkAfter storage noted)) := by
  have hpath : (storage = .hash ∧ f.path ≠ none) ↔ (storage = .hash ∧ f.path.isSome = true) := by
    rw [Option.isSome_iff_ne_none]
  have hname : (∃ g ∈ earlier, g.name = f.name) ↔
      (noted.any fun entry => entry.1 == f.name) = true := by
    rw [← hnoted, List.any_eq_true, List.mem_map]
    simp only [beq_iff_eq]
  rw [checkAfter, errorOf?_bind, errorOf?_ite_throw]
  refine f.firstViolated_check.append (firstViolated_ite hpath ?_)
  cases hany : noted.any fun entry => entry.1 == f.name with
  | true => exact .inl ⟨hname.mpr hany, rfl⟩
  | false => exact .inr ⟨hname.not.mpr (by rw [hany]; exact Bool.false_ne_true), rfl⟩

theorem firstViolated_noteAll {position : Nat} {noted : List (String × Nat)}
    {earlier fields : List Field}
    (hnoted : ∀ name, name ∈ noted.map Prod.fst ↔ ∃ g ∈ earlier, g.name = name) :
    FirstViolated (conditionsOfAll storage earlier fields)
      (errorOf? (noteAll storage position noted fields)) := by
  induction fields generalizing position noted earlier with
  | nil => rfl
  | cons f rest ih =>
    rw [conditionsOfAll, noteAll, errorOf?_bind]
    refine (f.firstViolated_checkAfter hnoted).append (ih fun name => ?_)
    rw [List.map_cons, List.mem_cons, hnoted]
    simp [or_comm, eq_comm]

end Field

namespace Draft

theorem firstViolated_positions (d : Draft) :
    FirstViolated d.conditions (errorOf? d.positions) := by
  have hprefix : (d.storage = .hash ∧ d.keyPrefix = "") ↔
      (d.storage = .hash ∧ d.keyPrefix.isEmpty = true) := by
    rw [String.isEmpty_iff]
  rw [positions, errorOf?_ite_throw, errorOf?_ite_throw]
  exact firstViolated_ite Text.isBlankText_iff.symm
    (firstViolated_ite hprefix (Field.firstViolated_noteAll (by simp)))

/-- What is built from a draft is the draft with its positions. -/
theorem build_eq_ok_iff {d : Draft} {s : Schema} : d.build = .ok s ↔ s.toDraft = d := by
  rw [build]
  split
  · rename_i positions hpositions
    rw [Except.ok.injEq]
    constructor
    · rintro rfl
      rfl
    · rintro rfl
      obtain rfl := Except.ok.inj (hpositions.symm.trans s.checked)
      rfl
  · rename_i e herror
    refine ⟨nofun, ?_⟩
    rintro rfl
    cases herror.symm.trans s.checked

theorem errorOf?_build (d : Draft) : errorOf? d.build = errorOf? d.positions := by
  rw [build]
  split
  · rename_i positions hpositions
    exact (congrArg errorOf? hpositions).symm
  · rename_i e herror
    exact (congrArg errorOf? herror).symm

theorem exists_build_iff {d : Draft} : (∃ s, d.build = .ok s) ↔ ∀ c ∈ d.conditions, ¬c.1 := by
  have hfirst := d.firstViolated_positions
  rw [← d.errorOf?_build] at hfirst
  exact hfirst.exists_ok_iff

end Draft

/-! ## Schemas -/

namespace Schema

/-- What a schema keeps to. -/
structure WellFormed (s : Schema) : Prop where
  check_eq : s.check = .ok ()
  build_eq : s.toDraft.build = .ok s
  name_not_blank : ∃ c ∈ s.name.toList, ¬Text.WhiteSpace c
  prefix_of_hash : s.storage = .hash → s.keyPrefix ≠ ""
  path_of_hash : s.storage = .hash → ∀ f ∈ s.fields, f.path = none
  words : ∀ f ∈ s.fields, f.name ≠ "" ∧ ∀ c ∈ f.name.toList, c.isAlphanum = true ∨ c = '_'
  nodup_names : (s.fields.map Field.name).Nodup
  nodup_positions : (s.positions.map Prod.fst).Nodup
  mem_positions_iff : ∀ name i, (name, i) ∈ s.positions ↔
    ∃ f, s.fields[i]? = some f ∧ f.name = name
  dims : ∀ f ∈ s.fields, ∀ options, f.type = .vector options →
    1 ≤ options.dims ∧ options.dims ≤ 32768 ∧
      options.byteLength = options.dims * options.elementType.size
  field?_eq_some_iff : ∀ name f, s.field? name = some f ↔
    f ∈ s.fields ∧ f.name = name ∧ ∀ g ∈ s.fields, g.name = name → g = f
  field?_eq_none_iff : ∀ name, s.field? name = none ↔ ∀ f ∈ s.fields, f.name ≠ name

theorem wellFormed (s : Schema) : s.WellFormed := by
  have hchecked := s.checked
  have hfirst := s.firstViolated_positions
  rw [errorOf?_eq_none_iff.mpr ⟨s.positions, hchecked⟩] at hfirst
  have hsound := firstViolated_none_iff.mp hfirst
  rw [Draft.conditions, List.forall_mem_cons, List.forall_mem_cons] at hsound
  obtain ⟨hname, hprefix, hfields⟩ := hsound
  have hfield : ∀ f ∈ s.fields, ∃ others, ∀ c ∈ f.conditionsAfter s.storage others, ¬c.1 := by
    intro f hf
    obtain ⟨others, hothers⟩ := Field.conditionsAfter_subset_of_mem hf
    exact ⟨others, fun c hc => hfields c (hothers hc)⟩
  refine ⟨?_, Draft.build_eq_ok_iff.mpr rfl, ?_, fun hhash hempty => hprefix ⟨hhash, hempty⟩,
    fun hhash f hf => ?_, fun f hf => ?_, s.nodup_names, s.nodup_positions,
    fun name i => s.mem_positions_iff, fun f hf options htype => s.dims_of_mem hf htype,
    fun name f => ?_, fun name => s.field?_eq_none_iff⟩
  · rw [Draft.check, hchecked]
    rfl
  · simpa using hname
  · obtain ⟨others, hsound⟩ := hfield f hf
    rw [Field.conditionsAfter, List.forall_mem_append, List.forall_mem_cons] at hsound
    by_contra hpath
    exact hsound.2.1 ⟨hhash, hpath⟩
  · exact Text.isWord_iff.mp (s.isWord_of_mem hf)
  · rw [s.field?_eq_some_iff]
    refine and_congr_right fun hf => ⟨fun hname => ⟨hname, fun g hg hgname => ?_⟩, And.left⟩
    exact List.inj_on_of_nodup_map s.nodup_names hg hf (hgname.trans hname.symm)

/-- Every schema keeps to all that is asked of it, in whatever way it was declared or changed: each
way ends in building a draft. A draft is built as it is if it violates no condition, and otherwise
refused for the first one that it violates. -/
theorem wellFormed_or_refused :
    (∀ s : Schema, s.WellFormed) ∧
      ∀ d : Draft,
        (∀ s : Schema, d.build = .ok s ↔ s.toDraft = d) ∧
        ((∃ s, d.build = .ok s) ↔ ∀ c ∈ d.conditions, ¬c.1) ∧
        ∀ e, d.build = .error e ↔ FirstViolated d.conditions (some e) := by
  refine ⟨wellFormed, fun d => ⟨fun s => Draft.build_eq_ok_iff, ?_, fun e => ?_⟩⟩
  all_goals
    have hfirst := d.firstViolated_positions
    rw [← d.errorOf?_build] at hfirst
  · rw [← errorOf?_eq_none_iff, hfirst.eq_iff, firstViolated_none_iff]
  · rw [← errorOf?_eq_some_iff, hfirst.eq_iff]

end Schema
end HybridSearch
