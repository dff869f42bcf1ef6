import HybridSearch.Proofs.Query.Request

/-!
# Queries as they are made and set

A query with a vector is made for one field of a schema. After that its filter, its attributes, its
order, its page and the name of the distance may be set in any order and any number of times; of
each of them the last setting counts.

* `VectorInput.Stores`: the stored form of what is given as a vector.
* `Setting.options`, `Setting.vector`: what a row of settings comes to.
* `Query.ofNearest_eq_ok_iff`, `Query.ofWithin_eq_ok_iff`: the queries that are made of an input.
* `Query.MadeFor`: the queries with a vector, as they are made and set.
* `Query.MadeFor.eq_query`: such a query is the one that its settings come to.
-/
namespace HybridSearch

/-! ## Vector fields -/

namespace Schema

variable {s : Schema} {name : String}

theorem requireVector_of_type {f : Field} {options : VectorOptions}
    (hf : s.field? name = some f) (htype : f.type = .vector options) :
    s.requireVector name = .ok options := by
  simp only [requireVector, hf, htype]

theorem requireVector_of_kind {f : Field} (hf : s.field? name = some f) (hkind : f.kind ≠ .vector) :
    s.requireVector name = .error (.typeMismatch name .vector f.kind) := by
  rw [Field.kind] at hkind ⊢
  rw [requireVector, hf]
  cases htype : f.type with
  | vector options =>
    rw [htype] at hkind
    exact absurd rfl hkind
  | _ => simp only [htype]

theorem requireVector_eq_ok_iff {options : VectorOptions} :
    s.requireVector name = .ok options ↔
      ∃ f ∈ s.fields, f.name = name ∧ f.type = .vector options := by
  constructor
  · intro h
    cases hf : s.field? name with
    | none =>
      rw [requireVector, hf] at h
      cases h
    | some f =>
      obtain ⟨hmem, hname⟩ := s.field?_eq_some_iff.mp hf
      by_cases hkind : f.kind = .vector
      · obtain ⟨chosen, htype⟩ := f.exists_type_of_kind hkind
        obtain rfl := Except.ok.inj ((requireVector_of_type hf htype).symm.trans h)
        exact ⟨f, hmem, hname, htype⟩
      · cases (requireVector_of_kind hf hkind).symm.trans h
  · rintro ⟨f, hmem, hname, htype⟩
    exact requireVector_of_type (s.field?_eq_some_iff.mpr ⟨hmem, hname⟩) htype

end Schema

/-! ## Settings -/

/-- What can be set of a query with a vector once it is made. -/
inductive Setting where
  | filter (f : Filter)
  | fields (names : List String)
  | sort (key : SortKey)
  | page (offset limit : Nat)
  | distanceName (name : String)

namespace Setting

def set (q : Query) : Setting → Query
  | filter f => q.withFilter f
  | fields names => q.returning names
  | sort key => q.sortedBy key.field key.ascending
  | page offset limit => q.paged offset limit
  | distanceName name => q.withAlias name

def filter? : Setting → Option Filter
  | filter f => some f
  | _ => none

def fields? : Setting → Option (List String)
  | fields names => some names
  | _ => none

def sort? : Setting → Option SortKey
  | sort key => some key
  | _ => none

def page? : Setting → Option (Nat × Nat)
  | page offset limit => some (offset, limit)
  | _ => none

def distanceName? : Setting → Option String
  | distanceName name => some name
  | _ => none

/-- What the last of the settings of one sort says, if there is one. -/
def last? {α : Type} (about? : Setting → Option α) (settings : List Setting) : Option α :=
  settings.reverse.findSome? about?

theorem last?_concat {α : Type} (about? : Setting → Option α) (settings : List Setting)
    (setting : Setting) :
    last? about? (settings ++ [setting]) = (about? setting).or (last? about? settings) := by
  rw [last?, List.reverse_append, List.reverse_singleton, List.singleton_append,
    List.findSome?_cons]
  cases about? setting <;> rfl

/-- What settings come to: of each sort the last one counts, and what is not set is as it is in the
beginning. -/
def options (settings : List Setting) : QueryOptions where
  filter := (last? filter? settings).getD (.leaf .all)
  returnFields := last? fields? settings
  sortBy := last? sort? settings
  offset := ((last? page? settings).getD (0, 10)).1
  limit := ((last? page? settings).getD (0, 10)).2

def vector (field : String) (bytes : Bytes) (settings : List Setting) : QueryVector where
  field := field
  bytes := bytes
  distanceName := (last? distanceName? settings).getD "vector_distance"

end Setting

/-! ## Queries as they are made -/

/-- The stored form of what is given as a vector of a field. -/
inductive VectorInput.Stores (s : Schema) (field : String) : VectorInput → Bytes → Prop
  | bytes (stored : Bytes) : Stores s field (.bytes stored) stored
  | values {f : Field} {options : VectorOptions} (hmem : f ∈ s.fields) (hname : f.name = field)
      (htype : f.type = .vector options) (xs : List Binary64) :
      Stores s field (.values xs) (options.elementType.encode xs)
  | singles {f : Field} {options : VectorOptions} (hmem : f ∈ s.fields) (hname : f.name = field)
      (htype : f.type = .vector options) (patterns : List UInt32) :
      Stores s field (.singles patterns) (options.elementType.encode (patterns.map Binary64.widen))

/-- How far a query with a vector reaches: to so many documents, or up to a distance. -/
inductive Reach where
  | nearest (k : Nat)
  | within (threshold : Binary64)

namespace Reach

def query (v : QueryVector) (o : QueryOptions) : Reach → Query
  | nearest k => .nearest v k o
  | within threshold => .within v threshold o

def make (s : Schema) (field : String) (input : VectorInput) : Reach → Except QueryError Query
  | nearest k => Query.ofNearest s field input k
  | within threshold => Query.ofWithin s field input threshold

/-- A count of one or more; a threshold that is a finite number and not negative. -/
def IsSound : Reach → Prop
  | nearest k => 1 ≤ k
  | within threshold => threshold.isFinite = true ∧ 0 ≤ threshold.value

end Reach

/-- A query with a vector that was made for a schema, and set any number of times. -/
inductive Query.MadeFor (s : Schema) (field : String) (input : VectorInput) (reach : Reach) :
    List Setting → Query → Prop
  | make {q : Query} (h : reach.make s field input = .ok q) : MadeFor s field input reach [] q
  | set {settings : List Setting} {q : Query} (h : MadeFor s field input reach settings q)
      (setting : Setting) : MadeFor s field input reach (settings ++ [setting]) (setting.set q)

/-! ### What is made of an input -/

namespace QueryVector

variable {s : Schema} {field : String}

theorem ofBytes_eq_ok {bytes : Bytes} {v : QueryVector}
    (h : ofBytes s field bytes = .ok v) : v = { field, bytes } := by
  simp only [ofBytes, bind_eq_ok_iff] at h
  obtain ⟨-, -, hv⟩ := h
  exact (Except.ok.inj hv).symm

theorem ofValues_eq_ok {values : List Binary64} {v : QueryVector}
    (h : ofValues s field values = .ok v) :
    ∃ f ∈ s.fields, f.name = field ∧ ∃ options, f.type = .vector options ∧
      v = { field, bytes := options.elementType.encode values } := by
  simp only [ofValues, bind_eq_ok_iff] at h
  obtain ⟨options, hoptions, hv⟩ := h
  obtain ⟨f, hmem, hname, htype⟩ := Schema.requireVector_eq_ok_iff.mp hoptions
  exact ⟨f, hmem, hname, options, htype, ofBytes_eq_ok hv⟩

end QueryVector

theorem VectorInput.resolve_eq_ok {s : Schema} {field : String} {input : VectorInput}
    {v : QueryVector} (h : input.resolve s field = .ok v) :
    ∃ bytes, input.Stores s field bytes ∧ v = Setting.vector field bytes [] := by
  cases input with
  | bytes stored => exact ⟨stored, .bytes stored, QueryVector.ofBytes_eq_ok h⟩
  | values xs =>
    obtain ⟨f, hmem, hname, options, htype, hv⟩ := QueryVector.ofValues_eq_ok h
    exact ⟨_, .values hmem hname htype xs, hv⟩
  | singles patterns =>
    obtain ⟨f, hmem, hname, options, htype, hv⟩ := QueryVector.ofValues_eq_ok h
    exact ⟨_, .singles hmem hname htype patterns, hv⟩

namespace Query

variable {s : Schema} {q : Query} {field : String} {input : VectorInput} {reach : Reach}

theorem ofNearest_eq_ok_iff {k : Nat} :
    ofNearest s field input k = .ok q ↔
      k ≠ 0 ∧ ∃ v, input.resolve s field = .ok v ∧ nearest v k {} = q := by
  simp only [ofNearest, ite_throw_eq_ok_iff, bind_eq_ok_iff, pure, Except.pure, Except.ok.injEq,
    ne_eq]

theorem ofWithin_eq_ok_iff {threshold : Binary64} :
    ofWithin s field input threshold = .ok q ↔
      (threshold.isFinite = true ∧ 0 ≤ threshold.value) ∧
        ∃ v, input.resolve s field = .ok v ∧ within v threshold {} = q := by
  have hthreshold : ¬(!(threshold.isFinite && decide (0 ≤ threshold.units))) = true ↔
      threshold.isFinite = true ∧ 0 ≤ threshold.value := by
    rw [Bool.not_eq_true', Bool.not_eq_false, Bool.and_eq_true, decide_eq_true_eq,
      Binary64.units_nonneg_iff]
  simp only [ofWithin, ite_throw_eq_ok_iff, bind_eq_ok_iff, pure, Except.pure, Except.ok.injEq,
    hthreshold]

theorem make_eq_ok (h : reach.make s field input = .ok q) :
    reach.IsSound ∧ ∃ bytes, input.Stores s field bytes ∧
      q = reach.query (Setting.vector field bytes []) (Setting.options []) := by
  cases reach with
  | nearest k =>
    obtain ⟨hk, v, hv, hq⟩ := ofNearest_eq_ok_iff.mp h
    obtain ⟨bytes, hbytes, rfl⟩ := VectorInput.resolve_eq_ok hv
    exact ⟨Nat.one_le_iff_ne_zero.mpr hk, bytes, hbytes, hq.symm⟩
  | within threshold =>
    obtain ⟨hthreshold, v, hv, hq⟩ := ofWithin_eq_ok_iff.mp h
    obtain ⟨bytes, hbytes, rfl⟩ := VectorInput.resolve_eq_ok hv
    exact ⟨hthreshold, bytes, hbytes, hq.symm⟩

/-- One more setting: what it says counts from now on, and everything else is as it was. -/
theorem set_query (settings : List Setting) (setting : Setting) (bytes : Bytes) :
    setting.set (reach.query (Setting.vector field bytes settings) (Setting.options settings)) =
      reach.query (Setting.vector field bytes (settings ++ [setting]))
        (Setting.options (settings ++ [setting])) := by
  simp only [Setting.vector, Setting.options, Setting.last?_concat]
  cases reach <;> cases setting <;> rfl

/-- Whatever is set of a query, it is the query that its settings come to. -/
theorem MadeFor.eq_query {settings : List Setting} (h : q.MadeFor s field input reach settings) :
    reach.IsSound ∧ ∃ bytes, input.Stores s field bytes ∧
      q = reach.query (Setting.vector field bytes settings) (Setting.options settings) := by
  induction h with
  | make h => exact make_eq_ok h
  | @set settings q _ setting ih =>
    obtain ⟨hsound, bytes, hbytes, rfl⟩ := ih
    exact ⟨hsound, bytes, hbytes, set_query settings setting bytes⟩

end Query
end HybridSearch
