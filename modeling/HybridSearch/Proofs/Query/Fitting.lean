import HybridSearch.Proofs.Query.Making

/-!
# Queries and the schemas that they fit

A query with a vector is made for one schema and may be compiled against another. It fits a schema
if its filter compiles, its field is a vector field of the length of its vector, its names are words
and its sort field is known; and otherwise it is refused for the first of these that fails.

* `Query.Fits`, `Query.checks`: what a query has to meet, and the errors check by check.
* `Query.compile_of_madeFor`: a query compiles against the schemas that it fits, and against no
  other one.
-/
namespace HybridSearch

/-! ## What may be wrong with a query -/

/-- The field of a vector is not declared, or is no vector field. -/
inductive QueryVector.BadField (s : Schema) (v : QueryVector) : QueryError → Prop
  | undeclared (h : ∀ f ∈ s.fields, f.name ≠ v.field) : BadField s v (.unknownField v.field)
  | mistyped {f : Field} {actual : FieldKind} (hmem : f ∈ s.fields) (hname : f.name = v.field)
      (hactual : f.type.IsOf actual) (hkind : actual ≠ .vector) :
      BadField s v (.typeMismatch v.field .vector actual)

/-- The vector is shorter or longer than those of its field. -/
inductive QueryVector.BadLength (s : Schema) (v : QueryVector) : QueryError → Prop
  | mk {f : Field} {options : VectorOptions} (hmem : f ∈ s.fields) (hname : f.name = v.field)
      (htype : f.type = .vector options)
      (h : v.bytes.length ≠ options.dims * options.elementType.size) :
      BadLength s v
        (.vectorLength v.field (options.dims * options.elementType.size) v.bytes.length)

inductive BadName (name : String) : QueryError → Prop
  | mk (h : ¬(name ≠ "" ∧ ∀ c ∈ name.toList, c.isAlphanum = true ∨ c = '_')) :
      BadName name (.invalidName name)

/-- The answer is to be ordered by a field that is not declared, and that is not the distance. -/
inductive QueryOptions.BadSortField (s : Schema) (distanceName : String) (o : QueryOptions) :
    QueryError → Prop
  | mk {key : SortKey} (hkey : o.sortBy = some key) (hdistance : key.field ≠ distanceName)
      (h : ∀ f ∈ s.fields, f.name ≠ key.field) :
      BadSortField s distanceName o (.invalidSortField key.field)

/-- The checks of a query with a vector: its filter, the field and the length of the vector, the
names from that of the distance on, and the sort field. -/
def Query.checks (s : Schema) (v : QueryVector) (o : QueryOptions) : List (QueryError → Prop) :=
  [fun e => o.filter.compile s = .error e, v.BadField s, v.BadLength s] ++
    (v.distanceName :: o.returnFields.getD []).map BadName ++ [o.BadSortField s v.distanceName]

/-- What a schema has to have for a query with a vector. -/
structure Query.Fits (s : Schema) (v : QueryVector) (o : QueryOptions) : Prop where
  filter : ∃ text, o.filter.compile s = .ok text
  vector : ∃ f ∈ s.fields, f.name = v.field ∧ ∃ options, f.type = .vector options ∧
    v.bytes.length = options.dims * options.elementType.size
  names : ∀ name ∈ v.distanceName :: o.returnFields.getD [],
    name ≠ "" ∧ ∀ c ∈ name.toList, c.isAlphanum = true ∨ c = '_'
  sort : ∀ key, o.sortBy = some key →
    key.field = v.distanceName ∨ ∃ f ∈ s.fields, f.name = key.field

/-! ## The checks of the vector -/

namespace QueryVector

variable {s : Schema} {v : QueryVector}

theorem makes_requireVector : Makes [v.BadField s] (s.requireVector v.field) := by
  refine .single fun e => ?_
  cases hf : s.field? v.field with
  | none =>
    have hnone := s.field?_eq_none_iff.mp hf
    rw [Schema.requireVector, hf]
    constructor
    · rintro ⟨⟩
      exact .undeclared hnone
    · intro h
      cases h with
      | undeclared => rfl
      | mistyped hmem hname => exact absurd hname (hnone _ hmem)
  | some f =>
    obtain ⟨hmem, hname⟩ := s.field?_eq_some_iff.mp hf
    constructor
    · intro h
      by_cases hkind : f.kind = .vector
      · obtain ⟨options, htype⟩ := f.exists_type_of_kind hkind
        cases (Schema.requireVector_of_type hf htype).symm.trans h
      · cases (Schema.requireVector_of_kind hf hkind).symm.trans h
        exact .mistyped hmem hname (FieldType.isOf_iff.mpr rfl) hkind
    · intro h
      cases h with
      | undeclared h => exact absurd hname (h f hmem)
      | @mistyped g actual hg hgname hactual hkind =>
        obtain rfl := FieldType.isOf_iff.mp hactual
        exact Schema.requireVector_of_kind (s.field?_eq_some_iff.mpr ⟨hg, hgname⟩) hkind

theorem makes_check : Makes [v.BadField s, v.BadLength s] (v.check s) := by
  refine (makes_requireVector (v := v)).bind fun options hoptions => ?_
  obtain ⟨f, hmem, hname, htype⟩ := Schema.requireVector_eq_ok_iff.mp hoptions
  refine .single fun e => ?_
  rw [(s.dims_of_mem hmem htype).2.2, ite_throw_eq_error_iff]
  constructor
  · rintro ⟨hlength, rfl⟩
    exact .mk hmem hname htype hlength
  · intro h
    cases h with
    | @mk g chosen hg hgname hgtype hlength =>
      have hchosen := Schema.requireVector_eq_ok_iff.mpr ⟨g, hg, hgname, hgtype⟩
      obtain rfl := Except.ok.inj (hoptions.symm.trans hchosen)
      exact ⟨hlength, rfl⟩

end QueryVector

/-! ## The checks of the settings -/

/-- What is done for one name of a row, and for the row. -/
def checkName (name : String) : Except QueryError Unit :=
  if Text.isWord name then .ok () else .error (.invalidName name)

theorem makes_checkName (name : String) : Makes [BadName name] (checkName name) := by
  refine .single fun e => ?_
  have hword := Text.isWord_iff (s := name)
  rw [checkName]
  constructor
  · intro h
    split at h
    · cases h
    · rename_i hnot
      cases h
      exact .mk fun hgood => hnot (hword.mpr hgood)
  · intro h
    cases h with
    | mk hbad => exact if_neg fun hgood => hbad (hword.mp hgood)

namespace QueryOptions

variable {s : Schema} {o : QueryOptions} {distanceName : String}

def checkNames (names : List String) : Except QueryError Unit :=
  match names.find? fun name => !Text.isWord name with
  | some name => .error (.invalidName name)
  | none => .ok ()

theorem checkNames_cons (name : String) (names : List String) :
    checkNames (name :: names) = checkName name >>= fun _ => checkNames names := by
  rw [checkNames, checkName, List.find?_cons]
  cases Text.isWord name <;> rfl

theorem makes_checkNames (names : List String) :
    Makes (names.map BadName) (checkNames names) := by
  induction names with
  | nil => exact .pure ()
  | cons name names ih =>
    rw [checkNames_cons]
    exact (makes_checkName name).bind fun _ _ => ih

def checkSort (s : Schema) (distanceName : Option String) (o : QueryOptions) :
    Except QueryError Unit :=
  match o.sortBy with
  | some key =>
    if distanceName ≠ some key.field ∧ (s.field? key.field).isNone then
      throw (.invalidSortField key.field)
    else pure ()
  | none => pure ()

theorem makes_checkSort :
    Makes [o.BadSortField s distanceName] (o.checkSort s (some distanceName)) := by
  refine .single fun e => ?_
  rw [checkSort]
  cases hkey : o.sortBy with
  | none =>
    constructor
    · rintro ⟨⟩
    · intro h
      cases h with
      | mk hsome => cases hkey.symm.trans hsome
  | some key =>
    have hundeclared : (s.field? key.field).isNone = true ↔ ∀ f ∈ s.fields, f.name ≠ key.field := by
      rw [Option.isNone_iff_eq_none, s.field?_eq_none_iff]
    dsimp only
    rw [ite_throw_eq_error_iff, hundeclared]
    constructor
    · rintro ⟨⟨hdistance, hnone⟩, rfl⟩
      exact .mk hkey (fun heq => hdistance (heq ▸ rfl)) hnone
    · intro h
      cases h with
      | @mk chosen hchosen hdistance hnone =>
        obtain rfl := Option.some.inj (hkey.symm.trans hchosen)
        exact ⟨⟨fun heq => hdistance (Option.some.inj heq).symm, hnone⟩, rfl⟩

/-- The settings are checked in two steps, and only the second one looks at the schema. -/
theorem check_eq (distanceName : Option String) : o.check s distanceName =
    checkNames (o.names distanceName) >>= fun _ => o.checkSort s distanceName := by
  rw [check, checkNames]
  cases (o.names distanceName).find? fun name => !Text.isWord name <;> rfl

theorem makes_check :
    Makes ((distanceName :: o.returnFields.getD []).map BadName ++ [o.BadSortField s distanceName])
      (o.check s (some distanceName)) := by
  rw [check_eq]
  exact (makes_checkNames _).bind fun _ _ => makes_checkSort

end QueryOptions

/-! ## Compilation -/

namespace Query

variable {s : Schema} {v : QueryVector} {o : QueryOptions} {q : Query}

theorem makes_checkedText : Makes (checks s v o) (checkedText s v o) := by
  have hfilter : Makes [fun e => o.filter.compile s = .error e] (o.filter.compile s) :=
    .single fun _ => Iff.rfl
  refine hfilter.bind fun text _ => ?_
  refine QueryVector.makes_check.bind fun _ _ => ?_
  exact QueryOptions.makes_check.map fun _ => text

/-- The names of a vector query that has passed its checks are words. -/
theorem isWord_of_checkedText {text : String} (h : checkedText s v o = .ok text) :
    Text.isWord v.field = true ∧ Text.isWord v.distanceName = true := by
  obtain ⟨-, hvector, hsettings⟩ := checkedText_eq_ok h
  obtain ⟨options, hoptions, -⟩ := bind_eq_ok_iff.mp hvector
  obtain ⟨f, hmem, hname, -⟩ := Schema.requireVector_eq_ok_iff.mp hoptions
  exact ⟨hname ▸ s.isWord_of_mem hmem, QueryOptions.isWord_distanceName hsettings rfl⟩

theorem vector_fits_iff : ((∀ e, ¬v.BadField s e) ∧ ∀ e, ¬v.BadLength s e) ↔
    ∃ f ∈ s.fields, f.name = v.field ∧ ∃ options, f.type = .vector options ∧
      v.bytes.length = options.dims * options.elementType.size := by
  constructor
  · rintro ⟨hfield, hlength⟩
    have hdeclared : ∃ f ∈ s.fields, f.name = v.field := by
      by_contra hnone
      push Not at hnone
      exact hfield _ (.undeclared hnone)
    obtain ⟨f, hmem, hname⟩ := hdeclared
    have hkind : f.kind = .vector := by
      by_contra hkind
      exact hfield _ (.mistyped hmem hname (FieldType.isOf_iff.mpr rfl) hkind)
    obtain ⟨options, htype⟩ := f.exists_type_of_kind hkind
    refine ⟨f, hmem, hname, options, htype, ?_⟩
    by_contra hne
    exact hlength _ (.mk hmem hname htype hne)
  · rintro ⟨f, hmem, hname, options, htype, hbytes⟩
    have hsame : ∀ g ∈ s.fields, g.name = v.field → g = f := fun g hg hgname =>
      s.eq_of_name hg hmem (hgname.trans hname.symm)
    refine ⟨fun e h => ?_, fun e h => ?_⟩
    · cases h with
      | undeclared hnone => exact hnone f hmem hname
      | @mistyped g actual hg hgname hactual hkind =>
        obtain rfl := hsame g hg hgname
        rw [htype] at hactual
        cases hactual
        exact hkind rfl
    · cases h with
      | @mk g chosen hg hgname hgtype hne =>
        obtain rfl := hsame g hg hgname
        obtain rfl := FieldType.vector.inj (htype.symm.trans hgtype)
        exact hne hbytes

theorem names_fit_iff {names : List String} : (∀ check ∈ names.map BadName, ∀ e, ¬check e) ↔
    ∀ name ∈ names, name ≠ "" ∧ ∀ c ∈ name.toList, c.isAlphanum = true ∨ c = '_' := by
  rw [List.forall_mem_map]
  refine forall₂_congr fun name _ => ?_
  constructor
  · intro h
    by_contra hbad
    exact h _ (.mk hbad)
  · intro h e hbad
    cases hbad with
    | mk hbad => exact hbad h

theorem sort_fits_iff {distanceName : String} : (∀ e, ¬o.BadSortField s distanceName e) ↔
    ∀ key, o.sortBy = some key →
      key.field = distanceName ∨ ∃ f ∈ s.fields, f.name = key.field := by
  constructor
  · intro h key hkey
    by_contra hbad
    push Not at hbad
    exact h _ (.mk hkey hbad.1 hbad.2)
  · intro h e hbad
    cases hbad with
    | mk hkey hdistance hnone =>
      rcases h _ hkey with hsame | ⟨f, hmem, hname⟩
      · exact hdistance hsame
      · exact hnone f hmem hname

/-- Every check passes exactly if the schema has what the query needs. -/
theorem fits_iff : Fits s v o ↔ ∀ check ∈ checks s v o, ∀ e, ¬check e := by
  have hfilter : (∀ e, ¬o.filter.compile s = .error e) ↔ ∃ text, o.filter.compile s = .ok text := by
    cases o.filter.compile s <;> simp
  rw [checks, List.forall_mem_append, List.forall_mem_append, List.forall_mem_cons,
    List.forall_mem_cons, List.forall_mem_singleton, List.forall_mem_singleton, hfilter,
    vector_fits_iff, names_fit_iff, sort_fits_iff]
  constructor
  · intro h
    exact ⟨⟨⟨h.filter, h.vector⟩, h.names⟩, h.sort⟩
  · rintro ⟨⟨⟨hfilter, hvector⟩, hnames⟩, hsort⟩
    exact ⟨hfilter, hvector, hnames, hsort⟩

/-! ## Queries as they are made -/

theorem compile_reach_eq (reach : Reach) (v : QueryVector) (o : QueryOptions) (s : Schema) :
    ∃ build : String → CompiledQuery, (reach.query v o).compile s = build <$> checkedText s v o ∧
      ∀ text, (build text).params.lookup "vector" = some v.bytes := by
  cases reach with
  | nearest k => exact ⟨_, compile_nearest_eq v k o, fun _ => rfl⟩
  | within threshold => exact ⟨_, compile_within_eq v threshold o, fun _ => rfl⟩

/-- A query that was made for some schema, with whatever settings, is the one that its settings come
to. It compiles against the schemas that it fits, and then binds the vector that it was made with,
which has the right length. Against any other schema it is refused with the error of the first check
that fails. Its count is one or more, and its threshold a finite number and not negative. -/
theorem compile_of_madeFor {s₁ : Schema} {field : String} {input : VectorInput} {reach : Reach}
    {settings : List Setting} (h : q.MadeFor s₁ field input reach settings) (s : Schema) :
    reach.IsSound ∧ ∃ bytes, input.Stores s₁ field bytes ∧
      let v := Setting.vector field bytes settings
      let o := Setting.options settings
      q = reach.query v o ∧
        ((∃ c, q.compile s = .ok c) ↔ Fits s v o) ∧
        (∀ e, q.compile s = .error e ↔ FirstFailure (checks s v o) e) ∧
        ∀ c, q.compile s = .ok c → c.params.lookup "vector" = some bytes ∧
          ∃ f ∈ s.fields, f.name = field ∧ ∃ options, f.type = .vector options ∧
            bytes.length = options.dims * options.elementType.size := by
  obtain ⟨hsound, bytes, hbytes, hq⟩ := h.eq_query
  refine ⟨hsound, bytes, hbytes, ?_⟩
  intro v o
  obtain ⟨build, hcompile, hbound⟩ := compile_reach_eq reach v o s
  rw [← hq] at hcompile
  have hmakes : Makes (checks s v o) (q.compile s) := hcompile ▸ makes_checkedText.map build
  have hfits : (∃ c, q.compile s = .ok c) ↔ Fits s v o := by
    rw [fits_iff, hmakes.exists_ok_iff]
  refine ⟨hq, hfits, hmakes, fun c hc => ?_⟩
  obtain ⟨f, hmem, hname, options, htype, hlength⟩ := (hfits.mp ⟨c, hc⟩).vector
  rw [hcompile] at hc
  obtain ⟨text, -, rfl⟩ := map_eq_ok_iff.mp hc
  exact ⟨hbound text, f, hmem, hname, options, htype, hlength⟩

/-- A schema with a vector field of four bytes. -/
def shortSchema : Schema where
  name := "short"
  fields := [{ name := "v", type := .vector { dims := 1 } }]
  checked := by decide +kernel

/-- A schema with a vector field of the same name and of eight bytes. -/
def longSchema : Schema where
  name := "long"
  fields := [{ name := "v", type := .vector { dims := 2 } }]
  checked := by decide +kernel

def shortVector : QueryVector where
  field := "v"
  bytes := [0, 0, 128, 63]
  distanceName := "d"

/-- Settings of which the last one asks for an attribute with a blank in its name. -/
def blankName : List Setting :=
  [.fields ["v"], .distanceName "d", .fields ["no name"]]

/-- The vector is too short for one schema; for the other the name is what is wrong. -/
theorem shortVector_refused :
    MadeFor shortSchema "v" (.bytes [0, 0, 128, 63]) (.nearest 3) blankName
        (nearest shortVector 3 { returnFields := some ["no name"] }) ∧
      FirstFailure (checks longSchema shortVector { returnFields := some ["no name"] })
        (.vectorLength "v" 8 4) ∧
      FirstFailure (checks shortSchema shortVector { returnFields := some ["no name"] })
        (.invalidName "no name") := by
  have hnearest : (Reach.nearest 3).make shortSchema "v" (.bytes [0, 0, 128, 63]) =
      .ok (nearest { field := "v", bytes := [0, 0, 128, 63] } 3 {}) := by decide +kernel
  have hmade : MadeFor shortSchema "v" (.bytes [0, 0, 128, 63]) (.nearest 3) blankName
      (nearest shortVector 3 { returnFields := some ["no name"] }) :=
    (((MadeFor.make hnearest).set (.fields ["v"])).set (.distanceName "d")).set
      (.fields ["no name"])
  refine ⟨hmade, ?_, ?_⟩
  · obtain ⟨-, bytes, hbytes, -, -, herror, -⟩ := compile_of_madeFor hmade longSchema
    cases hbytes
    exact (herror _).mp (by decide +kernel)
  · obtain ⟨-, bytes, hbytes, -, -, herror, -⟩ := compile_of_madeFor hmade shortSchema
    cases hbytes
    exact (herror _).mp (by decide +kernel)

end Query
end HybridSearch
