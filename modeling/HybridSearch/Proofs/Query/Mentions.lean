import HybridSearch.Proofs.Filter.Offences
import HybridSearch.Proofs.Query.Fitting
import HybridSearch.Proofs.Schema.WellFormed

/-!
# What a compiled query depends on

A query mentions the fields of its conditions, the field of its vector and the field that its answer
is ordered by. Schemas that declare these alike give the same compiled query, or refuse the query
for the same reason, whatever else they declare and in whatever order; only the attributes of an
answer may be left to the schema.

* `Query.mentions`: the fields that a query mentions.
* `Schema.DeclaresAlike`: what two schemas have in common as to a name.
* `Filter.declared_of_compile`: a filter that compiles mentions nothing that is not declared.
* `Query.compile_depends_on_mentions`: nothing else enters compilation, so that a filter keeps its
  text when fields are added or keys are changed.
-/
namespace HybridSearch

/-! ## Mentioned fields -/

def Filter.mentions : Filter → List String
  | leaf p => p.field?.toList
  | join _ left right => left.mentions ++ right.mentions
  | not f => f.mentions

def QueryOptions.mentions (o : QueryOptions) : List String :=
  o.filter.mentions ++ (o.sortBy.map SortKey.field).toList

namespace Query

def mentions : Query → List String
  | filter o => o.mentions
  | nearest v _ o => v.field :: o.mentions
  | within v _ o => v.field :: o.mentions
  | count f => f.mentions

/-- The query says itself which attributes are returned, if any. -/
def NamesAttributes : Query → Prop
  | filter o => o.returnFields ≠ none
  | nearest _ _ o => o.returnFields ≠ none
  | within _ _ o => o.returnFields ≠ none
  | count _ => True

end Query

namespace Schema

/-- Neither schema declares a field of that name, or both do, of one kind and, if they are vector
fields, for vectors of one length. -/
inductive DeclaresAlike (s t : Schema) (name : String) : Prop
  | undeclared (hs : ∀ f ∈ s.fields, f.name ≠ name) (ht : ∀ f ∈ t.fields, f.name ≠ name)
  | declared {f g : Field} {kind : FieldKind} (hf : f ∈ s.fields) (hg : g ∈ t.fields)
      (hfname : f.name = name) (hgname : g.name = name) (hfkind : f.type.IsOf kind)
      (hgkind : g.type.IsOf kind)
      (hlength : ∀ a b, f.type = .vector a → g.type = .vector b → a.byteLength = b.byteLength)

variable {s t : Schema} {name : String}

theorem DeclaresAlike.field? (h : s.DeclaresAlike t name) :
    (s.field? name = none ∧ t.field? name = none) ∨
      ∃ f g, s.field? name = some f ∧ t.field? name = some g ∧ f.kind = g.kind ∧
        ∀ a b, f.type = .vector a → g.type = .vector b → a.byteLength = b.byteLength := by
  cases h with
  | undeclared hs ht => exact .inl ⟨s.field?_eq_none_iff.mpr hs, t.field?_eq_none_iff.mpr ht⟩
  | @declared f g kind hf hg hfname hgname hfkind hgkind hlength =>
    have hkind : f.kind = g.kind :=
      (FieldType.isOf_iff.mp hfkind).trans (FieldType.isOf_iff.mp hgkind).symm
    exact .inr ⟨f, g, s.field?_eq_some_iff.mpr ⟨hf, hfname⟩, t.field?_eq_some_iff.mpr ⟨hg, hgname⟩,
      hkind, hlength⟩

theorem DeclaresAlike.of_subset (hfields : s.fields ⊆ t.fields)
    (h : ∃ f ∈ s.fields, f.name = name) : s.DeclaresAlike t name := by
  obtain ⟨f, hf, hname⟩ := h
  have hkind : f.type.IsOf f.kind := FieldType.isOf_iff.mpr rfl
  refine .declared hf (hfields hf) hname hname hkind hkind fun a b ha hb => ?_
  rw [FieldType.vector.inj (ha.symm.trans hb)]

end Schema

/-! ## Filters -/

variable {s t : Schema}

theorem Predicate.fault?_congr {p : Predicate} (h : ∀ name ∈ p.field?, s.DeclaresAlike t name) :
    p.fault? s = p.fault? t := by
  have hfield : p.fieldFault? s = p.fieldFault? t := by
    rw [fieldFault?, fieldFault?]
    cases htarget : p.target? with
    | none => rfl
    | some target =>
      obtain ⟨field, kind⟩ := target
      have hname : field ∈ p.field? := by
        rw [field?, htarget]
        rfl
      obtain ⟨hs, ht⟩ | ⟨f, g, hs, ht, hkind, -⟩ := (h field hname).field?
      · simp only [hs, ht]
      · simp only [hs, ht, hkind]
  rw [fault?_eq, fault?_eq, hfield]

namespace Filter

theorem firstFault?_congr {f : Filter} (h : ∀ name ∈ f.mentions, s.DeclaresAlike t name) :
    f.firstFault? s = f.firstFault? t := by
  induction f with
  | leaf p =>
    rw [firstFault?_leaf, firstFault?_leaf]
    exact Predicate.fault?_congr fun name hname => h name (Option.mem_toList.mpr hname)
  | join op left right ihl ihr =>
    rw [mentions, List.forall_mem_append] at h
    rw [firstFault?_join, firstFault?_join, ihl h.1, ihr h.2]
  | not f ih =>
    -- A negation is refused for its form alone.
    rw [firstFault?_not, firstFault?_not, ih h]
    rfl

theorem compile_congr {f : Filter} (h : ∀ name ∈ f.mentions, s.DeclaresAlike t name) :
    f.compile s = f.compile t := by
  rw [compile_eq, compile_eq, firstFault?_congr h]

theorem declared_of_firstFault?_eq_none {f : Filter} (h : f.firstFault? s = none) :
    ∀ name ∈ f.mentions, ∃ g ∈ s.fields, g.name = name := by
  induction f with
  | leaf p =>
    rw [firstFault?_leaf] at h
    intro name hname
    obtain ⟨⟨field, kind⟩, htarget, rfl⟩ := Option.map_eq_some_iff.mp (Option.mem_toList.mp hname)
    exact Predicate.declared_of_fault?_eq_none h (Predicate.target?_eq_some_iff.mp htarget)
  | join op left right ihl ihr =>
    rw [firstFault?_join, Option.or_eq_none_iff] at h
    rw [mentions, List.forall_mem_append]
    exact ⟨ihl h.1, ihr h.2⟩
  | not f ih =>
    rw [firstFault?_not, Option.or_eq_none_iff] at h
    exact ih h.1

/-- A filter that compiles mentions declared fields only. -/
theorem declared_of_compile {f : Filter} {text : String} (h : f.compile s = .ok text) :
    ∀ name ∈ f.mentions, ∃ g ∈ s.fields, g.name = name := by
  rw [compile_eq, faultOr_eq_ok_iff] at h
  exact declared_of_firstFault?_eq_none h.1

theorem compile_of_subset {f : Filter} {text : String} (hfields : s.fields ⊆ t.fields)
    (h : f.compile s = .ok text) : f.compile t = .ok text := by
  have halike : ∀ name ∈ f.mentions, s.DeclaresAlike t name := fun name hname =>
    .of_subset hfields (declared_of_compile h name hname)
  rw [← compile_congr halike, h]

end Filter

/-! ## Settings and vectors -/

theorem QueryVector.check_congr {v : QueryVector} (h : s.DeclaresAlike t v.field) :
    v.check s = v.check t := by
  rw [check, check]
  obtain ⟨hs, ht⟩ | ⟨f, g, hs, ht, hkind, hlength⟩ := h.field?
  · rw [Schema.requireVector, Schema.requireVector, hs, ht]
  · by_cases hvector : f.kind = .vector
    · obtain ⟨a, ha⟩ := f.exists_type_of_kind hvector
      obtain ⟨b, hb⟩ := g.exists_type_of_kind (hkind ▸ hvector)
      rw [Schema.requireVector_of_type hs ha, Schema.requireVector_of_type ht hb]
      simp only [bind, Except.bind, hlength a b ha hb]
    · rw [Schema.requireVector_of_kind hs hvector, hkind,
        Schema.requireVector_of_kind ht (hkind ▸ hvector)]

namespace QueryOptions

variable {o : QueryOptions}

theorem checkSort_congr (h : ∀ key ∈ o.sortBy, s.DeclaresAlike t key.field)
    (distanceName : Option String) : o.checkSort s distanceName = o.checkSort t distanceName := by
  rw [checkSort, checkSort]
  cases hkey : o.sortBy with
  | none => rfl
  | some key =>
    obtain ⟨hs, ht⟩ | ⟨f, g, hs, ht, -⟩ := (h key hkey).field?
    · simp only [hs, ht]
    · simp only [hs, ht, Option.isNone_some]

theorem check_congr (h : ∀ key ∈ o.sortBy, s.DeclaresAlike t key.field)
    (distanceName : Option String) : o.check s distanceName = o.check t distanceName := by
  rw [check_eq, check_eq, checkSort_congr h]

theorem clauses_congr (h : o.returnFields ≠ none ∨ s.plainNames = t.plainNames)
    (distanceName : Option String) : o.clauses s distanceName = o.clauses t distanceName := by
  have hrequested : o.requested s = o.requested t := by
    rw [requested, requested]
    cases hfields : o.returnFields with
    | some names => rfl
    | none => exact h.resolve_left fun hnamed => hnamed hfields
  have hresolved : o.resolvedFields s distanceName = o.resolvedFields t distanceName := by
    cases distanceName with
    | none => rw [resolvedFields_none, resolvedFields_none, hrequested]
    | some name => rw [resolvedFields_some, resolvedFields_some, hrequested]
  rw [clauses, clauses, hresolved]

theorem mentions_alike_iff :
    (∀ name ∈ o.mentions, s.DeclaresAlike t name) ↔
      (∀ name ∈ o.filter.mentions, s.DeclaresAlike t name) ∧
        ∀ key ∈ o.sortBy, s.DeclaresAlike t key.field := by
  rw [mentions, List.forall_mem_append]
  simp

end QueryOptions

/-! ## Queries -/

namespace Query

theorem checkedText_congr {v : QueryVector} {o : QueryOptions}
    (h : ∀ name ∈ v.field :: o.mentions, s.DeclaresAlike t name) :
    checkedText s v o = checkedText t v o := by
  rw [List.forall_mem_cons, QueryOptions.mentions_alike_iff] at h
  obtain ⟨hvector, hfilter, hsort⟩ := h
  rw [checkedText, checkedText, Filter.compile_congr hfilter, QueryVector.check_congr hvector,
    QueryOptions.check_congr hsort]

theorem compile_congr {q : Query} (hmentions : ∀ name ∈ q.mentions, s.DeclaresAlike t name)
    (hattributes : q.NamesAttributes ∨ s.plainNames = t.plainNames) :
    q.compile s = q.compile t := by
  cases q with
  | filter o =>
    obtain ⟨hfilter, hsort⟩ := QueryOptions.mentions_alike_iff.mp hmentions
    simp only [compile, Filter.compile_congr hfilter, QueryOptions.check_congr hsort,
      QueryOptions.clauses_congr hattributes]
  | nearest v k o =>
    rw [compile_nearest_eq, compile_nearest_eq, checkedText_congr hmentions,
      QueryOptions.clauses_congr hattributes]
  | within v threshold o =>
    rw [compile_within_eq, compile_within_eq, checkedText_congr hmentions,
      QueryOptions.clauses_congr hattributes]
  | count f =>
    simp only [compile, Filter.compile_congr hmentions]

/-- What a query compiles to, or why it does not, is the same for all schemas that declare alike
what the query mentions and return the same attributes, unless the query names these itself. In
particular a filter that compiles keeps its text when its schema is built anew with other keys,
another storage or more fields. -/
theorem compile_depends_on_mentions :
    (∀ (s t : Schema) (q : Query), (∀ name ∈ q.mentions, s.DeclaresAlike t name) →
        (q.NamesAttributes ∨ s.plainNames = t.plainNames) → q.compile s = q.compile t) ∧
      ∀ (s t : Schema) (keyPrefix keySeparator : String) (storage : Storage) (more : List Field),
        Draft.build { s.toDraft with keyPrefix, keySeparator, storage, fields := s.fields ++ more } =
            .ok t →
          ∀ (f : Filter) (text : String), f.compile s = .ok text → f.compile t = .ok text := by
  refine ⟨fun s t q => compile_congr, fun s t _ _ _ more hbuild f text htext => ?_⟩
  have hfields : t.fields = s.fields ++ more :=
    congrArg Draft.fields (Draft.build_eq_ok_iff.mp hbuild)
  exact Filter.compile_of_subset (hfields ▸ List.subset_append_left _ _) htext

def postSchema : Schema where
  name := "posts"
  fields := [{ name := "tag", type := .tag {} }, { name := "age", type := .numeric },
    { name := "v", type := .vector { dims := 1 } }]
  checked := by decide +kernel

/-- The same fields in another order and with other options, and one more. -/
def shuffledSchema : Schema where
  name := "shuffled"
  storage := .json
  fields := [{ name := "v", type := .vector { dims := 1, metric := .euclidean } },
    { name := "body", type := .text {} }, { name := "age", type := .numeric, sortable := true },
    { name := "tag", type := .tag { separator := ';' } }]
  checked := by decide +kernel

def untagged : Filter :=
  .not (.leaf (.tag "tag" ["a"]))

/-- A query that mentions all fields of the first schema. -/
def untaggedByAge : Query :=
  nearest { field := "v", bytes := [0, 0, 128, 63] } 3
    { filter := untagged, returnFields := some ["tag"], sortBy := some ⟨"age", true⟩ }

theorem compile_untaggedByAge :
    (∀ name ∈ untaggedByAge.mentions, postSchema.DeclaresAlike shuffledSchema name) ∧
      untaggedByAge.compile postSchema = untaggedByAge.compile shuffledSchema ∧
      ∃ t, Draft.build
            { postSchema.toDraft with
              keyPrefix := "post", keySeparator := "/", storage := .json
              fields := postSchema.fields ++ [{ name := "body", type := .text {} }] } = .ok t ∧
        untagged.compile t = .ok "(-@tag:\x7ba\x7d)" := by
  have halike : ∀ name ∈ untaggedByAge.mentions, postSchema.DeclaresAlike shuffledSchema name := by
    have hv : postSchema.DeclaresAlike shuffledSchema "v" :=
      .declared (f := { name := "v", type := .vector { dims := 1 } })
        (g := { name := "v", type := .vector { dims := 1, metric := .euclidean } })
        (by simp [postSchema]) (by simp [shuffledSchema]) rfl rfl (.vector _) (.vector _)
        (by rintro a b ⟨⟩ ⟨⟩; rfl)
    have htag : postSchema.DeclaresAlike shuffledSchema "tag" :=
      .declared (f := { name := "tag", type := .tag {} })
        (g := { name := "tag", type := .tag { separator := ';' } })
        (by simp [postSchema]) (by simp [shuffledSchema]) rfl rfl (.tag _) (.tag _)
        (fun _ _ h => nomatch h)
    have hage : postSchema.DeclaresAlike shuffledSchema "age" :=
      .declared (f := { name := "age", type := .numeric })
        (g := { name := "age", type := .numeric, sortable := true })
        (by simp [postSchema]) (by simp [shuffledSchema]) rfl rfl .numeric .numeric
        (fun _ _ h => nomatch h)
    have hmentions : untaggedByAge.mentions = ["v", "tag", "age"] := rfl
    rw [hmentions]
    simp only [List.forall_mem_cons]
    exact ⟨hv, htag, hage, nofun⟩
  have hcompile : untagged.compile postSchema = .ok "(-@tag:\x7ba\x7d)" := by
    have htag : (Filter.leaf (.tag "tag" ["a"])).canonical = some (.leaf (.tag "tag" ["a"])) :=
      Filter.canonical_leaf nofun
    have hcanonical : untagged.canonical = some (.not (.leaf (.tag "tag" ["a"]))) := by
      rw [untagged, Filter.canonical, htag]
      rfl
    rw [Filter.compile_eq, Filter.canonicalText?, hcanonical, faultOr_eq_ok_iff]
    exact ⟨by decide +kernel, by decide +kernel⟩
  let rebuilt : Schema :=
    { postSchema.toDraft with
      keyPrefix := "post", keySeparator := "/", storage := .json
      fields := postSchema.fields ++ [{ name := "body", type := .text {} }]
      checked := by decide +kernel }
  have hbuild := (Draft.build_eq_ok_iff (s := rebuilt)).mpr rfl
  obtain ⟨hsame, hrebuilt⟩ := compile_depends_on_mentions
  exact ⟨halike, hsame _ _ _ halike (.inl (Option.some_ne_none _)), rebuilt, hbuild,
    hrebuilt _ _ _ _ _ _ hbuild _ _ hcompile⟩

end Query
end HybridSearch
