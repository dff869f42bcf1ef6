import HybridSearch.Proofs.Checks
import HybridSearch.Schema.Declaration

/-!
# Declared fields

Declarations become fields one by one: what is declared of a field is kept, what is left open takes
its default, and the groups follow each other. Only a separator that is not a single character and
the options of a vector can be wrong, and the first thing that is wrong is reported. Conversely
every row of fields can be written as declarations, which give the fields back kind by kind.

* `FieldDeclarations.conditions`: what may be wrong with declarations, in order.
* `FieldDeclarations.Declares`: the fields that they stand for.
* `FieldDeclarations.ofFields`, `Field.byKind`: the declarations of given fields, and their order.
* `FieldDeclarations.converts_exactly`: declarations become the fields that they stand for.
-/
namespace HybridSearch

/-! ## What may be wrong -/

def TagDeclaration.conditions (d : TagDeclaration) : List (Prop × SchemaError) :=
  match d.separator with
  | none => []
  | some s => [(s.length ≠ 1, .invalidOption d.name "separator" (.separatorLength s))]

namespace VectorDeclaration

variable (d : VectorDeclaration)

/-- The declared algorithm is a plain list, in capitals or not. -/
def IsFlat : Prop :=
  Text.lowerAscii d.algorithm = "flat"

/-- The declared algorithm is a graph of near neighbours, in capitals or not. -/
def IsGraph : Prop :=
  Text.lowerAscii d.algorithm = "hnsw"

/-- No setting is given that only a graph has. -/
def LacksGraphSettings : Prop :=
  d.m = none ∧ d.efConstruction = none ∧ d.efRuntime = none ∧ d.epsilon = none

/-- What may be wrong with a vector field: the name of the algorithm, or a setting of the other
one. -/
def conditions : List (Prop × SchemaError) :=
  [(¬d.IsFlat ∧ ¬d.IsGraph, .unknownOption .algorithm d.algorithm),
    (d.IsFlat ∧ d.m ≠ none, .invalidOption d.name "m" (.foreign "hnsw")),
    (d.IsFlat ∧ d.efConstruction ≠ none,
      .invalidOption d.name "ef_construction" (.foreign "hnsw")),
    (d.IsFlat ∧ d.efRuntime ≠ none, .invalidOption d.name "ef_runtime" (.foreign "hnsw")),
    (d.IsFlat ∧ d.epsilon ≠ none, .invalidOption d.name "epsilon" (.foreign "hnsw")),
    (d.IsGraph ∧ d.blockSize ≠ none, .invalidOption d.name "block_size" (.foreign "flat"))]

variable {d}

theorem IsFlat.not_isGraph (h : d.IsFlat) : ¬d.IsGraph := by
  intro hgraph
  have hwords : "flat" = "hnsw" := Eq.trans (Eq.symm h) hgraph
  exact absurd hwords (by decide)

end VectorDeclaration

/-- What may be wrong with declarations: the tags from the first on, then the vectors. -/
def FieldDeclarations.conditions (d : FieldDeclarations) : List (Prop × SchemaError) :=
  d.tag.flatMap TagDeclaration.conditions ++ d.vector.flatMap VectorDeclaration.conditions

/-! ## What is declared -/

/-- An option has the value that is given for it, or its default if none is given. -/
def Settled {α : Type} (given : Option α) (default value : α) : Prop :=
  given = some value ∨ given = none ∧ value = default

theorem settled_getD {α : Type} {given : Option α} {default value : α} :
    Settled given default value ↔ value = given.getD default := by
  cases given <;> simp [Settled, eq_comm]

/-- The part of a field that does not hang on its kind. -/
structure Field.Carries (f : Field) (name : String) (path : Option String)
    (sortable noIndex : Bool) : Prop where
  name_eq : f.name = name
  path_eq : f.path = path
  sortable_eq : f.sortable = sortable
  noIndex_eq : f.noIndex = noIndex

def TagDeclaration.Declares (d : TagDeclaration) (f : Field) : Prop :=
  f.Carries d.name d.path d.sortable d.noIndex ∧
    ∃ o : TagOptions, f.type = .tag o ∧
      Settled d.separator "," (String.singleton o.separator) ∧ o.caseSensitive = d.caseSensitive

def TextDeclaration.Declares (d : TextDeclaration) (f : Field) : Prop :=
  f.Carries d.name d.path d.sortable d.noIndex ∧
    ∃ o : TextOptions, f.type = .text o ∧
      Settled d.weight (Binary64.ofInt 1) o.weight ∧ o.noStem = d.noStem ∧
      o.phonetic = d.phonetic ∧ o.suffixTrie = d.suffixTrie

def PlainDeclaration.Declares (type : FieldType) (d : PlainDeclaration) (f : Field) : Prop :=
  f.Carries d.name d.path d.sortable d.noIndex ∧ f.type = type

/-- The algorithm that is declared, with its own settings and none of the other one. -/
inductive VectorDeclaration.Runs (d : VectorDeclaration) : Algorithm → Prop
  | flat (hname : d.IsFlat) (hown : d.LacksGraphSettings) : Runs d (.flat d.blockSize)
  | hnsw {graph : GraphOptions} (hname : d.IsGraph) (hown : d.blockSize = none)
    (hm : Settled d.m 16 graph.m)
    (hconstruction : Settled d.efConstruction 200 graph.efConstruction)
    (hruntime : Settled d.efRuntime 10 graph.efRuntime)
    (hepsilon : Settled d.epsilon (Binary64.ofDecimal false 1 (-2)) graph.epsilon) :
    Runs d (.hnsw graph)

def VectorDeclaration.Declares (d : VectorDeclaration) (f : Field) : Prop :=
  f.Carries d.name d.path false false ∧
    ∃ o : VectorOptions, f.type = .vector o ∧ d.Runs o.algorithm ∧ o.dims = d.dims ∧
      o.elementType = d.elementType ∧ o.metric = d.metric ∧ o.initialCap = d.initialCap

/-- The fields that declarations stand for: one for each of them, in the order tag, text, numeric,
geo, vector. -/
def FieldDeclarations.Declares (d : FieldDeclarations) (fields : List Field) : Prop :=
  ∃ tags texts numbers places vectors, fields = tags ++ texts ++ numbers ++ places ++ vectors ∧
    List.Forall₂ TagDeclaration.Declares d.tag tags ∧
    List.Forall₂ TextDeclaration.Declares d.text texts ∧
    List.Forall₂ (PlainDeclaration.Declares .numeric) d.numeric numbers ∧
    List.Forall₂ (PlainDeclaration.Declares .geo) d.geo places ∧
    List.Forall₂ VectorDeclaration.Declares d.vector vectors

/-! ## One declaration -/

theorem Field.eq_mk_iff {f : Field} {name : String} {path : Option String} {type : FieldType}
    {sortable noIndex : Bool} :
    f = ⟨name, path, type, sortable, noIndex⟩ ↔
      f.Carries name path sortable noIndex ∧ f.type = type := by
  constructor
  · rintro rfl
    exact ⟨⟨rfl, rfl, rfl, rfl⟩, rfl⟩
  · rintro ⟨⟨rfl, rfl, rfl, rfl⟩, rfl⟩
    rfl

namespace TagDeclaration

variable {d : TagDeclaration} {f : Field}

theorem firstViolated_field (d : TagDeclaration) :
    FirstViolated d.conditions (errorOf? d.field) := by
  rw [conditions, field, separatorChar]
  cases hgiven : d.separator with
  | none => rfl
  | some s =>
    have hlength : s.length = s.toList.length := (String.length_toList).symm
    dsimp only
    rw [hlength]
    rcases s.toList with _ | ⟨c, _ | ⟨c', rest⟩⟩
    · exact .inl ⟨by simp, rfl⟩
    · exact .inr ⟨by simp, rfl⟩
    · exact .inl ⟨by simp, rfl⟩

theorem separatorChar_eq_ok_iff {c : Char} :
    d.separatorChar = .ok c ↔ Settled d.separator "," (String.singleton c) := by
  have hsingle : ∀ s : String, s = String.singleton c ↔ s.toList = [c] := by
    intro s
    rw [← String.toList_inj, String.toList_singleton]
  rw [separatorChar, Settled, eq_comm (a := String.singleton c), hsingle]
  cases d.separator with
  | none => simp
  | some s =>
    dsimp only
    rw [Option.some.injEq, hsingle]
    split <;> simp_all

theorem not_conditions_iff : (∀ c ∈ d.conditions, ¬c.1) ↔ ∀ s ∈ d.separator, s.length = 1 := by
  rw [conditions]
  cases d.separator <;> simp

theorem field_eq_ok_iff : d.field = .ok f ↔ d.Declares f := by
  rw [field, bind_eq_ok_iff, Declares]
  simp only [separatorChar_eq_ok_iff]
  constructor
  · rintro ⟨separator, hseparator, ⟨⟩⟩
    exact ⟨⟨rfl, rfl, rfl, rfl⟩, _, rfl, hseparator, rfl⟩
  · rintro ⟨hcarries, ⟨separator, caseSensitive⟩, htype, hseparator, rfl⟩
    exact ⟨separator, hseparator, congrArg Except.ok (Field.eq_mk_iff.mpr ⟨hcarries, htype⟩).symm⟩

end TagDeclaration

theorem TextDeclaration.declares_iff {d : TextDeclaration} {f : Field} :
    d.Declares f ↔ f = d.field := by
  rw [field, Field.eq_mk_iff, Declares]
  refine and_congr_right fun _ => ⟨?_, fun htype => ?_⟩
  · rintro ⟨⟨weight, noStem, phonetic, suffixTrie⟩, htype, hweight, rfl, rfl, rfl⟩
    rw [htype, ← settled_getD.mp hweight]
  · exact ⟨_, htype, settled_getD.mpr rfl, rfl, rfl, rfl⟩

theorem PlainDeclaration.declares_iff {type : FieldType} {d : PlainDeclaration} {f : Field} :
    d.Declares type f ↔ f = d.field type := by
  rw [field, Field.eq_mk_iff, Declares]

namespace VectorDeclaration

variable {d : VectorDeclaration} {f : Field}

theorem algorithmOptions_of_isFlat (h : d.IsFlat) :
    d.algorithmOptions =
      match d.graphSetting? with
      | some setting => .error (.invalidOption d.name setting (.foreign "hnsw"))
      | none => .ok (.flat d.blockSize) := by
  rw [IsFlat] at h
  rw [algorithmOptions, h]
  rfl

theorem algorithmOptions_of_isGraph (h : d.IsGraph) :
    d.algorithmOptions =
      if d.blockSize.isSome then .error (.invalidOption d.name "block_size" (.foreign "flat"))
      else .ok (.hnsw d.graph) := by
  rw [IsGraph] at h
  rw [algorithmOptions, h]
  rfl

theorem algorithmOptions_of_unknown (hflat : ¬d.IsFlat) (hgraph : ¬d.IsGraph) :
    d.algorithmOptions = .error (.unknownOption .algorithm d.algorithm) := by
  rw [algorithmOptions]
  split
  · rename_i hname
    exact absurd hname hflat
  · rename_i hname
    exact absurd hname hgraph
  · rfl

theorem graphSetting?_eq_none_iff : d.graphSetting? = none ↔ d.LacksGraphSettings := by
  rw [graphSetting?, LacksGraphSettings]
  cases d.m <;> cases d.efConstruction <;> cases d.efRuntime <;> cases d.epsilon <;> simp

theorem firstViolated_algorithmOptions (d : VectorDeclaration) :
    FirstViolated d.conditions (errorOf? d.algorithmOptions) := by
  have hnone : FirstViolated ([] : List (Prop × SchemaError)) none := rfl
  by_cases hflat : d.IsFlat
  · have hgraph := hflat.not_isGraph
    have hgiven : ∀ {α : Type} {setting : Option α},
        d.IsFlat ∧ setting ≠ none ↔ setting.isSome = true := by
      intro α setting
      rw [Option.ne_none_iff_isSome, and_iff_right hflat]
    have hfirst : errorOf? d.algorithmOptions =
        if d.m.isSome then some (.invalidOption d.name "m" (.foreign "hnsw"))
        else if d.efConstruction.isSome then
          some (.invalidOption d.name "ef_construction" (.foreign "hnsw"))
        else if d.efRuntime.isSome then
          some (.invalidOption d.name "ef_runtime" (.foreign "hnsw"))
        else if d.epsilon.isSome then some (.invalidOption d.name "epsilon" (.foreign "hnsw"))
        else none := by
      rw [algorithmOptions_of_isFlat hflat, graphSetting?]
      split_ifs <;> rfl
    rw [hfirst]
    exact .inr ⟨fun h => h.1 hflat, firstViolated_ite hgiven (firstViolated_ite hgiven
      (firstViolated_ite hgiven (firstViolated_ite hgiven (.inr ⟨fun h => hgraph h.1, hnone⟩))))⟩
  · have hgraphOnly : ∀ {p : Prop}, ¬(d.IsFlat ∧ p) := fun h => hflat h.1
    by_cases hgraph : d.IsGraph
    · have hfirst : errorOf? d.algorithmOptions =
          if d.blockSize.isSome then
            some (.invalidOption d.name "block_size" (.foreign "flat"))
          else none := by
        rw [algorithmOptions_of_isGraph hgraph]
        split_ifs <;> rfl
      have hgiven : d.IsGraph ∧ d.blockSize ≠ none ↔ d.blockSize.isSome = true := by
        rw [Option.ne_none_iff_isSome, and_iff_right hgraph]
      rw [hfirst]
      exact .inr ⟨fun h => h.2 hgraph, .inr ⟨hgraphOnly, .inr ⟨hgraphOnly, .inr ⟨hgraphOnly,
        .inr ⟨hgraphOnly, firstViolated_ite hgiven hnone⟩⟩⟩⟩⟩
    · rw [algorithmOptions_of_unknown hflat hgraph]
      exact .inl ⟨⟨hflat, hgraph⟩, rfl⟩

theorem firstViolated_field (d : VectorDeclaration) :
    FirstViolated d.conditions (errorOf? d.field) := by
  rw [field, ← List.append_nil d.conditions]
  exact d.firstViolated_algorithmOptions.bind fun algorithm _ => rfl

theorem runs_iff_of_isFlat {algorithm : Algorithm} (hflat : d.IsFlat) :
    d.Runs algorithm ↔ algorithm = .flat d.blockSize ∧ d.LacksGraphSettings := by
  constructor
  · intro h
    cases h with
    | flat _ hown => exact ⟨rfl, hown⟩
    | hnsw hname => exact absurd hname hflat.not_isGraph
  · rintro ⟨rfl, hown⟩
    exact .flat hflat hown

theorem runs_iff_of_isGraph {algorithm : Algorithm} (hgraph : d.IsGraph) :
    d.Runs algorithm ↔ algorithm = .hnsw d.graph ∧ d.blockSize = none := by
  constructor
  · intro h
    cases h with
    | flat hname => exact absurd hgraph hname.not_isGraph
    | @hnsw graph _ hown hm hconstruction hruntime hepsilon =>
      rw [settled_getD] at hm hconstruction hruntime hepsilon
      obtain ⟨m, efConstruction, efRuntime, epsilon⟩ := graph
      subst hm hconstruction hruntime hepsilon
      exact ⟨rfl, hown⟩
  · rintro ⟨rfl, hown⟩
    exact .hnsw hgraph hown (settled_getD.mpr rfl) (settled_getD.mpr rfl) (settled_getD.mpr rfl)
      (settled_getD.mpr rfl)

theorem Runs.isFlat_or_isGraph {algorithm : Algorithm} (h : d.Runs algorithm) :
    d.IsFlat ∨ d.IsGraph := by
  cases h with
  | flat hname => exact .inl hname
  | hnsw hname => exact .inr hname

theorem algorithmOptions_eq_ok_iff {algorithm : Algorithm} :
    d.algorithmOptions = .ok algorithm ↔ d.Runs algorithm := by
  by_cases hflat : d.IsFlat
  · rw [algorithmOptions_of_isFlat hflat, runs_iff_of_isFlat hflat, ← graphSetting?_eq_none_iff]
    cases d.graphSetting? <;> simp [eq_comm]
  · by_cases hgraph : d.IsGraph
    · rw [algorithmOptions_of_isGraph hgraph, runs_iff_of_isGraph hgraph]
      cases d.blockSize <;> simp [eq_comm]
    · rw [algorithmOptions_of_unknown hflat hgraph]
      exact iff_of_false nofun fun h => h.isFlat_or_isGraph.elim hflat hgraph

theorem not_conditions_iff : (∀ c ∈ d.conditions, ¬c.1) ↔
    d.IsFlat ∧ d.LacksGraphSettings ∨ d.IsGraph ∧ d.blockSize = none := by
  rw [← d.firstViolated_algorithmOptions.exists_ok_iff]
  simp only [algorithmOptions_eq_ok_iff]
  constructor
  · rintro ⟨algorithm, hruns⟩
    cases hruns with
    | flat hname hown => exact .inl ⟨hname, hown⟩
    | hnsw hname hown => exact .inr ⟨hname, hown⟩
  · rintro (⟨hname, hown⟩ | ⟨hname, hown⟩)
    · exact ⟨_, .flat hname hown⟩
    · exact ⟨_, (runs_iff_of_isGraph hname).mpr ⟨rfl, hown⟩⟩

theorem field_eq_ok_iff : d.field = .ok f ↔ d.Declares f := by
  rw [field, bind_eq_ok_iff, Declares]
  simp only [algorithmOptions_eq_ok_iff]
  constructor
  · rintro ⟨algorithm, hruns, ⟨⟩⟩
    exact ⟨⟨rfl, rfl, rfl, rfl⟩, _, rfl, hruns, rfl, rfl, rfl, rfl⟩
  · rintro ⟨hcarries, ⟨dims, algorithm, elementType, metric, cap⟩, htype, hruns, rfl, rfl, rfl, rfl⟩
    exact ⟨algorithm, hruns, congrArg Except.ok (Field.eq_mk_iff.mpr ⟨hcarries, htype⟩).symm⟩

end VectorDeclaration

/-! ## All declarations -/

namespace FieldDeclarations

variable {d : FieldDeclarations} {fs : List Field}

theorem firstViolated_fields (d : FieldDeclarations) :
    FirstViolated d.conditions (errorOf? d.fields) := by
  rw [conditions, fields]
  refine (FirstViolated.mapM TagDeclaration.firstViolated_field).bind fun tags _ => ?_
  rw [← List.append_nil (d.vector.flatMap _)]
  exact (FirstViolated.mapM VectorDeclaration.firstViolated_field).bind fun vectors _ => rfl

theorem fields_eq_ok_iff : d.fields = .ok fs ↔ d.Declares fs := by
  have htext : ∀ {texts}, List.Forall₂ TextDeclaration.Declares d.text texts ↔
      texts = d.text.map TextDeclaration.field :=
    forall₂_iff_eq_map fun d f => @TextDeclaration.declares_iff d f
  have hplain : ∀ {type ds fields}, List.Forall₂ (PlainDeclaration.Declares type) ds fields ↔
      fields = ds.map (PlainDeclaration.field type) :=
    fun {type} => forall₂_iff_eq_map fun d f => @PlainDeclaration.declares_iff type d f
  rw [fields, bind_eq_ok_iff]
  simp only [bind_eq_ok_iff, mapM_eq_ok_iff, TagDeclaration.field_eq_ok_iff,
    VectorDeclaration.field_eq_ok_iff]
  constructor
  · rintro ⟨tags, htags, vectors, hvectors, ⟨⟩⟩
    exact ⟨tags, _, _, _, vectors, rfl, htags, htext.mpr rfl, hplain.mpr rfl, hplain.mpr rfl,
      hvectors⟩
  · rintro ⟨tags, texts, numbers, places, vectors, rfl, htags, htexts, hnumbers, hplaces, hvectors⟩
    obtain rfl := htext.mp htexts
    obtain rfl := hplain.mp hnumbers
    obtain rfl := hplain.mp hplaces
    exact ⟨tags, htags, vectors, hvectors, rfl⟩

theorem Declares.eq_nil_iff (h : d.Declares fs) : fs = [] ↔ d.isEmpty = true := by
  have hnil : ∀ {α : Type} {R : α → Field → Prop} {xs : List α} {ys : List Field},
      List.Forall₂ R xs ys → (ys = [] ↔ xs = []) := by
    intro α R xs ys hR
    rw [← List.length_eq_zero_iff, ← List.length_eq_zero_iff, hR.length_eq]
  obtain ⟨tags, texts, numbers, places, vectors, rfl, htags, htexts, hnumbers, hplaces, hvectors⟩ :=
    h
  simp only [isEmpty, List.append_eq_nil_iff, Bool.and_eq_true, List.isEmpty_iff, hnil htags,
    hnil htexts, hnil hnumbers, hnil hplaces, hnil hvectors]

/-- Declarations are converted if each separator is a single character and each vector has the
settings of its own algorithm only. -/
theorem exists_fields_iff :
    (∃ fs, d.fields = .ok fs) ↔
      (∀ t ∈ d.tag, ∀ s ∈ t.separator, s.length = 1) ∧
        ∀ v ∈ d.vector,
          v.IsFlat ∧ v.LacksGraphSettings ∨ v.IsGraph ∧ v.blockSize = none := by
  rw [d.firstViolated_fields.exists_ok_iff, conditions, List.forall_mem_append,
    List.forall_mem_flatMap, List.forall_mem_flatMap]
  simp only [TagDeclaration.not_conditions_iff, VectorDeclaration.not_conditions_iff]

end FieldDeclarations

/-! ## Declarations of given fields -/

namespace Field

variable {f : Field}

def tagDeclaration? (f : Field) : Option TagDeclaration :=
  match f.type with
  | .tag o =>
    some { name := f.name, path := f.path, separator := some (String.singleton o.separator)
           caseSensitive := o.caseSensitive, sortable := f.sortable, noIndex := f.noIndex }
  | _ => none

def textDeclaration? (f : Field) : Option TextDeclaration :=
  match f.type with
  | .text o =>
    some { name := f.name, path := f.path, weight := some o.weight, noStem := o.noStem
           phonetic := o.phonetic, suffixTrie := o.suffixTrie, sortable := f.sortable
           noIndex := f.noIndex }
  | _ => none

def plainDeclaration? (kind : FieldKind) (f : Field) : Option PlainDeclaration :=
  if f.kind = kind then
    some { name := f.name, path := f.path, sortable := f.sortable, noIndex := f.noIndex }
  else none

/-- The declaration of a vector field. There is no place in it for the flags of the field. -/
def vectorDeclaration? (f : Field) : Option VectorDeclaration :=
  match f.type with
  | .vector o =>
    let d : VectorDeclaration :=
      { name := f.name, path := f.path, dims := o.dims, elementType := o.elementType
        metric := o.metric, initialCap := o.initialCap }
    match o.algorithm with
    | .flat blockSize => some { d with algorithm := "flat", blockSize := blockSize }
    | .hnsw graph =>
      some { d with algorithm := "hnsw", m := some graph.m
                    efConstruction := some graph.efConstruction
                    efRuntime := some graph.efRuntime, epsilon := some graph.epsilon }
  | _ => none

/-- A vector field is neither sortable nor kept out of the index; other fields may be. -/
def Declarable (f : Field) : Prop :=
  f.kind = .vector → f.sortable = false ∧ f.noIndex = false

/-- The fields kind by kind, in the order tag, text, numeric, geo, vector; those of one kind in
their own order. -/
def byKind (fs : List Field) : List Field :=
  [FieldKind.tag, .text, .numeric, .geo, .vector].flatMap fun kind =>
    fs.filter fun f => f.kind = kind

theorem byKind_eq (fs : List Field) :
    byKind fs = (fs.filter fun f => f.kind = .tag) ++ (fs.filter fun f => f.kind = .text) ++
      (fs.filter fun f => f.kind = .numeric) ++ (fs.filter fun f => f.kind = .geo) ++
      (fs.filter fun f => f.kind = .vector) := by
  simp [byKind]

theorem mem_byKind {fs : List Field} : f ∈ byKind fs ↔ f ∈ fs := by
  have hkind : f.kind ∈ [FieldKind.tag, .text, .numeric, .geo, .vector] := by
    cases f.kind <;> decide
  simp only [byKind, List.mem_flatMap, List.mem_filter, decide_eq_true_eq]
  constructor
  · rintro ⟨kind, -, hf, -⟩
    exact hf
  · intro hf
    exact ⟨f.kind, hkind, hf, rfl⟩

end Field

/-- Fields as declarations, with every option written out. -/
def FieldDeclarations.ofFields (fs : List Field) : FieldDeclarations where
  tag := fs.filterMap Field.tagDeclaration?
  text := fs.filterMap Field.textDeclaration?
  numeric := fs.filterMap (Field.plainDeclaration? .numeric)
  geo := fs.filterMap (Field.plainDeclaration? .geo)
  vector := fs.filterMap Field.vectorDeclaration?

/-- What is written of some members of a row stands for these members, in their order. -/
theorem forall₂_filterMap_filter {α β : Type} {R : α → β → Prop} {write : β → Option α}
    {p : β → Bool} {ys : List β}
    (h : ∀ y ∈ ys, if p y then ∃ x, write y = some x ∧ R x y else write y = none) :
    List.Forall₂ R (ys.filterMap write) (ys.filter p) := by
  induction ys with
  | nil => exact .nil
  | cons y ys ih =>
    have hys := ih fun z hz => h z (List.mem_cons_of_mem y hz)
    have hy := h y List.mem_cons_self
    by_cases hp : p y
    · rw [if_pos hp] at hy
      obtain ⟨x, hx, hxy⟩ := hy
      rw [List.filterMap_cons_some hx, List.filter_cons_of_pos hp]
      exact .cons hxy hys
    · rw [if_neg hp] at hy
      rw [List.filterMap_cons_none hy, List.filter_cons_of_neg hp]
      exact hys

namespace FieldDeclarations

variable {d : FieldDeclarations} {fs : List Field}

theorem declares_ofFields (h : ∀ f ∈ fs, f.Declarable) :
    (ofFields fs).Declares (Field.byKind fs) := by
  refine ⟨_, _, _, _, _, Field.byKind_eq fs, forall₂_filterMap_filter ?_,
    forall₂_filterMap_filter ?_, forall₂_filterMap_filter ?_, forall₂_filterMap_filter ?_,
    forall₂_filterMap_filter ?_⟩
  all_goals
    intro f hf
    obtain ⟨name, path, type, sortable, noIndex⟩ := f
  · cases type with
    | tag o => exact ⟨_, rfl, ⟨rfl, rfl, rfl, rfl⟩, o, rfl, .inl rfl, rfl⟩
    | _ => rfl
  · cases type with
    | text o => exact ⟨_, rfl, ⟨rfl, rfl, rfl, rfl⟩, o, rfl, .inl rfl, rfl, rfl, rfl⟩
    | _ => rfl
  · cases type with
    | numeric => exact ⟨_, rfl, ⟨rfl, rfl, rfl, rfl⟩, rfl⟩
    | _ => rfl
  · cases type with
    | geo => exact ⟨_, rfl, ⟨rfl, rfl, rfl, rfl⟩, rfl⟩
    | _ => rfl
  · cases type with
    | vector o =>
      obtain ⟨dims, algorithm, elementType, metric, cap⟩ := o
      obtain ⟨hsortable, hnoIndex⟩ := h _ hf rfl
      have hflat : Text.lowerAscii "flat" = "flat" := Text.lowerAscii_eq_self rfl
      have hgraph : Text.lowerAscii "hnsw" = "hnsw" := Text.lowerAscii_eq_self rfl
      cases algorithm with
      | flat blockSize =>
        exact ⟨_, rfl, ⟨rfl, rfl, hsortable, hnoIndex⟩, _, rfl,
          .flat hflat ⟨rfl, rfl, rfl, rfl⟩, rfl, rfl, rfl, rfl⟩
      | hnsw graph =>
        exact ⟨_, rfl, ⟨rfl, rfl, hsortable, hnoIndex⟩, _, rfl,
          .hnsw hgraph rfl (.inl rfl) (.inl rfl) (.inl rfl) (.inl rfl), rfl, rfl, rfl, rfl⟩
    | _ => rfl

/-- The flags of a vector field cannot be declared. -/
theorem Declares.declarable (h : d.Declares fs) : ∀ f ∈ fs, f.Declarable := by
  obtain ⟨tags, texts, numbers, places, vectors, rfl, htags, htexts, hnumbers, hplaces, hvectors⟩ :=
    h
  have hplain : ∀ {type : FieldType} {ds : List PlainDeclaration} {fields : List Field},
      type.kind ≠ .vector → List.Forall₂ (PlainDeclaration.Declares type) ds fields →
        ∀ f ∈ fields, f.Declarable := by
    intro type ds fields htype hfields f hf hkind
    obtain ⟨d, -, -, hd⟩ := (exists_of_forall₂_of_mem hfields).2 f hf
    rw [Field.kind, hd] at hkind
    exact absurd hkind htype
  simp only [List.forall_mem_append]
  refine ⟨⟨⟨⟨fun f hf hkind => ?_, fun f hf hkind => ?_⟩, hplain (by decide) hnumbers⟩,
    hplain (by decide) hplaces⟩, fun f hf _ => ?_⟩
  · obtain ⟨d, -, -, o, htype, -⟩ := (exists_of_forall₂_of_mem htags).2 f hf
    rw [Field.kind, htype] at hkind
    cases hkind
  · obtain ⟨d, -, -, o, htype, -⟩ := (exists_of_forall₂_of_mem htexts).2 f hf
    rw [Field.kind, htype] at hkind
    cases hkind
  · obtain ⟨d, -, hcarries, -⟩ := (exists_of_forall₂_of_mem hvectors).2 f hf
    exact ⟨hcarries.sortable_eq, hcarries.noIndex_eq⟩

theorem fields_ofFields_iff :
    (ofFields fs).fields = .ok (Field.byKind fs) ↔ ∀ f ∈ fs, f.Declarable := by
  rw [fields_eq_ok_iff]
  constructor
  · intro h f hf
    exact h.declarable f (Field.mem_byKind.mpr hf)
  · exact declares_ofFields

/-- Declarations are converted if each separator is a single character and each vector has the
settings of its own algorithm only; else the first thing that is wrong is the error, tags before
vectors. They become the fields that they stand for, one for each, and none only if there are no
declarations. Fields whose vectors carry no flags are their own declarations, kind by kind. -/
theorem converts_exactly (d : FieldDeclarations) :
    ((∃ fs, d.fields = .ok fs) ↔
      (∀ t ∈ d.tag, ∀ s ∈ t.separator, s.length = 1) ∧
        ∀ v ∈ d.vector,
          v.IsFlat ∧ v.LacksGraphSettings ∨ v.IsGraph ∧ v.blockSize = none) ∧
    FirstViolated d.conditions (errorOf? d.fields) ∧
    (∀ fs, d.fields = .ok fs ↔ d.Declares fs) ∧
    (∀ fs, d.fields = .ok fs → (fs = [] ↔ d.isEmpty = true)) ∧
    ∀ fs, (ofFields fs).fields = .ok (Field.byKind fs) ↔ ∀ f ∈ fs, f.Declarable := by
  refine ⟨exists_fields_iff, firstViolated_fields d, fun fs => fields_eq_ok_iff, fun fs h => ?_,
    fun fs => fields_ofFields_iff⟩
  exact (fields_eq_ok_iff.mp h).eq_nil_iff

end FieldDeclarations

end HybridSearch
