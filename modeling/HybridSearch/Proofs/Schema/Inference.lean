import HybridSearch.Proofs.Document.Storing
import HybridSearch.Proofs.Schema.WellFormed
import HybridSearch.Schema.Inference

/-!
# Inferred fields

What the fields are that a record shows: each key whose value shows a kind is declared once, in the
group of that kind, with no options given. The fields make a schema whenever the keys are words.

* `Record.keysOf`: the keys whose values show a kind.
* `Record.inferFields_eq`: the fields that a record shows, or the first key that shows none.
* `FieldDeclarations.fields_ofNames`: fields of which only the names are declared.
* `Record.exists_schema`: the schema with the fields that a record shows.
-/
namespace HybridSearch

/-! ## Kinds and groups -/

theorem Json.kind_of_inferredKind? {value : Json} {kind : FieldKind}
    (h : value.inferredKind? = some kind) : kind = .tag ∨ kind = .text ∨ kind = .numeric := by
  cases value with
  | null => cases h
  | object entries => cases h
  | bool b =>
    obtain rfl := Option.some.inj h
    exact .inr (.inr rfl)
  | number n =>
    obtain rfl := Option.some.inj h
    exact .inr (.inr rfl)
  | string text =>
    rw [inferredKind?] at h
    split at h
    · cases h
    · split at h
      · exact .inr (.inr (Option.some.inj h).symm)
      · exact .inr (.inl (Option.some.inj h).symm)
  | array items =>
    rw [inferredKind?] at h
    split at h
    · exact .inl (Option.some.inj h).symm
    · cases h

namespace FieldDeclarations

/-- Fields of which nothing is declared but their names, kind by kind. -/
def ofNames (names : FieldKind → List String) : FieldDeclarations where
  tag := (names .tag).map fun name => { name }
  text := (names .text).map fun name => { name }
  numeric := (names .numeric).map fun name => { name }
  geo := (names .geo).map fun name => { name }
  vector := (names .vector).map fun name => { name }

theorem add_ofNames (names : FieldKind → List String) (kind : FieldKind) (name : String) :
    (ofNames names).add kind name =
      ofNames fun k => names k ++ if k = kind then [name] else [] := by
  cases kind <;> simp [add, ofNames]

end FieldDeclarations

/-! ## Inference -/

namespace Record

/-- The keys of entries whose values show a kind, in order. -/
def keysOf (entries : List (String × Json)) (kind : FieldKind) : List String :=
  (entries.filter fun entry => entry.2.inferredKind? == some kind).map Prod.fst

/-- The refusal of an entry whose value shows no kind. -/
def inferenceFault? (strict : Bool) (entry : String × Json) : Option SchemaError :=
  if strict && entry.2.inferredKind?.isNone then some (.unknownFieldType entry.1) else none

variable {entries : List (String × Json)} {kind : FieldKind}

theorem keysOf_cons (entry : String × Json) (rest : List (String × Json)) :
    keysOf (entry :: rest) kind = keysOf [entry] kind ++ keysOf rest kind := by
  rw [keysOf, ← List.singleton_append, List.filter_append, List.map_append]
  rfl

theorem mem_keysOf_iff {name : String} :
    name ∈ keysOf entries kind ↔
      ∃ value, (name, value) ∈ entries ∧ value.inferredKind? = some kind := by
  simp [keysOf]

theorem keysOf_eq_nil (h : kind ≠ .tag ∧ kind ≠ .text ∧ kind ≠ .numeric) :
    keysOf entries kind = [] := by
  refine List.eq_nil_iff_forall_not_mem.mpr fun name hname => ?_
  obtain ⟨value, -, hvalue⟩ := mem_keysOf_iff.mp hname
  rcases Json.kind_of_inferredKind? hvalue with hkind | hkind | hkind
  · exact h.1 hkind
  · exact h.2.1 hkind
  · exact h.2.2 hkind

/-- An entry is refused, or its key is put behind the names of its kind. -/
theorem addInferred_ofNames (strict : Bool) (names : FieldKind → List String)
    (entry : String × Json) :
    (FieldDeclarations.ofNames names).addInferred strict entry =
      faultOr (inferenceFault? strict entry)
        (.ofNames fun kind => names kind ++ keysOf [entry] kind) := by
  rw [FieldDeclarations.addInferred, inferenceFault?]
  cases hkind : entry.2.inferredKind? with
  | none => cases strict <;> simp [keysOf, hkind, faultOr]
  | some kind =>
    have hkeys : ∀ k, keysOf [entry] k = if k = kind then [entry.1] else [] := by
      intro k
      by_cases h : k = kind
      · simp [keysOf, hkind, h]
      · simp [keysOf, hkind, h, Ne.symm h]
    simp [FieldDeclarations.add_ofNames, hkeys, faultOr]

theorem foldlM_addInferred (strict : Bool) (names : FieldKind → List String)
    (entries : List (String × Json)) :
    entries.foldlM (FieldDeclarations.addInferred strict) (.ofNames names) =
      faultOr (entries.findSome? (inferenceFault? strict))
        (.ofNames fun kind => names kind ++ keysOf entries kind) := by
  induction entries generalizing names with
  | nil => simp [keysOf, faultOr, pure, Except.pure]
  | cons entry rest ih =>
    rw [List.foldlM_cons, addInferred_ofNames, faultOr_bind, List.findSome?_cons, ih]
    cases inferenceFault? strict entry with
    | some fault => rfl
    | none => simp only [Option.elim_none, keysOf_cons entry rest, List.append_assoc]

/-- The fields that a record shows are its keys, group by group; or the first key that shows no kind
is refused. -/
theorem inferFields_eq (r : Record) (strict : Bool) :
    r.inferFields strict =
      faultOr (r.entries.findSome? (inferenceFault? strict)) (.ofNames (keysOf r.entries)) :=
  foldlM_addInferred strict (fun _ => []) r.entries

theorem inferFields_lenient (r : Record) :
    r.inferFields false = .ok (.ofNames (keysOf r.entries)) := by
  have hnone : r.entries.findSome? (inferenceFault? false) = none :=
    List.findSome?_eq_none_iff.mpr fun entry _ => rfl
  rw [inferFields_eq, hnone, faultOr]

theorem inferredKind?_of_strict {r : Record} {d : FieldDeclarations}
    (h : r.inferFields true = .ok d) : ∀ entry ∈ r.entries, entry.2.inferredKind? ≠ none := by
  rw [inferFields_eq, faultOr_eq_ok_iff] at h
  intro entry hentry hnone
  have hfault := List.findSome?_eq_none_iff.mp h.1 entry hentry
  rw [inferenceFault?, hnone] at hfault
  cases hfault

/-- A key is declared in one group only. -/
theorem disjoint_keysOf (hnodup : (entries.map Prod.fst).Nodup) {kind' : FieldKind}
    (hne : kind ≠ kind') : (keysOf entries kind).Disjoint (keysOf entries kind') := by
  intro name hname hname'
  obtain ⟨value, hvalue, hkind⟩ := mem_keysOf_iff.mp hname
  obtain ⟨value', hvalue', hkind'⟩ := mem_keysOf_iff.mp hname'
  obtain ⟨-, rfl⟩ := Prod.mk.inj (List.inj_on_of_nodup_map hnodup hvalue hvalue' rfl)
  exact hne (Option.some.inj (hkind.symm.trans hkind'))

/-- A name is declared at most once. -/
theorem nodup_keysOf (hnodup : (entries.map Prod.fst).Nodup) :
    (keysOf entries .tag ++ keysOf entries .text ++ keysOf entries .numeric).Nodup := by
  have hgroup : ∀ kind, (keysOf entries kind).Nodup := fun kind =>
    (List.filter_sublist.map Prod.fst).nodup hnodup
  refine List.nodup_append'.mpr ⟨List.nodup_append'.mpr ⟨hgroup _, hgroup _, ?_⟩, hgroup _, ?_⟩
  · exact disjoint_keysOf hnodup (by decide)
  · exact List.disjoint_append_left.mpr
      ⟨disjoint_keysOf hnodup (by decide), disjoint_keysOf hnodup (by decide)⟩

end Record

/-! ## Fields and schemas -/

/-- A field without options of its own. -/
def Field.plain (type : FieldType) (name : String) : Field :=
  { name, type }

namespace FieldDeclarations

theorem fields_ofNames {names : FieldKind → List String} (hvector : names .vector = []) :
    (ofNames names).fields = .ok
      ((names .tag).map (Field.plain (.tag {})) ++ (names .text).map (Field.plain (.text {})) ++
        (names .numeric).map (Field.plain .numeric) ++ (names .geo).map (Field.plain .geo)) := by
  have htag : (ofNames names).tag.mapM TagDeclaration.field =
      .ok ((names .tag).map (Field.plain (.tag {}))) := by
    rw [ofNames, List.mapM_map]
    exact List.mapM_pure
  rw [fields, htag]
  simp only [ofNames, hvector, List.map_nil, List.map_map, List.mapM_nil]
  exact congrArg Except.ok (List.append_nil _)

end FieldDeclarations

namespace Record

/-- The fields that a record shows: tags, then texts, then numbers. -/
def inferredFields (r : Record) : List Field :=
  (keysOf r.entries .tag).map (Field.plain (.tag {})) ++
    (keysOf r.entries .text).map (Field.plain (.text {})) ++
    (keysOf r.entries .numeric).map (Field.plain .numeric)

theorem fields_keysOf (r : Record) :
    (FieldDeclarations.ofNames (keysOf r.entries)).fields = .ok r.inferredFields := by
  rw [FieldDeclarations.fields_ofNames (keysOf_eq_nil (by decide)),
    @keysOf_eq_nil r.entries .geo (by decide), List.map_nil, List.append_nil, inferredFields]

variable {r : Record}

theorem eq_plain_of_mem {f : Field} (hf : f ∈ r.inferredFields) :
    ∃ name type, f = .plain type name ∧ name ∈ r.entries.map Prod.fst ∧
      (type = .tag {} ∨ type = .text {} ∨ type = .numeric) := by
  have hkey : ∀ {kind name}, name ∈ keysOf r.entries kind → name ∈ r.entries.map Prod.fst :=
    fun hname => (List.filter_sublist.map Prod.fst).subset hname
  simp only [inferredFields, List.mem_append, List.mem_map] at hf
  rcases hf with (⟨name, hname, rfl⟩ | ⟨name, hname, rfl⟩) | ⟨name, hname, rfl⟩
  · exact ⟨name, _, rfl, hkey hname, .inl rfl⟩
  · exact ⟨name, _, rfl, hkey hname, .inr (.inl rfl)⟩
  · exact ⟨name, _, rfl, hkey hname, .inr (.inr rfl)⟩

theorem names_inferredFields :
    r.inferredFields.map Field.name =
      keysOf r.entries .tag ++ keysOf r.entries .text ++ keysOf r.entries .numeric := by
  simp [inferredFields, Field.plain, Function.comp_def]

end Record

theorem FieldType.not_conditions_of_default {type : FieldType}
    (h : type = .tag {} ∨ type = .text {} ∨ type = .numeric) : ∀ c ∈ type.conditions, ¬c.1 := by
  rcases h with rfl | rfl | rfl
  · exact List.forall_mem_singleton.mpr (by decide)
  · -- The default weight is one, a number whose units are too many to count.
    exact List.forall_mem_singleton.mpr (by decide +kernel)
  · exact List.forall_mem_nil _

namespace Record

variable {r : Record} {name : String}

/-- The fields that a record shows make a schema, if the keys of the record are words. -/
theorem exists_schema (hwords : ∀ key ∈ r.entries.map Prod.fst, Text.isWord key = true)
    (hname : ∃ c ∈ name.toList, ¬Text.WhiteSpace c) (keySeparator : Option String) :
    ∃ s : Schema,
      Declaration.schema ⟨{ name, keySeparator }, .ofNames (keysOf r.entries)⟩ = .ok s ∧
      s.toDraft = { name, keySeparator := keySeparator.getD ":", fields := r.inferredFields } := by
  have hfields : ∀ f ∈ r.inferredFields, (∀ c ∈ f.conditions, ¬c.1) ∧ f.path = none := by
    intro f hf
    obtain ⟨key, type, rfl, hkey, htype⟩ := eq_plain_of_mem hf
    refine ⟨List.forall_mem_cons.mpr ⟨?_, List.forall_mem_map.mpr ?_⟩, rfl⟩
    · exact not_not_intro (Text.isWord_iff.mp (hwords key hkey))
    · exact FieldType.not_conditions_of_default htype
  have hnames : (([] ++ r.inferredFields).map Field.name).Nodup := by
    rw [List.nil_append, names_inferredFields]
    exact nodup_keysOf r.nodup_names
  obtain ⟨s, hs⟩ : ∃ s, Draft.build
      { name, keySeparator := keySeparator.getD ":", fields := r.inferredFields } = .ok s := by
    have hprefix : ("rvl" : String) ≠ "" := by decide
    refine Draft.exists_build_iff.mpr (List.forall_mem_cons.mpr
      ⟨by simpa using hname, List.forall_mem_cons.mpr ⟨fun h => hprefix h.2, ?_⟩⟩)
    exact Field.not_conditionsOfAll (fun f hf => (hfields f hf).1)
      (fun f hf => (hfields f hf).2) hnames
  refine ⟨s, ?_, Draft.build_eq_ok_iff.mp hs⟩
  rw [Declaration.schema, Declaration.draft, fields_keysOf]
  exact hs

end Record
end HybridSearch
