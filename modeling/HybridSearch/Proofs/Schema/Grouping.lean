import HybridSearch.Proofs.Schema.Inference

/-!
# Groups of inferred fields

Inference distributes the keys of a record over groups, one for each kind of field. No key is lost
on the way, none is declared twice, and each group keeps the order of the record. The strict form
differs from the lenient one in nothing but that it gives up at the first key that belongs nowhere.

* `Json.Shows`: which values show which kind of field.
* `Record.Grouped`: the keys of a record, distributed over groups.
* `Record.LeastUnclassifiable`: the key at which the strict form gives up.
* `Record.inferFields_partition`: what both forms of inference answer.
-/
namespace HybridSearch

/-! ## What a value shows -/

/-- The kinds of fields that values show. A text that reads as a number once it is trimmed shows a
number; any other text is a text, unless it is empty. -/
inductive Json.Shows : Json → FieldKind → Prop
  | number (n : JsonNumber) : Shows (.number n) .numeric
  | bool (b : Bool) : Shows (.bool b) .numeric
  | numeral {s : String} {x : Binary64} (hx : Number.ofText? (Text.trim s) = some x) :
    Shows (.string s) .numeric
  | text {s : String} (hne : s ≠ "") (hx : Number.ofText? (Text.trim s) = none) :
    Shows (.string s) .text
  | tags (texts : List String) : Shows (.array (texts.map .string)) .tag

/-- The values that show a kind of field at all. -/
inductive Json.Classifiable : Json → Prop
  | number (n : JsonNumber) : Classifiable (.number n)
  | bool (b : Bool) : Classifiable (.bool b)
  | text {s : String} (hne : s ≠ "") : Classifiable (.string s)
  | texts (texts : List String) : Classifiable (.array (texts.map .string))

namespace Json

theorem all_string?_iff {items : List Json} :
    (items.all fun item => item.string?.isSome) = true ↔
      ∃ texts : List String, items = texts.map .string := by
  induction items with
  | nil => exact iff_of_true rfl ⟨[], rfl⟩
  | cons item rest ih =>
    rw [List.all_cons, Bool.and_eq_true, ih]
    constructor
    · rintro ⟨hitem, texts, rfl⟩
      cases item with
      | string s => exact ⟨s :: texts, rfl⟩
      | _ => cases hitem
    · rintro ⟨texts, htexts⟩
      cases texts with
      | nil => cases htexts
      | cons s texts =>
        obtain ⟨rfl, rfl⟩ := List.cons.inj htexts
        exact ⟨rfl, texts, rfl⟩

theorem inferredKind?_string (s : String) :
    (string s).inferredKind? =
      if (Number.ofText? (Text.trim s)).isSome then some .numeric
      else if s = "" then none else some .text := by
  by_cases hempty : s = ""
  · subst hempty
    rfl
  · have hchars : s.isEmpty = false := by simpa using hempty
    simp [inferredKind?, hchars, hempty]

theorem inferredKind?_eq_some_iff {value : Json} {kind : FieldKind} :
    value.inferredKind? = some kind ↔ value.Shows kind := by
  constructor
  · intro h
    cases value with
    | null => cases h
    | object entries => cases h
    | bool b =>
      obtain rfl := Option.some.inj h
      exact .bool b
    | number n =>
      obtain rfl := Option.some.inj h
      exact .number n
    | string s =>
      rw [inferredKind?_string] at h
      cases hx : Number.ofText? (Text.trim s) with
      | some x =>
        rw [hx] at h
        obtain rfl := Option.some.inj h
        exact .numeral hx
      | none =>
        have hne : s ≠ "" := by
          rintro rfl
          rw [hx] at h
          cases h
        rw [hx, Option.isSome_none, if_neg Bool.false_ne_true, if_neg hne] at h
        obtain rfl := Option.some.inj h
        exact .text hne hx
    | array items =>
      rw [inferredKind?] at h
      split at h
      · rename_i hall
        obtain ⟨texts, rfl⟩ := all_string?_iff.mp hall
        obtain rfl := Option.some.inj h
        exact .tags texts
      · cases h
  · intro h
    cases h with
    | number n => rfl
    | bool b => rfl
    | numeral hx => rw [inferredKind?_string, hx]; rfl
    | text hne hx =>
      rw [inferredKind?_string, hx, Option.isSome_none, if_neg Bool.false_ne_true, if_neg hne]
    | tags texts =>
      rw [inferredKind?]
      exact if_pos (all_string?_iff.mpr ⟨texts, rfl⟩)

theorem classifiable_iff {value : Json} : value.Classifiable ↔ ∃ kind, value.Shows kind := by
  constructor
  · intro h
    cases h with
    | number n => exact ⟨_, .number n⟩
    | bool b => exact ⟨_, .bool b⟩
    | @text s hne =>
      cases hx : Number.ofText? (Text.trim s) with
      | some x => exact ⟨_, .numeral hx⟩
      | none => exact ⟨_, .text hne hx⟩
    | texts texts => exact ⟨_, .tags texts⟩
  · rintro ⟨kind, h⟩
    cases h with
    | number n => exact .number n
    | bool b => exact .bool b
    | @numeral s x hx =>
      refine .text fun hempty => ?_
      rw [hempty] at hx
      cases hx
    | text hne _ => exact .text hne
    | tags texts => exact .texts texts

theorem inferredKind?_eq_none_iff {value : Json} :
    value.inferredKind? = none ↔ ¬value.Classifiable := by
  rw [classifiable_iff, not_exists, Option.eq_none_iff_forall_ne_some]
  simp only [ne_eq, inferredKind?_eq_some_iff]

end Json

/-! ## Groups -/

/-- The declared names of a kind, in order. -/
def FieldDeclarations.names (d : FieldDeclarations) : FieldKind → List String
  | .tag => d.tag.map TagDeclaration.name
  | .text => d.text.map TextDeclaration.name
  | .numeric => d.numeric.map PlainDeclaration.name
  | .geo => d.geo.map PlainDeclaration.name
  | .vector => d.vector.map VectorDeclaration.name

theorem FieldDeclarations.names_ofNames (names : FieldKind → List String) :
    (ofNames names).names = names := by
  funext kind
  cases kind <;> simp [FieldDeclarations.names, ofNames, Function.comp_def]

namespace Record

/-- The keys of a record, distributed over the groups of declared fields by what their values
show. -/
structure Grouped (r : Record) (d : FieldDeclarations) : Prop where
  /-- Of each field nothing is declared but its name. -/
  plain : d = .ofNames d.names
  ascending : ∀ kind, (d.names kind).Pairwise (· < ·)
  disjoint : ∀ kind kind', kind ≠ kind' → (d.names kind).Disjoint (d.names kind')
  shown : ∀ kind name,
    name ∈ d.names kind ↔ ∃ value, r.get? name = some value ∧ value.Shows kind
  together : ∀ name,
    name ∈ d.names .numeric ∨ name ∈ d.names .tag ∨ name ∈ d.names .text ↔
      ∃ value, r.get? name = some value ∧ value.Classifiable

/-- A value under the key shows no kind of field, and no such value stands under a lesser key. -/
structure LeastUnclassifiable (r : Record) (name : String) : Prop where
  unclassifiable : ∃ value, r.get? name = some value ∧ ¬value.Classifiable
  least : ∀ other value, r.get? other = some value → ¬value.Classifiable → name ≤ other

variable {r : Record}

theorem LeastUnclassifiable.unique {name other : String} (h : r.LeastUnclassifiable name)
    (h' : r.LeastUnclassifiable other) : name = other := by
  obtain ⟨value, hvalue, hclass⟩ := h.unclassifiable
  obtain ⟨value', hvalue', hclass'⟩ := h'.unclassifiable
  exact String.le_antisymm (h.least other value' hvalue' hclass')
    (h'.least name value hvalue hclass)

theorem mem_keysOf_iff_shows {kind : FieldKind} {name : String} :
    name ∈ keysOf r.entries kind ↔ ∃ value, r.get? name = some value ∧ value.Shows kind := by
  rw [mem_keysOf_iff]
  simp only [get?_eq_some_iff, Json.inferredKind?_eq_some_iff]

theorem ascending_keysOf (kind : FieldKind) : (keysOf r.entries kind).Pairwise (· < ·) := by
  rw [keysOf, List.pairwise_map]
  exact r.ascending.filter _

theorem grouped_keysOf (r : Record) : r.Grouped (.ofNames (keysOf r.entries)) where
  plain := by rw [FieldDeclarations.names_ofNames]
  ascending kind := by
    rw [FieldDeclarations.names_ofNames]
    exact ascending_keysOf kind
  disjoint kind kind' hne := by
    rw [FieldDeclarations.names_ofNames]
    exact disjoint_keysOf r.nodup_names hne
  shown kind name := by
    rw [FieldDeclarations.names_ofNames]
    exact mem_keysOf_iff_shows
  together name := by
    simp only [FieldDeclarations.names_ofNames, mem_keysOf_iff_shows, Json.classifiable_iff]
    constructor
    · rintro (⟨value, hvalue, hshows⟩ | ⟨value, hvalue, hshows⟩ | ⟨value, hvalue, hshows⟩) <;>
        exact ⟨value, hvalue, _, hshows⟩
    · rintro ⟨value, hvalue, kind, hshows⟩
      rcases Json.kind_of_inferredKind? (Json.inferredKind?_eq_some_iff.mpr hshows) with
        rfl | rfl | rfl
      · exact .inr (.inl ⟨value, hvalue, hshows⟩)
      · exact .inr (.inr ⟨value, hvalue, hshows⟩)
      · exact .inl ⟨value, hvalue, hshows⟩

/-! ## The strict form -/

theorem inferenceFault?_eq_some_iff {entry : String × Json} {e : SchemaError} :
    inferenceFault? true entry = some e ↔
      ¬entry.2.Classifiable ∧ e = .unknownFieldType entry.1 := by
  rw [inferenceFault?, Bool.true_and, ← Json.inferredKind?_eq_none_iff]
  cases entry.2.inferredKind? <;> simp [eq_comm]

theorem inferenceFault?_eq_none_iff {entry : String × Json} :
    inferenceFault? true entry = none ↔ entry.2.Classifiable := by
  constructor
  · intro hnone
    by_contra hclass
    rw [inferenceFault?_eq_some_iff.mpr ⟨hclass, rfl⟩] at hnone
    cases hnone
  · intro hclass
    refine Option.eq_none_iff_forall_ne_some.mpr fun e he => ?_
    exact (inferenceFault?_eq_some_iff.mp he).1 hclass

theorem inferFields_strict_eq_ok_iff {d : FieldDeclarations} :
    r.inferFields true = .ok d ↔
      d = .ofNames (keysOf r.entries) ∧
        ∀ name value, r.get? name = some value → value.Classifiable := by
  rw [inferFields_eq, faultOr_eq_ok_iff, List.findSome?_eq_none_iff, and_comm, @eq_comm _ d]
  simp only [inferenceFault?_eq_none_iff, get?_eq_some_iff, Prod.forall]

/-- The keys ascend, so the first entry that is refused has the least key. -/
theorem leastUnclassifiable_of_error {e : SchemaError} (h : r.inferFields true = .error e) :
    ∃ name, e = .unknownFieldType name ∧ r.LeastUnclassifiable name := by
  rw [inferFields_eq, faultOr_eq_error_iff, List.findSome?_eq_some_iff] at h
  obtain ⟨earlier, ⟨name, value⟩, later, hentries, hfault, hearlier⟩ := h
  obtain ⟨hclass, rfl⟩ := inferenceFault?_eq_some_iff.mp hfault
  have hmem : (name, value) ∈ r.entries := by
    rw [hentries]
    exact List.mem_append_right _ List.mem_cons_self
  refine ⟨name, rfl, ⟨value, get?_eq_some_iff.mpr hmem, hclass⟩, ?_⟩
  intro other value' hvalue' hclass'
  have hascending := r.ascending
  have hmem' := get?_eq_some_iff.mp hvalue'
  rw [Ascending, hentries, List.pairwise_append] at hascending
  rw [hentries, List.mem_append, List.mem_cons] at hmem'
  rcases hmem' with hmem' | heq | hmem'
  · exact absurd (inferenceFault?_eq_none_iff.mp (hearlier _ hmem')) hclass'
  · obtain ⟨rfl, -⟩ := Prod.mk.inj heq
    exact String.le_refl other
  · have hlt : name < other := (List.pairwise_cons.mp hascending.2.1).1 _ hmem'
    exact String.not_lt.mp (String.lt_asymm hlt)

/-- Inference distributes the keys of a record over groups. The lenient form always succeeds, and
passes over the keys whose values show no kind of field. The strict form gives the same groups if
there is no such key, and otherwise refuses the least one. -/
theorem inferFields_partition (r : Record) :
    ∃ d, r.inferFields false = .ok d ∧ r.Grouped d ∧
      (∀ d', r.inferFields true = .ok d' ↔
        d' = d ∧ ∀ name value, r.get? name = some value → value.Classifiable) ∧
      ∀ e, r.inferFields true = .error e ↔
        ∃ name, e = .unknownFieldType name ∧ r.LeastUnclassifiable name := by
  refine ⟨_, r.inferFields_lenient, r.grouped_keysOf, fun d' => inferFields_strict_eq_ok_iff,
    fun e => ⟨leastUnclassifiable_of_error, ?_⟩⟩
  rintro ⟨name, rfl, hleast⟩
  cases hstrict : r.inferFields true with
  | ok d =>
    obtain ⟨value, hvalue, hclass⟩ := hleast.unclassifiable
    exact absurd ((inferFields_strict_eq_ok_iff.mp hstrict).2 name value hvalue) hclass
  | error e =>
    obtain ⟨other, rfl, hother⟩ := leastUnclassifiable_of_error hstrict
    rw [hleast.unique hother]

end Record
end HybridSearch
