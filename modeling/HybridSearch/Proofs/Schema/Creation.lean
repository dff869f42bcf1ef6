import HybridSearch.Proofs.Schema.Settings

/-!
# What creation arguments say

The creation arguments determine the index, but for text fields in a hash whose phonetic matcher is
also the kind of a field: such a field has the arguments of two fields. Two schemas have the same
arguments exactly if they agree once these fields are taken apart.

* `Field.parts`: the fields that the arguments of a field stand for.
* `Schema.creation_eq_iff_segments`: the arguments in front of the fields.
* `Schema.creation_determines_index`: the arguments as a whole.
-/
namespace HybridSearch

/-! ## Fields with the arguments of two -/

namespace Field

variable {storage : Storage} {f : Field}

/-- A text field up to its matcher. -/
def withoutMatcher (f : Field) (options : TextOptions) : Field :=
  { f with type := .text { options with phonetic := none }, sortable := false, noIndex := false }

/-- The field that a matcher may be taken for, with the flags behind it. -/
def ofMatcher (f : Field) (type : FieldType) : Field :=
  { name := "PHONETIC", type, sortable := f.sortable, noIndex := f.noIndex }

/-- The fields that the arguments of a field stand for: the field itself, unless its phonetic
matcher is also the type of a field named `PHONETIC`. -/
def parts (storage : Storage) (f : Field) : List Field :=
  match storage, f.type with
  | .hash, .text options =>
    match options.hiddenType? with
    | some type => [f.withoutMatcher options, f.ofMatcher type]
    | none => [f]
  | _, _ => [f]

theorem parts_of_isWhole (h : f.IsWhole storage) : f.parts storage = [f] := by
  cases storage with
  | json => rfl
  | hash =>
    cases htype : f.type with
    | text options => simp only [parts, htype, h rfl options htype]
    | _ => simp only [parts, htype]

/-- Of the parts of a field, each has its arguments to itself. -/
theorem isWhole_of_mem_parts {part : Field} (h : part ∈ f.parts storage) :
    part.IsWhole storage := by
  rintro rfl options hoptions
  cases htype : f.type with
  | text options' =>
    cases hhidden : options'.hiddenType? with
    | none =>
      simp only [parts, htype, hhidden, List.mem_singleton] at h
      rw [h, htype] at hoptions
      rw [← FieldType.text.inj hoptions, hhidden]
    | some type =>
      simp only [parts, htype, hhidden] at h
      rcases List.mem_pair.mp h with rfl | rfl
      · rw [← FieldType.text.inj hoptions, TextOptions.hiddenType?]
        simp
      · obtain ⟨-, ⟨-, rfl⟩ | ⟨-, rfl⟩⟩ := TextOptions.hiddenType?_eq_some hhidden
        · cases hoptions
        · cases hoptions
  | _ =>
    simp only [parts, htype, List.mem_singleton] at h
    rw [h, htype] at hoptions
    cases hoptions

/-- The parts of a field have its arguments. -/
theorem segments_parts : segments storage (f.parts storage) = f.arguments storage := by
  by_cases hwhole : f.IsWhole storage
  · rw [parts_of_isWhole hwhole]
    exact List.append_nil _
  · simp only [IsWhole, Classical.not_imp, not_forall] at hwhole
    obtain ⟨rfl, options, htype, hhidden⟩ := hwhole
    obtain ⟨type, hhidden⟩ := Option.ne_none_iff_exists'.mp hhidden
    obtain ⟨htrie, hmatcher⟩ := TextOptions.hiddenType?_eq_some hhidden
    have hparts : f.parts .hash = [f.withoutMatcher options, f.ofMatcher type] := by
      simp only [parts, htype, hhidden]
    rw [hparts, arguments_eq_cons, segments_cons, segments_cons, segments_nil]
    simp only [withoutMatcher, ofMatcher, following, settings, flags, kind, htype,
      FieldType.arguments_text, htrie, place]
    rcases hmatcher with ⟨hmatcher, rfl⟩ | ⟨hmatcher, rfl⟩ <;>
      simp [hmatcher, phoneticArguments, flagArgument, FieldType.arguments, FieldType.kind,
        FieldKind.keyword]

end Field

namespace Schema

def parts (s : Schema) : List Field :=
  s.fields.flatMap (Field.parts s.storage)

theorem segments_flatMap_parts (storage : Storage) (fields : List Field) :
    segments storage (fields.flatMap (Field.parts storage)) = segments storage fields := by
  rw [segments, List.flatMap_assoc]
  exact List.flatMap_congr fun f _ => Field.segments_parts

theorem isWhole_of_mem_parts (s : Schema) : ∀ f ∈ s.parts, f.IsWhole s.storage := by
  intro part hpart
  obtain ⟨f, -, hf⟩ := List.mem_flatMap.mp hpart
  exact Field.isWhole_of_mem_parts hf

theorem parts_eq_fields {s : Schema} (h : ∀ f ∈ s.fields, f.IsWhole s.storage) :
    s.parts = s.fields := by
  rw [parts, List.flatMap_congr fun f hf => Field.parts_of_isWhole (h f hf)]
  exact List.flatMap_singleton' s.fields

/-! ## All arguments -/

variable (s t : Schema) (nameSpace : String)

theorem prefixArguments_append_inj {keyPrefix keyPrefix' : String} {rest rest' : List String}
    (h : (if keyPrefix.isEmpty then [] else ["PREFIX", "1", keyPrefix]) ++ "SCHEMA" :: rest =
      (if keyPrefix'.isEmpty then [] else ["PREFIX", "1", keyPrefix']) ++ "SCHEMA" :: rest') :
    keyPrefix = keyPrefix' ∧ rest = rest' := by
  cases hempty : keyPrefix.isEmpty with
  | true =>
    cases hempty' : keyPrefix'.isEmpty with
    | true =>
      rw [hempty, hempty'] at h
      have hequal := (String.isEmpty_iff.mp hempty).trans (String.isEmpty_iff.mp hempty').symm
      exact ⟨hequal, (List.cons.inj h).2⟩
    | false =>
      rw [hempty, hempty'] at h
      exact absurd (List.cons.inj h).1 (by decide)
  | false =>
    cases hempty' : keyPrefix'.isEmpty with
    | true =>
      rw [hempty, hempty'] at h
      exact absurd (List.cons.inj h).1 (by decide)
    | false =>
      rw [hempty, hempty'] at h
      obtain ⟨hequal, h⟩ := List.cons.inj (List.cons.inj (List.cons.inj h).2).2
      exact ⟨hequal, (List.cons.inj h).2⟩

theorem creation_eq_iff_segments :
    s.creation nameSpace = t.creation nameSpace ↔
      s.name = t.name ∧ s.storage = t.storage ∧ s.keyPrefix = t.keyPrefix ∧
        segments s.storage s.fields = segments t.storage t.fields := by
  constructor
  · intro h
    simp only [creation, List.cons_append, List.nil_append, List.append_assoc, List.cons.injEq,
      true_and] at h
    obtain ⟨hname, hstorage, h⟩ := h
    exact ⟨String.append_right_inj _ |>.mp hname, eq_of_keyword_eq Storage.ofText?_keyword hstorage,
      prefixArguments_append_inj h⟩
  · rintro ⟨hname, hstorage, hprefix, hsegments⟩
    simp only [segments] at hsegments
    rw [creation, creation, hname, hprefix, hsegments, hstorage]

/-- What creation arguments determine: the name of the index, the storage, the key prefix, and in
order the fields or, where a field has the arguments of two, these two. So they determine the fields
if no field is of that sort. -/
theorem creation_determines_index :
    (s.creation nameSpace = t.creation nameSpace ↔
      s.name = t.name ∧ s.storage = t.storage ∧ s.keyPrefix = t.keyPrefix ∧
        List.Forall₂ (Field.Alike s.storage) s.parts t.parts) ∧
    ((∀ f ∈ s.fields, f.IsWhole s.storage) → (∀ f ∈ t.fields, f.IsWhole t.storage) →
      (s.creation nameSpace = t.creation nameSpace ↔
        s.name = t.name ∧ s.storage = t.storage ∧ s.keyPrefix = t.keyPrefix ∧
          List.Forall₂ (Field.Alike s.storage) s.fields t.fields)) := by
  have hparts : s.creation nameSpace = t.creation nameSpace ↔
      s.name = t.name ∧ s.storage = t.storage ∧ s.keyPrefix = t.keyPrefix ∧
        List.Forall₂ (Field.Alike s.storage) s.parts t.parts := by
    rw [creation_eq_iff_segments]
    refine and_congr_right fun _ => and_congr_right fun hstorage => and_congr_right fun _ => ?_
    have ht : ∀ f ∈ t.parts, f.IsWhole s.storage := hstorage ▸ t.isWhole_of_mem_parts
    rw [← segments_eq_iff s.isWhole_of_mem_parts ht, parts, parts, segments_flatMap_parts,
      ← hstorage, segments_flatMap_parts]
  refine ⟨hparts, fun hs ht => ?_⟩
  rwa [parts_eq_fields hs, parts_eq_fields ht] at hparts

/-! ## A field with the arguments of two -/

/-- Texts that are compared by a matcher of the name `NUMERIC`. -/
def withMatcher : Schema where
  name := "i"
  fields := [{ name := "a", type := .text { phonetic := some "NUMERIC" } }]
  checked := by decide +kernel

/-- Texts, and numbers of the name `PHONETIC`. -/
def withNumbers : Schema where
  name := "i"
  fields := [{ name := "a", type := .text {} }, { name := "PHONETIC", type := .numeric }]
  checked := by decide +kernel

/-- The arguments alone do not tell one field from two. -/
theorem creation_withMatcher_eq_withNumbers :
    withMatcher.creation "" = withNumbers.creation "" ∧
      ¬List.Forall₂ (Field.Alike .hash) withMatcher.fields withNumbers.fields := by
  refine ⟨rfl, fun h => ?_⟩
  have hlength : withMatcher.fields.length = withNumbers.fields.length := h.length_eq
  exact absurd hlength (by decide)

end Schema
end HybridSearch
