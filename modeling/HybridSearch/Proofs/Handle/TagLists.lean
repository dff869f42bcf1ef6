import HybridSearch.Proofs.Handle.Vectors

/-!
# Stored tag lists

A list of tags is stored as one text, the tags with the separator of the field between them. Nothing
in a tag is protected, so what comes back is every tag cut at its own separators: the list itself if
and only if no tag has one.

* `Text.split`: a text cut at every place of a character.
* `Text.split_intercalate`: texts that were joined by it.
* `Handle.tag_lists_of_load`: what a load writes for a list of tags.
-/
namespace HybridSearch

/-! ## Joined texts -/

namespace Text

/-- The texts between the places of a character. -/
def split (mark : Char) (text : String) : List String :=
  (text.toList.splitOn mark).map String.ofList

variable {mark : Char}

theorem split_ne_nil (mark : Char) (text : String) : split mark text ≠ [] := by
  rw [split, Ne, List.map_eq_nil_iff]
  exact List.splitOn_ne_nil mark text.toList

theorem split_append (text rest : String) :
    split mark (text ++ String.singleton mark ++ rest) = split mark text ++ split mark rest := by
  rw [split, String.toList_append, String.toList_append, String.toList_singleton, List.append_assoc,
    List.singleton_append, List.splitOn_append_cons_self, List.map_append]
  rfl

theorem split_intercalate {texts : List String} (h : texts ≠ []) :
    split mark ((String.singleton mark).intercalate texts) = texts.flatMap (split mark) := by
  induction texts with
  | nil => exact absurd rfl h
  | cons text texts ih =>
    cases texts with
    | nil => simp
    | cons next texts =>
      rw [String.intercalate_cons_cons, split_append, ih (List.cons_ne_nil _ _)]
      exact (List.flatMap_cons).symm

theorem split_of_notMem {text : String} (h : mark ∉ text.toList) : split mark text = [text] := by
  rw [split, List.splitOn_eq_singleton h, List.map_singleton, String.ofList_toList]

theorem one_lt_length_split {text : String} (h : mark ∈ text.toList) :
    1 < (split mark text).length := by
  obtain ⟨before, after, hsplit⟩ := List.append_of_mem h
  have hbefore := List.length_pos_of_ne_nil (split_ne_nil mark (String.ofList before))
  have hafter := List.length_pos_of_ne_nil (split_ne_nil mark (String.ofList after))
  have htext : text = String.ofList before ++ String.singleton mark ++ String.ofList after := by
    rw [← String.toList_inj, hsplit]
    simp
  rw [htext, split_append, List.length_append]
  omega

theorem length_le_length_flatMap_split (mark : Char) (texts : List String) :
    texts.length ≤ (texts.flatMap (split mark)).length := by
  induction texts with
  | nil => exact Nat.zero_le _
  | cons text texts ih =>
    have hpos := List.length_pos_of_ne_nil (split_ne_nil mark text)
    rw [List.flatMap_cons, List.length_append, List.length_cons]
    omega

/-- Texts that are cut are the same texts only if there was nothing to cut, since a cut makes more
texts of one. -/
theorem flatMap_split_eq_self_iff {texts : List String} :
    texts.flatMap (split mark) = texts ↔ ∀ text ∈ texts, mark ∉ text.toList := by
  induction texts with
  | nil => simp
  | cons text texts ih =>
    rw [List.forall_mem_cons, ← ih, List.flatMap_cons]
    by_cases hmark : mark ∈ text.toList
    · have hone := one_lt_length_split hmark
      have hrest := length_le_length_flatMap_split mark texts
      refine iff_of_false (fun heq => ?_) fun h => h.1 hmark
      have hlength := congrArg List.length heq
      rw [List.length_append, List.length_cons] at hlength
      omega
    · rw [split_of_notMem hmark, List.singleton_append, List.cons_inj_right]
      exact (and_iff_right hmark).symm

end Text

/-! ## Loads -/

/-- The value of a field that has a list of tags. -/
def Json.ofTags (tags : List String) : Json :=
  .array (tags.map .string)

/-- What a document has under the names of tag fields for the lists of a record: one text, which
comes apart into the tags, each of them cut at the separators that it has. -/
def Document.TagsWritten (s : Schema) (r : Record) (d : Document) : Prop :=
  ∃ attributes, d.body = .hash attributes ∧
    ∀ f ∈ s.fields, ∀ options, f.type = .tag options →
      ∀ tags, tags ≠ [] → r.get? f.name = some (.ofTags tags) →
        ∃ text, (∀ bytes, (f.name, bytes) ∈ attributes ↔ Bytes.text? bytes = some text) ∧
          Text.split options.separator text = tags.flatMap (Text.split options.separator) ∧
          (Text.split options.separator text = tags ↔
            ∀ tag ∈ tags, options.separator ∉ tag.toList)

namespace Schema

variable {s : Schema} {r : Record} {keyField : String}

theorem stored_tags_iff {f : Field} (hf : f ∈ s.fields) {options : TagOptions}
    (htype : f.type = .tag options) {tags : List String} {bytes : Bytes} :
    s.Stored f.name (.ofTags tags) bytes ↔
      Bytes.ofText ((String.singleton options.separator).intercalate tags) = bytes := by
  constructor
  · rw [Json.ofTags]
    generalize hitems : tags.map Json.string = items
    intro h
    cases h with
    | vector hg hname hgtype =>
      obtain rfl := s.eq_of_name hg hf hname
      rw [htype] at hgtype
      cases hgtype
    | list _ hseparator =>
      obtain rfl := List.map_injective_iff.mpr (fun _ _ => Json.string.inj) hitems
      cases hseparator with
      | tag hg hname hgtype =>
        obtain rfl := s.eq_of_name hg hf hname
        rw [FieldType.tag.inj (htype.symm.trans hgtype)]
      | other h => exact absurd htype (h f hf rfl options)
  · rintro rfl
    refine .list (fun g hg hname _ hgtype => ?_) (.tag hf rfl htype)
    obtain rfl := s.eq_of_name hg hf hname
    rw [htype] at hgtype
    cases hgtype

theorem tagsWritten_of_document (hstorage : s.storage = .hash) {d : Document}
    (hd : s.document keyField r = .ok d) : d.TagsWritten s r := by
  obtain ⟨attributes, hbody, -, hattributes⟩ := (documentOf_of_document hd).hash hstorage
  refine ⟨attributes, hbody, fun f hf options htype tags htags hvalue => ?_⟩
  refine ⟨(String.singleton options.separator).intercalate tags, fun bytes => ?_,
    Text.split_intercalate htags, ?_⟩
  · rw [hattributes, Bytes.text?_eq_some_iff, eq_comm, ← stored_tags_iff hf htype]
    constructor
    · rintro ⟨value, hentry, hbytes⟩
      have hsame := (Record.get?_eq_some_iff.mpr hentry).symm.trans hvalue
      exact Option.some.inj hsame ▸ hbytes
    · exact fun hbytes => ⟨_, Record.get?_eq_some_iff.mp hvalue, hbytes⟩
  · rw [Text.split_intercalate htags]
    exact Text.flatMap_split_eq_self_iff

end Schema

namespace Handle

/-- A load that is accepted writes one document for each record. The text that it writes for a list
of tags comes apart at the separator into the tags, each cut at the separators that it has itself;
so it comes apart into the list exactly if no tag has one. -/
theorem tag_lists_of_load {h : Handle} (hstorage : h.schema.storage = .hash)
    {records : List Record} {keyField : String} {w w' : World} {keys : List String}
    {calls : List EngineCall}
    (hload : (h.load records keyField).trace w [] = ((.ok keys, w'), calls)) :
    ∃ documents, calls = [.load documents] ∧
      List.Forall₂ (Document.TagsWritten h.schema) records documents := by
  obtain ⟨documents, hcalls, hdocuments⟩ := documents_of_trace_load hload
  refine ⟨documents, hcalls, ?_⟩
  exact (Schema.documentsFrom_eq_ok_iff.mp hdocuments).imp fun r d =>
    Schema.tagsWritten_of_document hstorage

/-- A field for tags with commas between them. -/
def label : Field :=
  { name := "t", type := .tag {} }

def labels : Handle :=
  ⟨{ name := "labels", fields := [label], checked := rfl }, {}⟩

def labelled (tags : List String) : Record :=
  .ofEntries [("id", .string "1"), ("t", .ofTags tags)]

theorem tags_of_labelled_kept :
    ((labels.load [labelled ["a", "b"]] "id").trace ⟨{}, {}⟩ []).2 =
        [.load [⟨"rvl:1", .hash [("id", Bytes.ofText "1"), ("t", Bytes.ofText "a,b")]⟩]] ∧
      ∃ text, Bytes.text? (Bytes.ofText "a,b") = some text ∧ Text.split ',' text = ["a", "b"] := by
  obtain ⟨documents, hcalls, hwritten⟩ := tag_lists_of_load (h := labels) rfl
    (show (labels.load [labelled ["a", "b"]] "id").trace ⟨{}, {}⟩ [] = _ from rfl)
  obtain ⟨⟩ := hcalls
  obtain ⟨⟨attributes, hbody, htags⟩, -⟩ := List.forall₂_cons.mp hwritten
  obtain rfl := Body.hash.inj hbody
  obtain ⟨text, hstored, -, hkept⟩ := htags label (by decide) _ rfl ["a", "b"] nofun rfl
  have htext := (hstored (Bytes.ofText "a,b")).mp (by decide +kernel)
  exact ⟨rfl, text, htext, hkept.mpr (by decide +kernel)⟩

/-- A tag with a comma is stored as it is where commas separate tags, and comes apart as two. -/
theorem comma_in_tag_cut :
    labels.schema.storage = .hash ∧ label ∈ labels.schema.fields ∧
      label.type = .tag { separator := ',' } ∧
      (labelled ["a,b"]).get? label.name = some (.ofTags ["a,b"]) ∧
      ((labels.load [labelled ["a,b"]] "id").trace ⟨{}, {}⟩ []).1.1 = .ok ["rvl:1"] ∧
      ((labels.load [labelled ["a,b"]] "id").trace ⟨{}, {}⟩ []).2 =
        [.load [⟨"rvl:1", .hash [("id", Bytes.ofText "1"), ("t", Bytes.ofText "a,b")]⟩]] ∧
      Text.split ',' "a,b" = ["a", "b"] ∧ ["a", "b"] ≠ ["a,b"] :=
  ⟨rfl, by decide, rfl, rfl, rfl, rfl, by decide +kernel, by decide⟩

end Handle
end HybridSearch
