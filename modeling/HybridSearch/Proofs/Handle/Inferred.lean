import HybridSearch.Proofs.Document.Merging
import HybridSearch.Proofs.Handle.Session
import HybridSearch.Proofs.Schema.Inference

/-!
# Records under the schema that they show

A record shows the fields of a schema, and that schema takes the record, unless one of its values is
compound. A value that shows a kind of field is stored in a hash without vectors; of the values that
show none, the compound ones are refused, null is left out and the empty text is stored as it is.

* `Json.Compound`: the values that have no place in such a hash.
* `Handle.perform_load_singleton`: a single record that is loaded.
* `Record.load_under_own_schema`: a record that is loaded under the schema that it shows.
-/
namespace HybridSearch

/-! ## Values -/

/-- A value that is neither a scalar nor a list of texts. -/
inductive Json.Compound : Json → Prop
  | object {entries : List (String × Json)} : Compound (.object entries)
  | list {items : List Json} {item : Json} (hitem : item ∈ items) (htext : ∀ t, item ≠ .string t) :
    Compound (.array items)

theorem Json.scalar_or_texts_of_inferredKind? {value : Json} (h : value.inferredKind? ≠ none) :
    ¬value.Compound ∧ value ≠ .null := by
  refine ⟨fun hcompound => h ?_, fun hnull => h (hnull ▸ rfl)⟩
  cases hcompound with
  | object => rfl
  | @list items item hitem htext =>
    refine if_neg fun hall => ?_
    obtain ⟨t, ht⟩ := Option.isSome_iff_exists.mp (List.all_eq_true.mp hall item hitem)
    cases item with
    | string t' => exact htext t' rfl
    | _ => cases ht

namespace Schema

variable {s : Schema}

/-- Without vector fields the name does not matter. -/
theorem unstorable_iff_compound (hvectors : ∀ f ∈ s.fields, f.kind ≠ .vector) {name : String}
    {value : Json} : s.Unstorable name value ↔ value.Compound := by
  have hother : ∀ f ∈ s.fields, f.name = name → ∀ options, f.type ≠ .vector options :=
    fun f hf _ options htype => hvectors f hf (by rw [Field.kind, htype]; rfl)
  constructor
  · intro h
    cases h with
    | object => exact .object
    | vectorItems hf hname htype => exact absurd htype (hother _ hf hname _)
    | vectorLength hf hname htype => exact absurd htype (hother _ hf hname _)
    | listItems _ hitem htext => exact .list hitem htext
  · intro h
    cases h with
    | object => exact .object
    | list hitem htext => exact .listItems hother hitem htext

theorem exists_entryAttributes_iff_of_plain (hvectors : ∀ f ∈ s.fields, f.kind ≠ .vector)
    (entries : List (String × Json)) :
    (∃ attributes, s.entryAttributes entries = .ok attributes) ↔
      ∀ entry ∈ entries, ¬entry.2.Compound := by
  simp only [exists_entryAttributes_iff, unstorable_iff_compound hvectors]

end Schema

/-! ## Loads -/

namespace Handle

variable (h : Handle) {r : Record} {keyField id : String}

/-- A single record that can be named is refused for the first of its values without a stored form,
or its attributes are written under its key. -/
theorem perform_load_singleton (hstorage : h.schema.storage = .hash)
    (hid : r.id keyField = .ok id) (w : World) :
    (h.load [r] keyField).perform w =
      match h.schema.entryAttributes r.entries with
      | .error fault => (.error (.invalidRecord 0 fault), w)
      | .ok attributes =>
        let written := w.store.load [⟨h.key id, .hash attributes⟩]
        (written.1.map fun _ => [h.key id],
          World.note ⟨written.2, w.metrics⟩ (.operated .load written.1.isOk)) := by
  rw [load, perform_loadWith, List.map_id, Schema.documents, Schema.documentsFrom,
    Schema.document_of_id hstorage hid]
  cases h.schema.entryAttributes r.entries <;> rfl

end Handle

/-- What stands under a key, if anything, is a hash. -/
def Store.TakesHash (s : Store) (key : String) : Prop :=
  ∀ body ∈ lookUp? key s.documents, body.storage = .hash

/-- What becomes of a record with an id that is loaded into a hash without vectors. It is refused, and
nothing happens, exactly if it has a compound value. Otherwise it is accepted wherever no JSON
document stands under its key; and if each of its values shows a kind of field, one attribute is
written for each of its keys. -/
structure Record.PlainLoad (r : Record) (keyField id : String) (h : Handle) (w : World) : Prop where
  refused_iff :
    (∃ fault, (h.load [r] keyField).perform w = (.error (.invalidRecord 0 fault), w)) ↔
      ∃ entry ∈ r.entries, entry.2.Compound
  accepted_iff : w.store.TakesHash (h.key id) →
    ((∃ keys, ((h.load [r] keyField).perform w).1 = .ok keys) ↔
      ∀ entry ∈ r.entries, ¬entry.2.Compound)
  written : w.store.TakesHash (h.key id) → ∀ d, r.inferFields true = .ok d →
    ∃ attributes body,
      h.schema.DocumentOf keyField r ⟨h.key id, .hash attributes⟩ ∧
      attributes.map Prod.fst = r.entries.map Prod.fst ∧
      Store.mergeBody? (lookUp? (h.key id) w.store.documents) (.hash attributes) = some body ∧
      ((h.load [r] keyField).perform w).1 = .ok [h.key id] ∧
      ((h.load [r] keyField).perform w).2.store =
        { w.store with documents := putAt (h.key id) body w.store.documents }

namespace Handle

variable {h : Handle} {r : Record} {keyField id : String} {w : World}

/-- Attributes are written without fail where no JSON document stands. -/
theorem perform_load_of_attributes (hstorage : h.schema.storage = .hash)
    (hid : r.id keyField = .ok id) (hstored : w.store.TakesHash (h.key id))
    {attributes : Attributes} (hattributes : h.schema.entryAttributes r.entries = .ok attributes) :
    ∃ body,
      Store.mergeBody? (lookUp? (h.key id) w.store.documents) (.hash attributes) = some body ∧
      ((h.load [r] keyField).perform w).1 = .ok [h.key id] ∧
      ((h.load [r] keyField).perform w).2.store =
        { w.store with documents := putAt (h.key id) body w.store.documents } := by
  obtain ⟨body, hmerged, -⟩ : ∃ body,
      Store.mergeBody? (lookUp? (h.key id) w.store.documents) (.hash attributes) = some body ∧
        body.storage = .hash := Store.exists_mergeBody? hstored rfl
  have hwritten : w.store.load [⟨h.key id, .hash attributes⟩] =
      (.ok (), { w.store with documents := putAt (h.key id) body w.store.documents }) :=
    Store.load_singleton hmerged
  rw [h.perform_load_singleton hstorage hid, hattributes]
  simp only [hwritten]
  exact ⟨body, hmerged, rfl, rfl⟩

theorem perform_load_refused_iff (hstorage : h.schema.storage = .hash)
    (hid : r.id keyField = .ok id) :
    (∃ fault, (h.load [r] keyField).perform w = (.error (.invalidRecord 0 fault), w)) ↔
      ¬∃ attributes, h.schema.entryAttributes r.entries = .ok attributes := by
  rw [h.perform_load_singleton hstorage hid]
  cases h.schema.entryAttributes r.entries with
  | error fault => exact iff_of_true ⟨fault, rfl⟩ nofun
  | ok attributes =>
    refine iff_of_false ?_ (not_not_intro ⟨attributes, rfl⟩)
    rintro ⟨fault, hfault⟩
    -- A store refuses attributes for a JSON document under their key, never for the record.
    have hanswer := congrArg Prod.fst hfault
    simp only [Store.load_cons] at hanswer
    cases hmerged : Store.mergeBody? (lookUp? (h.key id) w.store.documents) (.hash attributes) <;>
      rw [hmerged] at hanswer <;> cases hanswer

theorem perform_load_accepted_iff (hstorage : h.schema.storage = .hash)
    (hid : r.id keyField = .ok id) (hstored : w.store.TakesHash (h.key id)) :
    (∃ keys, ((h.load [r] keyField).perform w).1 = .ok keys) ↔
      ∃ attributes, h.schema.entryAttributes r.entries = .ok attributes := by
  constructor
  · rintro ⟨keys, hkeys⟩
    rw [h.perform_load_singleton hstorage hid] at hkeys
    cases hattributes : h.schema.entryAttributes r.entries with
    | error fault => rw [hattributes] at hkeys; cases hkeys
    | ok attributes => exact ⟨attributes, rfl⟩
  · rintro ⟨attributes, hattributes⟩
    obtain ⟨-, -, hok, -⟩ := perform_load_of_attributes hstorage hid hstored hattributes
    exact ⟨_, hok⟩

theorem plainLoad (hstorage : h.schema.storage = .hash)
    (hvectors : ∀ f ∈ h.schema.fields, f.kind ≠ .vector) (hid : r.id keyField = .ok id) :
    r.PlainLoad keyField id h w := by
  have hplain := Schema.exists_entryAttributes_iff_of_plain hvectors r.entries
  refine ⟨?_, fun hstored => (perform_load_accepted_iff hstorage hid hstored).trans hplain, ?_⟩
  · rw [perform_load_refused_iff hstorage hid, hplain]
    simp
  · intro hstored d hd
    have hvalues : ∀ entry ∈ r.entries, ¬entry.2.Compound ∧ entry.2 ≠ .null := fun entry hentry =>
      Json.scalar_or_texts_of_inferredKind? (Record.inferredKind?_of_strict hd entry hentry)
    obtain ⟨attributes, hattributes⟩ := hplain.mpr fun entry hentry => (hvalues entry hentry).1
    obtain ⟨body, hmerged, hok, hstore⟩ :=
      perform_load_of_attributes hstorage hid hstored hattributes
    have hdocument : h.schema.document keyField r = .ok ⟨h.key id, .hash attributes⟩ := by
      rw [Schema.document_of_id hstorage hid, hattributes]
      rfl
    exact ⟨attributes, body, Schema.documentOf_of_document hdocument,
      Schema.names_entryAttributes hattributes fun entry hentry => (hvalues entry hentry).2,
      hmerged, hok, hstore⟩

end Handle

namespace Record

variable {r : Record} {keyField id : String}

/-- The fields that a record shows make a schema whenever the keys of the record are words, and every
value that shows a kind of field has a place in its documents. -/
theorem load_under_own_schema {value : Json}
    (hwords : ∀ entry ∈ r.entries,
      entry.1 ≠ "" ∧ ∀ c ∈ entry.1.toList, c.isAlphanum = true ∨ c = '_')
    (hkey : r.get? keyField = some value) (hid : value.Names id)
    (name : String) (hname : ∃ c ∈ name.toList, ¬Text.WhiteSpace c)
    (keySeparator : Option String) :
    ∃ (d : FieldDeclarations) (s : Schema), r.inferFields false = .ok d ∧
      Declaration.schema ⟨{ name, keySeparator }, d⟩ = .ok s ∧
      s.storage = .hash ∧ s.keyPrefix = "rvl" ∧
      ∀ (config : Config) (w : World), r.PlainLoad keyField id ⟨s, config⟩ w := by
  have hwords : ∀ key ∈ r.entries.map Prod.fst, Text.isWord key = true :=
    List.forall_mem_map.mpr fun entry hentry => Text.isWord_iff.mpr (hwords entry hentry)
  have hid : r.id keyField = .ok id := Record.id_eq_ok_iff.mpr ⟨value, hkey, hid⟩
  obtain ⟨s, hs, hdraft⟩ := exists_schema hwords hname keySeparator
  have hstorage : s.storage = .hash := congrArg Draft.storage hdraft
  have hvectors : ∀ f ∈ s.fields, f.kind ≠ .vector := by
    intro f hf
    obtain ⟨key, type, rfl, -, htype⟩ := eq_plain_of_mem (congrArg Draft.fields hdraft ▸ hf)
    rcases htype with rfl | rfl | rfl <;> nofun
  exact ⟨_, s, inferFields_lenient r, hs, hstorage, congrArg Draft.keyPrefix hdraft,
    fun config w => Handle.plainLoad hstorage hvectors hid⟩

/-- A member with values of every kind that can be shown. -/
def member : Record :=
  .ofEntries [("active", .bool true), ("age", .number (.integer 42)), ("bio", .string "likes rust"),
    ("labels", .array []), ("no", .string "7"), ("tags", .array [.string "a", .string "b"])]

/-- The member is written with its six attributes where nothing is stored. -/
theorem member_under_own_schema :
    member.get? "no" = some (.string "7") ∧
      (∃ d, member.inferFields true = .ok d) ∧
      ∃ (d : FieldDeclarations) (s : Schema) (attributes : Attributes),
        member.inferFields false = .ok d ∧
        Declaration.schema ⟨{ name := "members" }, d⟩ = .ok s ∧
        attributes.map Prod.fst = ["active", "age", "bio", "labels", "no", "tags"] ∧
        ((Handle.load ⟨s, {}⟩ [member] "no").perform ⟨{}, {}⟩).2.store.documents =
          [(s.key "7", .hash attributes)] := by
  have hkey : member.get? "no" = some (.string "7") := rfl
  have hstrict : ∃ d, member.inferFields true = .ok d := ⟨_, rfl⟩
  have hwords : ∀ entry ∈ member.entries, Text.isWord entry.1 = true := by decide
  obtain ⟨d, s, hd, hs, -, -, hload⟩ :=
    load_under_own_schema (fun entry hentry => Text.isWord_iff.mp (hwords entry hentry)) hkey
      (.text (by decide)) "members" ⟨'m', by decide, by decide⟩ (some ":")
  obtain ⟨d', hd'⟩ := hstrict
  obtain ⟨attributes, body, -, hnames, hmerged, -, hstore⟩ :=
    (hload {} ⟨{}, {}⟩).written nofun d' hd'
  obtain rfl := Option.some.inj hmerged
  exact ⟨hkey, ⟨d', hd'⟩, d, s, attributes, hd, hs, hnames, by rw [hstore]; rfl⟩

end Record
end HybridSearch
