import HybridSearch.Proofs.Document.Storing
import Mathlib.Order.Bounds.Basic

/-!
# Valid records

Which records have a document, said of their values alone: the key field has to name the document,
and every value that goes into a hash has to have a stored form. A batch has documents if each of
its records has, and else its first invalid record is at fault.

* `Record.Invalid`: what is wrong with a record.
* `Schema.DocumentOf`: what the document of a record holds.
* `Schema.exists_document_iff`: a record has a document unless it is invalid.
* `Schema.documentsFrom_eq_error`, `Schema.documentsFrom_eq_ok`: batches.
-/
namespace HybridSearch

/-! ## Documents -/

/-- A record that cannot be written for a schema: its key field is missing or does not name a
document, or, in a hash, a value has no stored form. -/
inductive Record.Invalid (s : Schema) (keyField : String) (r : Record) : Prop
  | missingKey (h : r.get? keyField = none) : Invalid s keyField r
  | badKey {value : Json} (h : r.get? keyField = some value) (hvalue : ∀ id, ¬value.Names id) :
    Invalid s keyField r
  | unstorable {name : String} {value : Json} (hstorage : s.storage = .hash)
    (hentry : (name, value) ∈ r.entries) (hvalue : s.Unstorable name value) : Invalid s keyField r

namespace Schema

variable {s : Schema} {r : Record} {keyField : String}

/-- What the document of a record holds: it stands under the key of the text that names it, a JSON
document is the whole record, and a hash has the stored form of each value that has one, among them
the value that names it. -/
structure DocumentOf (s : Schema) (keyField : String) (r : Record) (d : Document) : Prop where
  key : ∃ value id, r.get? keyField = some value ∧ value.Names id ∧ d.key = s.key id
  json : s.storage = .json → d.body = .json r.toJson
  hash : s.storage = .hash → ∃ attributes, d.body = .hash attributes ∧
    (∃ bytes, (keyField, bytes) ∈ attributes) ∧
    ∀ name bytes, (name, bytes) ∈ attributes ↔
      ∃ value, (name, value) ∈ r.entries ∧ s.Stored name value bytes

theorem document_eq_ok_iff {d : Document} :
    s.document keyField r = .ok d ↔
      ∃ id, r.id keyField = .ok id ∧ s.body r = .ok d.body ∧ d.key = s.key id := by
  rw [document, bind_eq_ok_iff]
  refine exists_congr fun id => and_congr_right fun _ => ?_
  rw [bind_eq_ok_iff]
  constructor
  · rintro ⟨body, hbody, h⟩
    obtain rfl := Except.ok.inj h
    exact ⟨hbody, rfl⟩
  · rintro ⟨hbody, hkey⟩
    exact ⟨d.body, hbody, hkey ▸ rfl⟩

/-- The document of a record that can be named, in a hash. -/
theorem document_of_id {id : String} (hstorage : s.storage = .hash)
    (hid : r.id keyField = .ok id) :
    s.document keyField r =
      (s.entryAttributes r.entries).map fun attributes => ⟨s.key id, .hash attributes⟩ := by
  rw [document, hid, body, hstorage, ← (attributes_eq_of_id hid).1]
  cases s.attributes r <;> rfl

theorem documentOf_of_document {d : Document} (h : s.document keyField r = .ok d) :
    s.DocumentOf keyField r d := by
  obtain ⟨id, hid, h⟩ := bind_eq_ok_iff.mp h
  obtain ⟨body, hbody, h⟩ := bind_eq_ok_iff.mp h
  obtain rfl := Except.ok.inj h
  obtain ⟨value, hvalue, hnames⟩ := Record.id_eq_ok_iff.mp hid
  refine ⟨⟨value, id, hvalue, hnames, rfl⟩, fun hjson => ?_, fun hhash => ?_⟩
  · exact Except.ok.inj (hbody.symm.trans (body_of_json hjson))
  · obtain ⟨attributes, hattributes, rfl⟩ := (body_eq_ok_iff_of_hash hhash).mp hbody
    obtain ⟨hentries, hkey⟩ := attributes_eq_of_id (s := s) hid
    refine ⟨attributes, rfl, ⟨_, hkey attributes hattributes⟩, ?_⟩
    intro name bytes
    exact mem_entryAttributes_iff (hentries ▸ hattributes)

theorem exists_body_iff (hid : ∃ id, r.id keyField = .ok id) :
    (∃ body, s.body r = .ok body) ↔
      (s.storage = .hash → ∀ entry ∈ r.entries, ¬s.Unstorable entry.1 entry.2) := by
  obtain ⟨id, hid⟩ := hid
  cases hstorage : s.storage with
  | json => exact iff_of_true ⟨_, body_of_json hstorage⟩ nofun
  | hash =>
    rw [← exists_entryAttributes_iff, ← (attributes_eq_of_id hid).1]
    simp [body_eq_ok_iff_of_hash hstorage]

/-- A record has a document unless it is invalid. -/
theorem exists_document_iff :
    (∃ d, s.document keyField r = .ok d) ↔ ¬r.Invalid s keyField := by
  constructor
  · rintro ⟨d, hd⟩ hinvalid
    obtain ⟨id, hid, hd⟩ := bind_eq_ok_iff.mp hd
    obtain ⟨body, hbody, -⟩ := bind_eq_ok_iff.mp hd
    obtain ⟨value, hvalue, hnames⟩ := Record.id_eq_ok_iff.mp hid
    cases hinvalid with
    | missingKey h => rw [h] at hvalue; cases hvalue
    | badKey h hbad =>
      obtain rfl := Option.some.inj (h.symm.trans hvalue)
      exact hbad id hnames
    | unstorable hstorage hentry hbad =>
      exact (exists_body_iff ⟨id, hid⟩).mp ⟨body, hbody⟩ hstorage _ hentry hbad
  · intro hvalid
    have hid : ∃ id, r.id keyField = .ok id := by
      cases hvalue : r.get? keyField with
      | none => exact absurd (.missingKey hvalue) hvalid
      | some value =>
        by_contra hnone
        refine hvalid (.badKey hvalue fun id hnames => hnone ⟨id, ?_⟩)
        exact Record.id_eq_ok_iff.mpr ⟨value, hvalue, hnames⟩
    obtain ⟨body, hbody⟩ := (exists_body_iff (s := s) hid).mpr fun hstorage entry hentry hbad =>
      hvalid (.unstorable hstorage hentry hbad)
    obtain ⟨id, hid⟩ := hid
    exact ⟨⟨s.key id, body⟩, bind_eq_ok_iff.mpr ⟨id, hid, bind_eq_ok_iff.mpr ⟨body, hbody, rfl⟩⟩⟩

/-- A record is never refused for want of attributes. -/
theorem document_ne_error_empty : s.document keyField r ≠ .error .empty := by
  intro h
  rcases bind_eq_error_iff.mp h with h | ⟨id, hid, h⟩
  · exact Record.id_ne_error_empty h
  · rcases bind_eq_error_iff.mp h with h | ⟨body, -, h⟩
    · rw [Schema.body, (attributes_eq_of_id hid).1] at h
      cases hstorage : s.storage with
      | json => rw [hstorage] at h; cases h
      | hash =>
        rw [hstorage] at h
        cases hentries : s.entryAttributes r.entries with
        | error fault =>
          rw [hentries] at h
          obtain rfl := Except.error.inj h
          exact entryAttributes_ne_error_empty hentries
        | ok attributes => rw [hentries] at h; cases h
    · cases h

/-! ## Batches -/

theorem documentsFrom_eq_ok_iff {position : Nat} {records : List Record}
    {documents : List Document} :
    s.documentsFrom keyField position records = .ok documents ↔
      List.Forall₂ (fun r d => s.document keyField r = .ok d) records documents := by
  induction records generalizing position documents with
  | nil => simp [documentsFrom, eq_comm]
  | cons r rest ih =>
    rw [documentsFrom, List.forall₂_cons_left_iff]
    simp only [bind_eq_ok_iff, ih]
    cases s.document keyField r with
    | error fault => simp [Except.mapError]
    | ok d =>
      constructor
      · rintro ⟨d, ⟨⟩, later, hlater, ⟨⟩⟩
        exact ⟨_, later, rfl, hlater, rfl⟩
      · rintro ⟨_, later, ⟨⟩, hlater, rfl⟩
        exact ⟨_, rfl, later, hlater, rfl⟩

/-- The positions of the invalid records of a batch. -/
def invalidPositions (s : Schema) (keyField : String) (records : List Record) : Set Nat :=
  {position | ∃ r, records[position]? = some r ∧ r.Invalid s keyField}

theorem invalidPositions_cons_of_valid {records : List Record} (h : ¬r.Invalid s keyField)
    (position : Nat) :
    position ∈ s.invalidPositions keyField (r :: records) ↔
      ∃ later ∈ s.invalidPositions keyField records, position = later + 1 := by
  cases position with
  | zero =>
    constructor
    · rintro ⟨r', hr', hinvalid⟩
      obtain rfl := Option.some.inj hr'
      exact absurd hinvalid h
    · rintro ⟨later, -, hlater⟩
      cases hlater
  | succ position =>
    constructor
    · intro hposition
      exact ⟨position, hposition, rfl⟩
    · rintro ⟨later, hlater, hposition⟩
      obtain rfl := Nat.succ.inj hposition
      exact hlater

/-- A batch with an invalid record has no documents, and the fault is that of the first invalid
record. -/
theorem documentsFrom_eq_error {records : List Record} {position : Nat}
    (h : IsLeast (s.invalidPositions keyField records) position) (start : Nat) :
    ∃ r fault, records[position]? = some r ∧ s.document keyField r = .error fault ∧
      s.documentsFrom keyField start records = .error (start + position, fault) := by
  induction records generalizing position start with
  | nil =>
    obtain ⟨r, hr, -⟩ := h.1
    cases hr
  | cons first rest ih =>
    cases hfirst : s.document keyField first with
    | error fault =>
      have hinvalid : first.Invalid s keyField := by
        by_contra hvalid
        obtain ⟨d, hd⟩ := exists_document_iff.mpr hvalid
        rw [hfirst] at hd
        cases hd
      obtain rfl : position = 0 := Nat.le_zero.mp (h.2 ⟨first, rfl, hinvalid⟩)
      exact ⟨first, fault, rfl, hfirst, by rw [documentsFrom, hfirst]; rfl⟩
    | ok d =>
      have hvalid : ¬first.Invalid s keyField := exists_document_iff.mp ⟨d, hfirst⟩
      obtain ⟨later, hlater, rfl⟩ := (invalidPositions_cons_of_valid hvalid position).mp h.1
      have hleast : IsLeast (s.invalidPositions keyField rest) later := by
        refine ⟨hlater, fun other hother => ?_⟩
        have hnext : other + 1 ∈ s.invalidPositions keyField (first :: rest) :=
          (invalidPositions_cons_of_valid hvalid (other + 1)).mpr ⟨other, hother, rfl⟩
        have hle := h.2 hnext
        omega
      obtain ⟨r, fault, hr, hfault, herror⟩ := ih hleast (start + 1)
      refine ⟨r, fault, hr, hfault, ?_⟩
      rw [documentsFrom, hfirst, show start + (later + 1) = start + 1 + later by omega]
      simp only [Except.mapError, herror]
      rfl

/-- A batch without invalid records has documents, one for each record in order. -/
theorem documentsFrom_eq_ok {records : List Record}
    (h : s.invalidPositions keyField records = ∅) (start : Nat) :
    ∃ documents, s.documentsFrom keyField start records = .ok documents ∧
      List.Forall₂ (s.DocumentOf keyField) records documents := by
  have hvalid : ∀ r ∈ records, ∃ d, s.document keyField r = .ok d := by
    intro r hr
    obtain ⟨position, hposition⟩ := List.mem_iff_getElem?.mp hr
    refine exists_document_iff.mpr fun hinvalid => ?_
    exact Set.eq_empty_iff_forall_notMem.mp h position ⟨r, hposition, hinvalid⟩
  obtain ⟨documents, hdocuments⟩ : ∃ documents,
      List.Forall₂ (fun r d => s.document keyField r = .ok d) records documents := by
    clear h
    induction records with
    | nil => exact ⟨[], .nil⟩
    | cons r rest ih =>
      obtain ⟨⟨d, hd⟩, hrest⟩ := List.forall_mem_cons.mp hvalid
      obtain ⟨documents, hdocuments⟩ := ih hrest
      exact ⟨d :: documents, .cons hd hdocuments⟩
  exact ⟨documents, documentsFrom_eq_ok_iff.mpr hdocuments,
    hdocuments.imp fun _ _ => documentOf_of_document⟩

end Schema
end HybridSearch
