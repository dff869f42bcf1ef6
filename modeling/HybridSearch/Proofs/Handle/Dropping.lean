import HybridSearch.Proofs.Handle.Session
import HybridSearch.Proofs.Store.Contents

/-!
# Dropping an index with its documents

The documents that go with an index are those whose keys begin with its key prefix. A store finds
the prefix again by looking for keywords among the creation arguments, and the name of the index
stands in front of all keywords. So it finds the right one unless a name or a prefix is a keyword
itself.

* `Handle.coveredPrefixes_creation`: the prefixes that a store finds.
* `Handle.HasPlainNames`: what keeps names and prefixes apart from keywords.
* `drops_its_documents_iff`: exactly then an index is dropped with its own documents.
-/
namespace HybridSearch

open Text

/-! ## Finding prefixes -/

namespace Store

theorem covers_singleton (keyPrefix key : String) :
    covers [keyPrefix] key = startsWith key keyPrefix := by
  simp [covers]

end Store

namespace Handle

variable (h : Handle)

def prefixArguments : List String :=
  if h.schema.keyPrefix.isEmpty then [] else ["PREFIX", "1", h.schema.keyPrefix]

def fieldArguments : List String :=
  h.schema.fields.flatMap fun f => f.arguments h.schema.storage

theorem creation_eq :
    h.creation = [h.name, "ON", h.schema.storage.keyword] ++ h.prefixArguments ++
      "SCHEMA" :: h.fieldArguments := by
  simp [creation, Schema.creation, prefixArguments, fieldArguments, name, Config.indexName]

theorem keyword_ne (storage : Storage) :
    storage.keyword ≠ "SCHEMA" ∧ storage.keyword ≠ "PREFIX" := by
  cases storage <;> decide

/-- What a store finds in the creation arguments: every key if the name is taken for the end of the
arguments in front of the fields, none if the name is taken for the keyword of prefixes or the prefix
for that end, and the prefix otherwise. -/
theorem coveredPrefixes_creation :
    Store.coveredPrefixes h.creation =
      if h.name = "SCHEMA" then [""]
      else if h.name = "PREFIX" ∨ h.schema.keyPrefix = "SCHEMA" then []
      else [h.schema.keyPrefix] := by
  obtain ⟨hend, hkeyword⟩ := keyword_ne h.schema.storage
  have hnumber : Store.natural? "1" = some 1 := by decide
  have hword : Store.natural? "ON" = none := by decide
  rw [creation_eq, Store.coveredPrefixes]
  by_cases hschema : h.name = "SCHEMA"
  · simp [hschema]
  by_cases hprefix : h.name = "PREFIX"
  · by_cases hempty : h.schema.keyPrefix = ""
    · simp [prefixArguments, hprefix, hempty, hend, hword]
    · by_cases hkey : h.schema.keyPrefix = "SCHEMA"
      · simp [prefixArguments, hprefix, hkey, hend, hword]
      · simp [prefixArguments, hprefix, hempty, hkey, hend, hword]
  · by_cases hempty : h.schema.keyPrefix = ""
    · simp [prefixArguments, hschema, hprefix, hempty, hend, hkeyword]
    · by_cases hkey : h.schema.keyPrefix = "SCHEMA"
      · simp [prefixArguments, hschema, hprefix, hkey, hend, hkeyword, hnumber]
      · simp [prefixArguments, hschema, hprefix, hempty, hkey, hend, hkeyword, hnumber]

example : Store.coveredPrefixes
    (creation ⟨{ name := "SCHEMA", keyPrefix := "user", checked := rfl }, {}⟩) = [""] := by
  decide

/-- The name of the index is no keyword of its creation arguments, and neither is the key prefix
the word that ends them. As the end of the arguments the name does no harm if every key is meant. -/
def HasPlainNames : Prop :=
  h.name ≠ "PREFIX" ∧ (h.name = "SCHEMA" → h.schema.keyPrefix = "") ∧
    h.schema.keyPrefix ≠ "SCHEMA"

theorem coveredPrefixes_creation_iff :
    Store.coveredPrefixes h.creation = [h.schema.keyPrefix] ↔ h.HasPlainNames := by
  rw [coveredPrefixes_creation, HasPlainNames]
  by_cases hschema : h.name = "SCHEMA"
  · rw [if_pos hschema, hschema]
    constructor
    · intro hprefix
      have hempty : h.schema.keyPrefix = "" := (List.singleton_inj.mp hprefix).symm
      exact ⟨by decide, fun _ => hempty, by rw [hempty]; decide⟩
    · rintro ⟨-, hempty, -⟩
      rw [hempty rfl]
  · rw [if_neg hschema]
    by_cases hother : h.name = "PREFIX" ∨ h.schema.keyPrefix = "SCHEMA"
    · rw [if_pos hother]
      constructor
      · intro hnil
        cases hnil
      · rintro ⟨hname, -, hkey⟩
        rcases hother with hname' | hkey'
        · exact absurd hname' hname
        · exact absurd hkey' hkey
    · rw [if_neg hother]
      rw [not_or] at hother
      exact ⟨fun _ => ⟨hother.1, fun hname => absurd hname hschema, hother.2⟩, fun _ => rfl⟩

theorem covers_creation_iff :
    (∀ key, Store.covers (Store.coveredPrefixes h.creation) key =
      startsWith key h.schema.keyPrefix) ↔ h.HasPlainNames := by
  constructor
  · intro hcovers
    rw [← coveredPrefixes_creation_iff]
    rw [coveredPrefixes_creation] at hcovers ⊢
    by_cases hschema : h.name = "SCHEMA"
    · rw [if_pos hschema] at hcovers ⊢
      -- Every key is found, the empty one too, and that one begins with nothing else.
      have hstart : startsWith "" h.schema.keyPrefix = true := by
        rw [← hcovers ""]
        rfl
      have hempty : h.schema.keyPrefix = "" := by
        have hnil := List.prefix_nil.mp (startsWith_iff.mp hstart)
        exact String.toList_eq_nil_iff.mp hnil
      rw [hempty]
    · rw [if_neg hschema] at hcovers ⊢
      by_cases hother : h.name = "PREFIX" ∨ h.schema.keyPrefix = "SCHEMA"
      · rw [if_pos hother] at hcovers
        have hself : startsWith h.schema.keyPrefix h.schema.keyPrefix = true :=
          startsWith_iff.mpr (List.prefix_refl _)
        rw [← hcovers] at hself
        cases hself
      · rw [if_neg hother]
  · intro hplain key
    rw [(coveredPrefixes_creation_iff h).mpr hplain, Store.covers_singleton]

end Handle

/-! ## Dropping -/

namespace Store

/-- An index that has been created in a store without one under its name is dropped again: the
other indexes are as before, and the documents are gone whose keys it covers. -/
theorem dropIndex_created {s : Store} {name : String} (habsent : s.hasIndex name = false)
    (arguments : List String) (stored : List (String × Body)) :
    dropIndex name true
        { s with indexes := s.indexes ++ [(name, arguments)], documents := stored } =
      (.ok (), { s with
        documents := stored.filter fun pair => !covers (coveredPrefixes arguments) pair.1 }) := by
  have habsent : lookUp? name s.indexes = none := by simpa [hasIndex] using habsent
  have hfound := lookUp?_append_of_absent habsent arguments
  have hrest : (s.indexes ++ [(name, arguments)]).filter (fun pair => pair.1 != name) =
      s.indexes := by
    rw [List.filter_append, filter_of_absent habsent]
    simp
  rw [dropIndex]
  simp only [hfound, hrest, dropCovered]
  rfl

end Store

namespace Handle

variable (h : Handle)

/-- The index of a handle is dropped with its own documents: in every store without an index under
its name, creating it succeeds, and after any loads and fetches deleting it with its documents
succeeds too; then the indexes are those of before, the documents whose keys begin with the key
prefix are gone, and everything else is as the loads have left it. -/
def DropsItsDocuments : Prop :=
  ∀ (w : World) (overwrite dropDocuments : Bool) (accesses : List Access),
    w.store.hasIndex h.name = false →
    let created := (h.create overwrite dropDocuments).perform w
    let used := Access.performAll accesses created.2
    let deleted := (h.delete true).perform used
    created.1 = .ok () ∧ deleted.1 = .ok () ∧
      deleted.2.store =
        { used.store with
          indexes := w.store.indexes
          documents := used.store.documents.filter fun pair =>
            !startsWith pair.1 h.schema.keyPrefix }

theorem perform_delete_of_created {w : World} (habsent : w.store.hasIndex h.name = false)
    (overwrite dropDocuments : Bool) (accesses : List Access) :
    let created := (h.create overwrite dropDocuments).perform w
    let used := Access.performAll accesses created.2
    let deleted := (h.delete true).perform used
    created.1 = .ok () ∧ deleted.1 = .ok () ∧
      deleted.2.store =
        { used.store with
          indexes := w.store.indexes
          documents := used.store.documents.filter fun pair =>
            !Store.covers (Store.coveredPrefixes h.creation) pair.1 } := by
  intro created used deleted
  have hcreate := h.perform_create_of_absent habsent overwrite dropDocuments
  have hcreated : created.2.store =
      { w.store with indexes := w.store.indexes ++ [(h.name, h.creation)] } := by
    simp only [created, hcreate, World.store_note]
  obtain ⟨stored, hused⟩ : ∃ stored, used.store =
      { w.store with
        indexes := w.store.indexes ++ [(h.name, h.creation)], documents := stored } := by
    have hframe := Access.store_performAll accesses created.2
    rwa [hcreated] at hframe
  have hdrop := Store.dropIndex_created habsent h.creation stored
  have hdelete := h.perform_delete true used
  rw [hused, hdrop] at hdelete
  refine ⟨by simp only [created, hcreate], by simp only [deleted, hdelete], ?_⟩
  rw [hused]
  simp only [deleted, hdelete, World.store_note]

/-- Dropping with documents: an index is dropped with its own documents, in every store and
after any loads and fetches, exactly if its names are plain; and exactly then the prefix is found
again among its creation arguments. -/
theorem drops_its_documents_iff :
    (h.DropsItsDocuments ↔ h.HasPlainNames) ∧
      (Store.coveredPrefixes h.creation = [h.schema.keyPrefix] ↔ h.HasPlainNames) := by
  refine ⟨?_, h.coveredPrefixes_creation_iff⟩
  rw [← h.covers_creation_iff]
  constructor
  · -- One document under the key is enough to see whether the key is covered.
    intro hdrops key
    let w : World := ⟨{ documents := [(key, .hash [])] }, {}⟩
    have habsent : w.store.hasIndex h.name = false := rfl
    have hdocuments : ((h.create false false).perform w).2.store.documents =
        [(key, .hash [])] := by
      rw [h.perform_create_of_absent habsent]
      rfl
    have hclaimed := (hdrops w false false [] habsent).2.2
    have hfound := (h.perform_delete_of_created habsent false false []).2.2
    have hfilter := congrArg Store.documents (hfound.symm.trans hclaimed)
    simp only [Access.performAll, List.foldl_nil, hdocuments] at hfilter
    cases hleft : Store.covers (Store.coveredPrefixes h.creation) key with
    | true =>
      cases hright : startsWith key h.schema.keyPrefix with
      | true => rfl
      | false => simp [hleft, hright] at hfilter
    | false =>
      cases hright : startsWith key h.schema.keyPrefix with
      | true => simp [hleft, hright] at hfilter
      | false => rfl
  · intro hcovers w overwrite dropDocuments accesses habsent
    have hdelete := h.perform_delete_of_created habsent overwrite dropDocuments accesses
    simp only [hcovers] at hdelete
    exact hdelete

end Handle
end HybridSearch
