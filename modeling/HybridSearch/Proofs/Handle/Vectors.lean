import HybridSearch.Proofs.Document.Merging
import HybridSearch.Proofs.Handle.Loading
import HybridSearch.Proofs.Query.Encoding

/-!
# The lengths of stored vectors

A query takes a vector only if it is as long as the vectors of the field, and a list is stored under
the name of a vector field only if it comes to that length. Any other value is stored there as under
every name, whatever its length is.

* `Json.Fills`: the values whose stored form is as long as a vector.
* `Schema.length_iff_of_stored`: that no other value is.
* `Query.exists_ofNearest_iff`, `Query.exists_ofWithin_iff`: the vectors that a query takes.
* `Handle.vector_lengths_of_load`: what a load writes.
-/
namespace HybridSearch

/-! ## Stored forms -/

/-- A value whose stored form is as long as a vector, given that it has one: a list, or a text or a
number that happens to have this length. -/
def Json.Fills (options : VectorOptions) : Json → Prop
  | array _ => True
  | string text => text.utf8ByteSize = options.byteLength
  | number n => n.text.utf8ByteSize = options.byteLength
  | _ => False

namespace Schema

variable {s : Schema} {f : Field} {options : VectorOptions}

theorem four_le_byteLength (hf : f ∈ s.fields) (htype : f.type = .vector options) :
    4 ≤ options.byteLength := by
  obtain ⟨hdims, -, hlength⟩ := s.dims_of_mem hf htype
  have hsize : 4 ≤ options.elementType.size := by cases options.elementType <;> decide
  rw [hlength]
  exact Nat.le_trans hsize (Nat.le_mul_of_pos_left _ hdims)

/-- What is stored under the name of a vector field has the length of a vector if it comes from a
list, or by chance. -/
theorem length_iff_of_stored (hf : f ∈ s.fields) (htype : f.type = .vector options)
    {value : Json} {bytes : Bytes} (h : s.Stored f.name value bytes) :
    bytes.length = options.byteLength ↔ value.Fills options := by
  have hmany := four_le_byteLength hf htype
  cases h with
  | text t =>
    rw [Bytes.length_ofText]
    rfl
  | @number n t h =>
    obtain rfl := JsonNumber.numeral_iff.mp h
    rw [Bytes.length_ofText]
    rfl
  | yes =>
    have hone : (Bytes.ofText "1").length = 1 := by decide
    exact iff_of_false (by omega) id
  | no =>
    have hone : (Bytes.ofText "0").length = 1 := by decide
    exact iff_of_false (by omega) id
  | @vector g options' numbers values hg hname hgtype hlength =>
    obtain rfl := s.eq_of_name hg hf hname
    obtain rfl := FieldType.vector.inj (htype.symm.trans hgtype)
    refine iff_of_true ?_ trivial
    rw [ElementType.length_encode, hlength, (s.dims_of_mem hf htype).2.2]
  | list hother => exact absurd htype (hother f hf rfl options)

end Schema

/-! ## Vectors of queries -/

namespace Query

variable {s : Schema} {f : Field} {options : VectorOptions}

theorem exists_ofNearest_iff (hf : f ∈ s.fields) (htype : f.type = .vector options)
    {bytes : Bytes} {k : Nat} :
    (∃ q, ofNearest s f.name (.bytes bytes) k = .ok q) ↔
      k ≠ 0 ∧ bytes.length = options.byteLength := by
  simp only [ofNearest_eq_ok_iff, VectorInput.resolve, QueryVector.ofBytes_eq_ok_iff hf htype]
  simp

theorem exists_ofWithin_iff (hf : f ∈ s.fields) (htype : f.type = .vector options)
    {bytes : Bytes} {threshold : Binary64} :
    (∃ q, ofWithin s f.name (.bytes bytes) threshold = .ok q) ↔
      (threshold.isFinite = true ∧ 0 ≤ threshold.value) ∧ bytes.length = options.byteLength := by
  simp only [ofWithin_eq_ok_iff, VectorInput.resolve, QueryVector.ofBytes_eq_ok_iff hf htype]
  simp

end Query

/-! ## Loads -/

/-- What is written for a record under the name of a vector field: it is as long as the vectors of
the field, and a query would take it, exactly if the value of the record fills the field. -/
structure Record.VectorWritten (r : Record) (s : Schema) (f : Field) (options : VectorOptions)
    (bytes : Bytes) : Prop where
  byteLength_eq : options.byteLength = options.dims * options.elementType.size
  length_iff : bytes.length = options.byteLength ↔
    ∃ value, r.get? f.name = some value ∧ value.Fills options
  nearest_iff : ∀ k, (∃ q, Query.ofNearest s f.name (.bytes bytes) k = .ok q) ↔
    k ≠ 0 ∧ bytes.length = options.byteLength
  within_iff : ∀ threshold, (∃ q, Query.ofWithin s f.name (.bytes bytes) threshold = .ok q) ↔
    (threshold.isFinite = true ∧ 0 ≤ threshold.value) ∧ bytes.length = options.byteLength

/-- The attributes of a document under the names of vector fields are what is written for a
record. -/
def Document.VectorsWritten (s : Schema) (r : Record) (d : Document) : Prop :=
  ∃ attributes, d.body = .hash attributes ∧
    ∀ f ∈ s.fields, ∀ options, f.type = .vector options →
      ∀ bytes, (f.name, bytes) ∈ attributes → r.VectorWritten s f options bytes

/-- A record with a single value. -/
def Record.single (name : String) (value : Json) : Record :=
  ⟨[(name, value)], List.pairwise_singleton _ _⟩

namespace Schema

variable {s : Schema} {r : Record} {keyField : String}

theorem vectorsWritten_of_document (hstorage : s.storage = .hash) {d : Document}
    (hd : s.document keyField r = .ok d) : d.VectorsWritten s r := by
  obtain ⟨attributes, hbody, -, hattributes⟩ := (documentOf_of_document hd).hash hstorage
  refine ⟨attributes, hbody, fun f hf options htype bytes hbytes => ?_⟩
  obtain ⟨value, hentry, hstored⟩ := (hattributes f.name bytes).mp hbytes
  have hvalue : r.get? f.name = some value := Record.get?_eq_some_iff.mpr hentry
  refine ⟨(s.dims_of_mem hf htype).2.2, ?_, fun k => Query.exists_ofNearest_iff hf htype,
    fun threshold => Query.exists_ofWithin_iff hf htype⟩
  rw [length_iff_of_stored hf htype hstored, hvalue]
  simp only [Option.some.injEq, exists_eq_left']

/-- A text alone makes a record that names itself. -/
theorem document_single (hstorage : s.storage = .hash) {name text : String} (htext : text ≠ "") :
    s.document name (.single name (.string text)) =
      .ok ⟨s.key text, .hash [(name, Bytes.ofText text)]⟩ := by
  have hid : (Record.single name (.string text)).id name = .ok text := by
    refine Record.id_eq_ok_iff.mpr ⟨.string text, ?_, .text htext⟩
    exact Record.get?_eq_some_iff.mpr List.mem_cons_self
  rw [document_of_id hstorage hid]
  rfl

end Schema

namespace Handle

theorem documents_of_trace_load {h : Handle} {records : List Record} {keyField : String}
    {w w' : World} {keys : List String} {calls : List EngineCall}
    (hload : (h.load records keyField).trace w [] = ((.ok keys, w'), calls)) :
    ∃ documents, calls = [.load documents] ∧
      h.schema.documents keyField records = .ok documents := by
  rw [load, trace_loadWith, perform_loadWith, List.map_id] at hload
  cases hdocuments : h.schema.documents keyField records with
  | error fault => rw [hdocuments] at hload; cases hload
  | ok documents =>
    rw [hdocuments] at hload
    exact ⟨documents, (Prod.mk.inj hload).2.symm, rfl⟩

/-- A load that is accepted writes one document for each record. What it writes under the name of a
vector field has the length that the field declares and a query requires if it comes from a list,
and else by chance: every handle with such a field accepts a record whose value is too short. -/
theorem vector_lengths_of_load (h : Handle) (hstorage : h.schema.storage = .hash) :
    (∀ (records : List Record) (keyField : String) (w w' : World) (keys : List String)
        (calls : List EngineCall),
      (h.load records keyField).trace w [] = ((.ok keys, w'), calls) →
      ∃ documents, calls = [.load documents] ∧
        List.Forall₂ (Document.VectorsWritten h.schema) records documents) ∧
    ∀ f ∈ h.schema.fields, ∀ options, f.type = .vector options → ∀ metrics : Metrics,
      ∃ (r : Record) (key : String) (bytes : Bytes),
        let outcome := (h.load [r] f.name).trace ⟨{}, metrics⟩ []
        outcome.1.1 = .ok [key] ∧ outcome.2 = [.load [⟨key, .hash [(f.name, bytes)]⟩]] ∧
          bytes.length < options.byteLength := by
  constructor
  · intro records keyField w w' keys calls hload
    obtain ⟨documents, hcalls, hdocuments⟩ := documents_of_trace_load hload
    refine ⟨documents, hcalls, ?_⟩
    exact (Schema.documentsFrom_eq_ok_iff.mp hdocuments).imp fun r d =>
      Schema.vectorsWritten_of_document hstorage
  · intro f hf options htype metrics
    have hdocuments : h.schema.documents f.name [.single f.name (.string "1")] =
        .ok [⟨h.key "1", .hash [(f.name, Bytes.ofText "1")]⟩] := by
      refine Schema.documentsFrom_eq_ok_iff.mpr (.cons ?_ .nil)
      exact Schema.document_single hstorage (by decide)
    have hshort : (Bytes.ofText "1").length < options.byteLength :=
      Nat.lt_of_lt_of_le (by decide) (Schema.four_le_byteLength hf htype)
    refine ⟨.single f.name (.string "1"), h.key "1", Bytes.ofText "1", ?_⟩
    rw [load, trace_loadWith, perform_loadWith, List.map_id, hdocuments]
    exact ⟨rfl, rfl, hshort⟩

/-- A field for vectors of three numbers. -/
def embedding : Field :=
  { name := "v", type := .vector { dims := 3, algorithm := .flat none } }

def embeddings : Handle :=
  ⟨{ name := "embeddings", fields := [embedding], checked := rfl }, {}⟩

def flagged : Record :=
  .ofEntries [("id", .string "1"), ("v", .bool true)]

/-- A truth value is written in the place of a vector, as a single byte that no query can be made
of. -/
theorem flag_written_for_vector :
    embeddings.schema.storage = .hash ∧
      ((embeddings.load [flagged] "id").trace ⟨{}, {}⟩ []).1.1 = .ok ["rvl:1"] ∧
      ((embeddings.load [flagged] "id").trace ⟨{}, {}⟩ []).2 =
        [.load [⟨"rvl:1", .hash [("id", [49]), ("v", [49])]⟩]] ∧
      ¬∃ q, Query.ofNearest embeddings.schema "v" (.bytes [49]) 10 = .ok q := by
  obtain ⟨documents, hcalls, hwritten⟩ :=
    (vector_lengths_of_load embeddings rfl).1 [flagged] "id" ⟨{}, {}⟩ _ _ _ rfl
  obtain ⟨⟩ := hcalls
  obtain ⟨⟨attributes, hbody, hvectors⟩, -⟩ := List.forall₂_cons.mp hwritten
  obtain rfl := Body.hash.inj hbody
  have hflag := hvectors embedding (by decide) _ rfl [49] (by decide)
  refine ⟨rfl, rfl, rfl, fun hquery => ?_⟩
  exact absurd ((hflag.nearest_iff 10).mp hquery).2 (by decide)

end Handle
end HybridSearch
