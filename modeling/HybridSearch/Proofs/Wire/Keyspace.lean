import HybridSearch.Proofs.Document.Merging
import HybridSearch.Proofs.Query.SearchArguments
import HybridSearch.Wire.Link
import Mathlib.Logic.Function.Basic

/-!
# The keys of a server

What the commands that write documents do on a server, said without a store, and that a store holds
the same after the same batches of documents.

```text
HSET key name value …    every value over the one under its name, or behind the others
JSON.SET key $ text      the text in the place of the document
```

* `Keyspace.execute?`, `Keyspace.executeAll?`: commands on the keys of a server.
* `Store.keyspace`: the contents of a store as the keys of a server.
* `Store.Laid.loadAll`: batches of documents written into a store and by commands.
* `Engine.loadAll_agrees`: batches of documents through a store and over a link.
-/
namespace HybridSearch

/-! ## Commands on a server -/

/-- What a server has under a key. -/
inductive Held where
  | hash (attributes : List (Bytes × Bytes))
  | json (text : Bytes)

/-- The keys of a server, with what it has under them. -/
abbrev Keyspace := Bytes → Option Held

namespace Keyspace

def empty : Keyspace := fun _ => none

/-- A value takes the place of the one under its name, or stands behind the others. -/
def setAttribute (attributes : List (Bytes × Bytes)) (given : Bytes × Bytes) :
    List (Bytes × Bytes) :=
  if given.1 ∈ attributes.map Prod.fst then
    attributes.map fun pair => if pair.1 = given.1 then given else pair
  else attributes ++ [given]

/-- Sets attributes of a hash, which is made if the key has nothing. -/
def setHash? (key : Bytes) (given : List (Bytes × Bytes)) (k : Keyspace) : Option Keyspace :=
  match k key with
  | none => some (Function.update k key (some (.hash (given.foldl setAttribute []))))
  | some (.hash attributes) =>
    some (Function.update k key (some (.hash (given.foldl setAttribute attributes))))
  | some (.json _) => none

def setJson? (key text : Bytes) (k : Keyspace) : Option Keyspace :=
  match k key with
  | some (.hash _) => none
  | _ => some (Function.update k key (some (.json text)))

/-- Names and values in turn, at least one of each. -/
def pairs? : List Bytes → Option (List (Bytes × Bytes))
  | [name, value] => some [(name, value)]
  | name :: value :: rest => (pairs? rest).map fun pairs => (name, value) :: pairs
  | _ => none

/-- The text of a JSON document that is set as a whole. -/
def wholeText? : List Bytes → Option Bytes
  | [path, text] => if path = Bytes.ofText "$" then some text else none
  | _ => none

/-- A command that writes a document; none if it is refused. -/
def execute? (k : Keyspace) : Command → Option Keyspace
  | command :: key :: arguments =>
    if command = Bytes.ofText "HSET" then
      (pairs? arguments).bind fun given => k.setHash? key given
    else if command = Bytes.ofText "JSON.SET" then
      (wholeText? arguments).bind fun text => k.setJson? key text
    else none
  | _ => none

/-- Commands one after the other; none if one of them is refused. -/
def executeAll? (k : Keyspace) (commands : List Command) : Option Keyspace :=
  commands.foldlM execute? k

section Attributes

variable {attributes : List (Bytes × Bytes)} {given pair : Bytes × Bytes}

theorem setAttribute_of_absent (h : given.1 ∉ attributes.map Prod.fst) :
    setAttribute attributes given = attributes ++ [given] :=
  if_neg h

theorem setAttribute_cons_self (name old value : Bytes) (h : name ∉ attributes.map Prod.fst) :
    setAttribute ((name, old) :: attributes) (name, value) = (name, value) :: attributes := by
  have hmem : name ∈ ((name, old) :: attributes).map Prod.fst := List.mem_cons_self
  have hkept : (attributes.map fun pair => if pair.1 = name then (name, value) else pair) =
      attributes := by
    conv_rhs => rw [← List.map_id attributes]
    refine List.map_congr_left fun pair hpair => ?_
    exact if_neg fun heq => h (List.mem_map.mpr ⟨pair, hpair, heq⟩)
  rw [setAttribute, if_pos hmem, List.map_cons, if_pos rfl, hkept]

theorem setAttribute_cons_of_ne (hname : pair.1 ≠ given.1) :
    setAttribute (pair :: attributes) given = pair :: setAttribute attributes given := by
  have hmem : given.1 ∈ (pair :: attributes).map Prod.fst ↔ given.1 ∈ attributes.map Prod.fst := by
    rw [List.map_cons, List.mem_cons, or_iff_right hname.symm]
  by_cases h : given.1 ∈ attributes.map Prod.fst
  · rw [setAttribute, setAttribute, if_pos (hmem.mpr h), if_pos h, List.map_cons, if_neg hname]
  · rw [setAttribute, setAttribute, if_neg (hmem.not.mpr h), if_neg h, List.cons_append]

/-- Attributes under new names are set one behind the other. -/
theorem foldl_setAttribute_of_absent {later : List (Bytes × Bytes)}
    (h : ((attributes ++ later).map Prod.fst).Nodup) :
    later.foldl setAttribute attributes = attributes ++ later := by
  induction later generalizing attributes with
  | nil => exact (List.append_nil _).symm
  | cons given rest ih =>
    have habsent : given.1 ∉ attributes.map Prod.fst := by
      rw [List.map_append, List.map_cons, List.nodup_append] at h
      exact fun hmem => h.2.2 _ hmem _ List.mem_cons_self rfl
    rw [List.foldl_cons, setAttribute_of_absent habsent, ih, List.append_assoc,
      List.singleton_append]
    rwa [List.append_assoc, List.singleton_append]

theorem pairs?_flatMap (h : attributes ≠ []) :
    pairs? (attributes.flatMap fun pair => [pair.1, pair.2]) = some attributes := by
  induction attributes with
  | nil => exact absurd rfl h
  | cons pair rest ih =>
    cases rest with
    | nil => rfl
    | cons next rest =>
      have hrest := ih (List.cons_ne_nil next rest)
      show (pairs? ((next :: rest).flatMap fun pair => [pair.1, pair.2])).map _ = _
      rw [hrest]
      rfl

end Attributes

theorem executeAll?_append (k : Keyspace) (commands later : List Command) :
    k.executeAll? (commands ++ later) =
      (k.executeAll? commands).bind fun k' => k'.executeAll? later := by
  rw [executeAll?, List.foldlM_append]
  rfl

end Keyspace

/-! ## A store as the keys of a server -/

namespace Attributes

variable {stored written : Attributes}

/-- Attributes as they are sent. -/
def raw (attributes : Attributes) : List (Bytes × Bytes) :=
  attributes.map fun pair => (Bytes.ofText pair.1, pair.2)

theorem mem_names_raw_iff {name : String} :
    Bytes.ofText name ∈ (raw stored).map Prod.fst ↔ name ∈ stored.map Prod.fst := by
  simp only [raw, List.map_map, List.mem_map, Function.comp_apply]
  constructor
  · rintro ⟨pair, hpair, hname⟩
    exact ⟨pair, hpair, Bytes.ofText_injective hname⟩
  · rintro ⟨pair, hpair, rfl⟩
    exact ⟨pair, hpair, rfl⟩

theorem nodup_names_raw (h : (stored.map Prod.fst).Nodup) : ((raw stored).map Prod.fst).Nodup := by
  have hnames : (raw stored).map Prod.fst = (stored.map Prod.fst).map Bytes.ofText := by
    simp [raw]
  rw [hnames]
  exact h.map fun _ _ => Bytes.ofText_injective

/-- With no name twice there is one place under a name. -/
theorem raw_putAt (h : (stored.map Prod.fst).Nodup) (name : String) (value : Bytes) :
    raw (putAt name value stored) =
      Keyspace.setAttribute (raw stored) (Bytes.ofText name, value) := by
  induction stored with
  | nil => rfl
  | cons pair rest ih =>
    rw [List.map_cons, List.nodup_cons] at h
    rw [putAt]
    by_cases hname : pair.1 = name
    · subst hname
      have habsent : Bytes.ofText pair.1 ∉ (raw rest).map Prod.fst := fun hmem =>
        h.1 (mem_names_raw_iff.mp hmem)
      rw [if_pos rfl]
      exact (Keyspace.setAttribute_cons_self (Bytes.ofText pair.1) pair.2 value habsent).symm
    · have hne : Bytes.ofText pair.1 ≠ Bytes.ofText name := fun heq =>
        hname (Bytes.ofText_injective heq)
      rw [if_neg hname]
      exact (congrArg _ (ih h.2)).trans (Keyspace.setAttribute_cons_of_ne hne).symm

theorem raw_mergeAttributes (h : (stored.map Prod.fst).Nodup) (written : Attributes) :
    raw (Store.mergeAttributes stored written) =
      (raw written).foldl Keyspace.setAttribute (raw stored) := by
  rw [Store.mergeAttributes]
  induction written generalizing stored with
  | nil => rfl
  | cons pair rest ih =>
    rw [List.foldl_cons, ih (nodup_putAt h), raw_putAt h]
    rfl

end Attributes

namespace Body

/-- What a command can write: in a hash at least one attribute, and no name twice. -/
def Writable : Body → Prop
  | hash attributes => attributes ≠ [] ∧ (attributes.map Prod.fst).Nodup
  | json _ => True

/-- What a server has under the key of a stored document. -/
def held : Body → Held
  | hash attributes => .hash (Attributes.raw attributes)
  | json value => .json (Bytes.ofText value.text)

end Body

namespace Store

/-- What a server has under its keys if it has these documents. -/
def heldUnder : List (String × Body) → Keyspace
  | [] => Keyspace.empty
  | pair :: rest =>
    Function.update (heldUnder rest) (Bytes.ofText pair.1) (some pair.2.held)

def keyspace (s : Store) : Keyspace :=
  heldUnder s.documents

theorem heldUnder_ofText (key : String) (documents : List (String × Body)) :
    heldUnder documents (Bytes.ofText key) = (lookUp? key documents).map Body.held := by
  induction documents with
  | nil => rfl
  | cons pair rest ih =>
    rw [heldUnder, lookUp?_cons]
    by_cases hkey : pair.1 = key
    · rw [if_pos hkey, hkey, Function.update_self]
      rfl
    · have hne : Bytes.ofText key ≠ Bytes.ofText pair.1 := fun heq =>
        hkey (Bytes.ofText_injective heq).symm
      rw [if_neg hkey, Function.update_of_ne hne, ih]

theorem heldUnder_putAt (key : String) (body : Body) (documents : List (String × Body)) :
    heldUnder (putAt key body documents) =
      Function.update (heldUnder documents) (Bytes.ofText key) (some body.held) := by
  induction documents with
  | nil => rfl
  | cons pair rest ih =>
    rw [putAt]
    by_cases hkey : pair.1 = key
    · rw [if_pos hkey, heldUnder, heldUnder, hkey, Function.update_idem]
    · have hne : Bytes.ofText key ≠ Bytes.ofText pair.1 := fun heq =>
        hkey (Bytes.ofText_injective heq).symm
      rw [if_neg hkey, heldUnder, heldUnder, ih, Function.update_comm hne]

end Store

/-! ## Writing documents -/

theorem Command.write_of_hash {d : Document} {attributes : Attributes}
    (h : d.body = .hash attributes) :
    Command.write d = Bytes.ofText "HSET" :: Bytes.ofText d.key ::
      (Attributes.raw attributes).flatMap fun pair => [pair.1, pair.2] := by
  rw [write, h, Attributes.raw, List.flatMap_map]
  rfl

theorem Command.write_of_json {d : Document} {value : Json} (h : d.body = .json value) :
    Command.write d = [Bytes.ofText "JSON.SET", Bytes.ofText d.key, Bytes.ofText "$",
      Bytes.ofText value.text] := by
  rw [write, h]
  rfl

namespace Keyspace

variable {k : Keyspace} {d : Document}

theorem execute?_write_of_hash {attributes : Attributes} (h : d.body = .hash attributes)
    (hne : attributes ≠ []) :
    k.execute? (Command.write d) = k.setHash? (Bytes.ofText d.key) (Attributes.raw attributes) := by
  have hraw : Attributes.raw attributes ≠ [] := by simpa [Attributes.raw] using hne
  rw [Command.write_of_hash h, execute?, if_pos rfl, pairs?_flatMap hraw]
  rfl

theorem execute?_write_of_json {value : Json} (h : d.body = .json value) :
    k.execute? (Command.write d) = k.setJson? (Bytes.ofText d.key) (Bytes.ofText value.text) := by
  have hname : Bytes.ofText "JSON.SET" ≠ Bytes.ofText "HSET" := by decide
  rw [Command.write_of_json h, execute?, if_neg hname, if_pos rfl, wholeText?, if_pos rfl]
  rfl

end Keyspace

namespace Store

/-- Every key has one layout, which the document under it has, and no key or attribute is there
twice. -/
structure Laid (layout : String → Storage) (s : Store) : Prop where
  keys : (s.documents.map Prod.fst).Nodup
  storage : ∀ pair ∈ s.documents, pair.2.storage = layout pair.1
  names : ∀ pair ∈ s.documents, ∀ attributes, pair.2 = .hash attributes →
    (attributes.map Prod.fst).Nodup

variable {layout : String → Storage} {s : Store} {d : Document}

theorem laid_of_no_documents (layout : String → Storage) (h : s.documents = []) :
    Laid layout s := by
  refine ⟨?_, ?_, ?_⟩ <;> rw [h] <;> simp

/-- A document of the layout of its key goes with what is stored there, and the command writes what
they come to. -/
theorem Laid.write (hs : Laid layout s) (hd : d.body.Writable)
    (hlayout : d.body.storage = layout d.key) :
    ∃ body, mergeBody? (lookUp? d.key s.documents) d.body = some body ∧
      body.storage = layout d.key ∧
      (∀ attributes, body = .hash attributes → (attributes.map Prod.fst).Nodup) ∧
      s.keyspace.execute? (Command.write d) =
        some (Function.update s.keyspace (Bytes.ofText d.key) (some body.held)) := by
  have hkey : s.keyspace (Bytes.ofText d.key) = (lookUp? d.key s.documents).map Body.held :=
    heldUnder_ofText d.key s.documents
  cases hbody : d.body with
  | hash written =>
    rw [hbody] at hd hlayout
    obtain ⟨hne, hnodup⟩ := hd
    rw [Keyspace.execute?_write_of_hash hbody hne, Keyspace.setHash?, hkey]
    cases hstored : lookUp? d.key s.documents with
    | none =>
      have hraw : (Attributes.raw written).foldl Keyspace.setAttribute [] =
          Attributes.raw written :=
        Keyspace.foldl_setAttribute_of_absent (Attributes.nodup_names_raw hnodup)
      refine ⟨.hash written, rfl, hlayout, fun attributes heq => ?_, ?_⟩
      · exact Body.hash.inj heq ▸ hnodup
      · simp only [Option.map_none, hraw]
        rfl
    | some body =>
      have hmem := mem_of_lookUp?_eq_some hstored
      cases body with
      | hash stored =>
        have hstored := hs.names _ hmem stored rfl
        refine ⟨.hash (mergeAttributes stored written), rfl, hlayout, fun attributes heq => ?_, ?_⟩
        · exact Body.hash.inj heq ▸ nodup_mergeAttributes hstored
        · simp only [Option.map_some, Body.held, Attributes.raw_mergeAttributes hstored]
      | json value => exact absurd ((hs.storage _ hmem).trans hlayout.symm) nofun
  | json written =>
    rw [hbody] at hlayout
    rw [Keyspace.execute?_write_of_json hbody, Keyspace.setJson?, hkey]
    cases hstored : lookUp? d.key s.documents with
    | none => exact ⟨.json written, rfl, hlayout, nofun, rfl⟩
    | some body =>
      have hmem := mem_of_lookUp?_eq_some hstored
      cases body with
      | hash stored => exact absurd ((hs.storage _ hmem).trans hlayout.symm) nofun
      | json value => exact ⟨.json written, rfl, hlayout, nofun, rfl⟩

theorem Laid.putAt (hs : Laid layout s) {key : String} {body : Body}
    (hlayout : body.storage = layout key)
    (hnames : ∀ attributes, body = .hash attributes → (attributes.map Prod.fst).Nodup) :
    Laid layout { s with documents := putAt key body s.documents } := by
  refine ⟨nodup_putAt hs.keys, fun pair hpair => ?_, fun pair hpair => ?_⟩
  · rcases mem_putAt hpair with rfl | hpair
    · exact hlayout
    · exact hs.storage pair hpair
  · rcases mem_putAt hpair with rfl | hpair
    · exact hnames
    · exact hs.names pair hpair

/-- Documents are written into a store without fail, and the commands that write them leave the
same on a server. -/
theorem Laid.load (hs : Laid layout s) {documents : List Document}
    (h : ∀ d ∈ documents, d.body.Writable ∧ d.body.storage = layout d.key) :
    (s.load documents).1 = .ok () ∧ Laid layout (s.load documents).2 ∧
      s.keyspace.executeAll? (documents.map Command.write) =
        some (s.load documents).2.keyspace := by
  induction documents generalizing s with
  | nil => exact ⟨rfl, hs, rfl⟩
  | cons d rest ih =>
    obtain ⟨⟨hd, hlayout⟩, hrest⟩ := List.forall_mem_cons.mp h
    obtain ⟨body, hmerged, hstorage, hnames, hexecute⟩ := hs.write hd hlayout
    obtain ⟨hok, hlaid, hlater⟩ := ih (hs.putAt hstorage hnames) hrest
    rw [load_cons, hmerged]
    refine ⟨hok, hlaid, ?_⟩
    rw [← hlater, List.map_cons, Keyspace.executeAll?, List.foldlM_cons, hexecute, keyspace,
      keyspace, heldUnder_putAt]
    rfl

end Store

/-! ## Batches -/

/-- Loads batches of documents one after the other, whatever comes of each. -/
def Engine.loadAll {m : Type → Type} [Monad m] [Engine m] (batches : List (List Document)) :
    m (List (Except EngineError Unit)) :=
  batches.mapM Engine.load

theorem Engine.run_loadAll_cons {σ : Type} [Engine (StateM σ)] (documents : List Document)
    (rest : List (List Document)) (state : σ) :
    let first := (Engine.load documents : StateM σ _).run state
    let later := (Engine.loadAll rest : StateM σ _).run first.2
    (Engine.loadAll (documents :: rest) : StateM σ _).run state =
      (first.1 :: later.1, later.2) := by
  intro first later
  have hcons : (loadAll (documents :: rest) : StateM σ _) = do
      let answer ← Engine.load documents
      let answers ← loadAll rest
      return answer :: answers := List.mapM_cons
  rw [hcons]
  rfl

theorem Store.Laid.loadAll {layout : String → Storage} {s : Store} (hs : Laid layout s)
    {batches : List (List Document)}
    (h : ∀ d ∈ batches.flatten, d.body.Writable ∧ d.body.storage = layout d.key) :
    ∃ s', (Engine.loadAll batches : StateM Store _).run s = (batches.map fun _ => .ok (), s') ∧
      Laid layout s' ∧
      s.keyspace.executeAll? (batches.flatMap fun documents => documents.map Command.write) =
        some s'.keyspace := by
  induction batches generalizing s with
  | nil => exact ⟨s, rfl, hs, rfl⟩
  | cons documents rest ih =>
    rw [List.flatten_cons] at h
    obtain ⟨hok, hlaid, hexecute⟩ := hs.load fun d hd => h d (List.mem_append_left _ hd)
    obtain ⟨s', hrun, hlaid', hlater⟩ := ih hlaid fun d hd => h d (List.mem_append_right _ hd)
    refine ⟨s', ?_, hlaid', ?_⟩
    · have hload : (Engine.load documents : StateM Store _).run s =
          (.ok (), (s.load documents).2) := Prod.ext hok rfl
      rw [Engine.run_loadAll_cons, hload, hrun]
      rfl
    · rw [List.flatMap_cons, Keyspace.executeAll?_append, hexecute]
      exact hlater

namespace Link

/-- Over a link that answers with its status alone, commands are sent one behind the other. -/
theorem sendAll_acknowledged (commands sent : List Command) :
    (sendAll commands).run ⟨[], sent⟩ = (.ok (), ⟨[], commands.reverse ++ sent⟩) := by
  induction commands generalizing sent with
  | nil => rfl
  | cons command rest ih =>
    rw [List.reverse_cons, List.append_assoc, List.singleton_append]
    exact ih (command :: sent)

theorem loadAll_acknowledged (batches : List (List Document)) (sent : List Command) :
    (Engine.loadAll batches : StateM Link _).run ⟨[], sent⟩ =
      (batches.map fun _ => .ok (),
        ⟨[], (batches.flatMap fun documents => documents.map Command.write).reverse ++ sent⟩) := by
  induction batches generalizing sent with
  | nil => rfl
  | cons documents rest ih =>
    have hload : (Engine.load documents : StateM Link _).run ⟨[], sent⟩ =
        (.ok (), ⟨[], (documents.map Command.write).reverse ++ sent⟩) := by
      show (sendAll (documents.map Command.write) >>= fun outcome =>
        pure (acknowledged outcome)).run _ = _
      rw [StateT.run_bind, sendAll_acknowledged]
      rfl
    rw [Engine.run_loadAll_cons, hload, ih, List.flatMap_cons, List.reverse_append,
      List.append_assoc]
    rfl

end Link

/-- If every hash has attributes, no name twice, and no key is used with both layouts, then batches
of documents are written into a store without fail; and the commands that are sent for them, batch
by batch, leave on a server without keys just what the store has: the same keys, the same attributes
in the same order with the same bytes, and the same JSON texts. -/
theorem Engine.loadAll_agrees {batches : List (List Document)}
    (hwritable : ∀ d ∈ batches.flatten, d.body.Writable)
    (hlayout : ∀ d ∈ batches.flatten, ∀ e ∈ batches.flatten, d.key = e.key →
      d.body.storage = e.body.storage)
    {s : Store} (hs : s.documents = []) :
    let stored := (loadAll batches : StateM Store _).run s
    let sent := (loadAll batches : StateM Link _).run {}
    stored.1 = batches.map (fun _ => .ok ()) ∧
      (stored.2.documents.map Prod.fst).Nodup ∧
      sent.2.sent.reverse = batches.flatMap (fun documents => documents.map Command.write) ∧
      Keyspace.empty.executeAll? sent.2.sent.reverse = some stored.2.keyspace := by
  -- The layout of a key is that of the first document under it.
  let layout : String → Storage := fun key =>
    ((batches.flatten.find? fun d => d.key == key).map fun d => d.body.storage).getD .hash
  have hlaid : ∀ d ∈ batches.flatten, d.body.Writable ∧ d.body.storage = layout d.key := by
    intro d hd
    refine ⟨hwritable d hd, ?_⟩
    cases hfirst : batches.flatten.find? fun e => e.key == d.key with
    | none => exact absurd rfl (find?_named_eq_none_iff.mp hfirst d hd)
    | some e =>
      have hkey : e.key = d.key := by simpa using List.find?_some hfirst
      simp only [layout, hfirst]
      exact hlayout d hd e (List.mem_of_find?_eq_some hfirst) hkey.symm
  obtain ⟨s', hrun, hkeys, hexecute⟩ := (Store.laid_of_no_documents layout hs).loadAll hlaid
  intro stored sent
  have hsent : sent.2.sent.reverse =
      batches.flatMap fun documents => documents.map Command.write := by
    simp only [sent, Link.loadAll_acknowledged, List.append_nil, List.reverse_reverse]
  have hempty : Keyspace.empty = s.keyspace := by
    rw [Store.keyspace, hs]
    rfl
  refine ⟨congrArg Prod.fst hrun, ?_, hsent, ?_⟩
  · rw [show stored.2 = s' from congrArg Prod.snd hrun]
    exact hkeys.keys
  · rw [hsent, hempty, hexecute, show stored.2 = s' from congrArg Prod.snd hrun]

/-- What a handle writes for a batch of records can be written by commands, all of it in the layout
of its schema. -/
theorem Schema.writable_of_mem_documents {s : Schema} {keyField : String} {records : List Record}
    {documents : List Document} (h : s.documents keyField records = .ok documents) :
    ∀ d ∈ documents, d.body.Writable ∧ d.body.storage = s.storage := by
  intro d hd
  obtain ⟨r, -, hr⟩ := (exists_of_forall₂_of_mem (documentsFrom_eq_ok_iff.mp h)).2 d hd
  obtain ⟨id, hid, hbody, -⟩ := document_eq_ok_iff.mp hr
  refine ⟨?_, storage_of_body hbody⟩
  cases hstorage : s.storage with
  | json =>
    rw [← Except.ok.inj ((body_of_json hstorage).symm.trans hbody)]
    trivial
  | hash =>
    obtain ⟨attributes, hattributes, heq⟩ := (body_eq_ok_iff_of_hash hstorage).mp hbody
    rw [heq]
    exact ⟨List.ne_nil_of_mem ((attributes_eq_of_id hid).2 attributes hattributes),
      (lookUp?_attributes hattributes).1⟩

def residents : Schema where
  name := "residents"
  keyPrefix := "resident"
  checked := rfl

/-- One resident, written with a job, and then with another one and a town. -/
def residentDocuments : List Document :=
  [⟨residents.key "7", .hash [("id", Bytes.ofText "7"), ("job", Bytes.ofText "smith")]⟩,
    ⟨residents.key "7",
      .hash [("id", Bytes.ofText "7"), ("job", Bytes.ofText "cook"),
        ("town", Bytes.ofText "York")]⟩]

theorem documents_residents :
    residents.documents "id"
      [Record.ofEntries [("id", .string "7"), ("job", .string "smith")],
        Record.ofEntries [("id", .string "7"), ("job", .string "cook"), ("town", .string "York")]] =
      .ok residentDocuments :=
  rfl

/-- The resident is written over and over, and the old job is gone. -/
theorem loadAll_agrees_residentDocuments :
    let batches := [residentDocuments, residentDocuments]
    let stored := (Engine.loadAll batches : StateM Store _).run {}
    (∀ d ∈ batches.flatten, d.body.Writable) ∧
      (∀ d ∈ batches.flatten, ∀ e ∈ batches.flatten, d.key = e.key →
        d.body.storage = e.body.storage) ∧
      Keyspace.empty.executeAll?
          (batches.flatMap fun documents => documents.map Command.write) =
        some stored.2.keyspace ∧
      stored.2.keyspace (Bytes.ofText (residents.key "7")) =
        some (.hash [(Bytes.ofText "id", Bytes.ofText "7"),
          (Bytes.ofText "job", Bytes.ofText "cook"),
          (Bytes.ofText "town", Bytes.ofText "York")]) := by
  intro batches stored
  have hboth : ∀ d ∈ batches.flatten, d.body.Writable ∧ d.body.storage = residents.storage := by
    intro d hd
    obtain ⟨documents, hdocuments, hd⟩ := List.mem_flatten.mp hd
    obtain rfl : documents = residentDocuments := by simpa [batches] using hdocuments
    exact Schema.writable_of_mem_documents documents_residents d hd
  have hwritable := fun d hd => (hboth d hd).1
  have hlayout : ∀ d ∈ batches.flatten, ∀ e ∈ batches.flatten, d.key = e.key →
      d.body.storage = e.body.storage :=
    fun d hd e he _ => (hboth d hd).2.trans (hboth e he).2.symm
  have hnone : ({} : Store).documents = [] := rfl
  obtain ⟨-, -, hsent, hexecute⟩ := Engine.loadAll_agrees hwritable hlayout hnone
  rw [hsent] at hexecute
  exact ⟨hwritable, hlayout, hexecute, rfl⟩

end HybridSearch
