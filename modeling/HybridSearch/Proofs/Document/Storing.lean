import HybridSearch.Document
import HybridSearch.Proofs.Schema.Fields

/-!
# Stored values

Which values can name a document, which have a stored form in a hash, and which attributes the
entries of a record come to. All of it is said of the values and of the declared fields alone.

* `JsonNumber.Numeral`, `JsonNumber.Rounds`: a number as text, and as a member of a vector.
* `Json.Names`, `Record.NamedBy`: the values that can be keys, and the texts by which they name a
  document.
* `Schema.Unstorable`: the values that have no place in a hash.
* `Schema.Stored`: the other values but null, with what is stored of each.
* `Schema.exists_entryAttributes_iff`, `Schema.mem_entryAttributes_iff`: the attributes of entries.
* `Schema.attributes_eq_of_id`: a record that can be named is not left without attributes.
-/
namespace HybridSearch

/-! ## Numbers -/

namespace JsonNumber

/-- A number and its numeral: the decimal one of an integer, and that of JSON of any other
number. -/
inductive Numeral : JsonNumber → String → Prop
  | integer (n : Int) : Numeral (.integer n) (toString n)
  | real (x : Binary64) : Numeral (.real x) (Number.Style.json.text x)

theorem numeral_iff {n : JsonNumber} {t : String} : n.Numeral t ↔ n.text = t := by
  constructor
  · rintro (_ | _) <;> rfl
  · rintro rfl
    cases n <;> constructor

/-- A number and the one that is stored for it among the members of a vector: an integer becomes the
nearest number in 64 bits. -/
inductive Rounds : JsonNumber → Binary64 → Prop
  | integer {n : Int} {x : Binary64} (h : Binary64.RoundsInt n x) : Rounds (.integer n) x
  | real (x : Binary64) : Rounds (.real x) x

theorem rounds_iff {n : JsonNumber} {x : Binary64} : n.Rounds x ↔ n.toBinary64 = x := by
  cases n with
  | integer n =>
    rw [toBinary64, ← Binary64.roundsInt_iff]
    exact ⟨fun | .integer h => h, .integer⟩
  | real y =>
    constructor
    · rintro ⟨⟩
      rfl
    · rintro rfl
      exact .real _

end JsonNumber

/-! ## Keys -/

/-- A value names a document by a text: a text that is not empty by itself, a number by its
numeral. -/
inductive Json.Names : Json → String → Prop
  | text {s : String} (h : s ≠ "") : Names (.string s) s
  | number {n : JsonNumber} {t : String} (h : n.Numeral t) : Names (.number n) t

/-- A record is named by a text: its key field has a value that names a document by it. -/
def Record.NamedBy (r : Record) (keyField id : String) : Prop :=
  ∃ value, r.get? keyField = some value ∧ value.Names id

namespace Record

variable {r : Record} {keyField : String}

theorem nodup_names (r : Record) : (r.entries.map fun entry => entry.1).Nodup := by
  rw [List.Nodup, List.pairwise_map]
  refine r.ascending.imp fun {a b} hlt heq => ?_
  rw [heq] at hlt
  exact String.lt_irrefl _ hlt

theorem get?_eq_some_iff {value : Json} :
    r.get? keyField = some value ↔ (keyField, value) ∈ r.entries := by
  rw [get?, Option.map_eq_some_iff]
  constructor
  · rintro ⟨⟨name, value⟩, hfind, rfl⟩
    obtain ⟨hmem, rfl⟩ := (find?_named_eq_some_iff r.nodup_names).mp hfind
    exact hmem
  · intro hmem
    exact ⟨_, (find?_named_eq_some_iff r.nodup_names).mpr ⟨hmem, rfl⟩, rfl⟩

theorem id_eq_ok_iff {id : String} :
    r.id keyField = .ok id ↔ r.NamedBy keyField id := by
  rw [Record.id, NamedBy]
  cases hvalue : r.get? keyField with
  | none => simp
  | some value =>
    simp only [Option.some.injEq, exists_eq_left']
    cases value with
    | string text =>
      dsimp only
      by_cases hempty : text = ""
      · rw [if_pos (String.isEmpty_iff.mpr hempty)]
        refine ⟨nofun, ?_⟩
        rintro ⟨h⟩
        exact absurd hempty h
      · rw [if_neg fun h => hempty (String.isEmpty_iff.mp h)]
        constructor
        · rintro ⟨⟩
          exact .text hempty
        · rintro ⟨-⟩
          rfl
    | number n =>
      constructor
      · rintro ⟨⟩
        exact .number (JsonNumber.numeral_iff.mpr rfl)
      · intro h
        cases h with
        | number h => exact congrArg Except.ok (JsonNumber.numeral_iff.mp h)
    | null => exact ⟨nofun, nofun⟩
    | bool b => exact ⟨nofun, nofun⟩
    | array items => exact ⟨nofun, nofun⟩
    | object entries => exact ⟨nofun, nofun⟩

instance (r : Record) (keyField id : String) : Decidable (r.NamedBy keyField id) :=
  decidable_of_iff ((r.id keyField).toOption = some id) <| by
    rw [← id_eq_ok_iff]
    cases r.id keyField <;> simp [Except.toOption]

theorem id_ne_error_empty : r.id keyField ≠ .error .empty := by
  rw [Record.id]
  split
  · nofun
  · split <;> nofun
  · nofun
  · nofun

end Record

/-! ## Stored values -/

namespace Schema

variable (s : Schema)

/-- A value that has no stored form under a name. -/
inductive Unstorable (name : String) : Json → Prop
  | object {entries : List (String × Json)} : Unstorable name (.object entries)
  | vectorItems {f : Field} {options : VectorOptions} {items : List Json} {item : Json}
      (hf : f ∈ s.fields) (hname : f.name = name) (htype : f.type = .vector options)
      (hitem : item ∈ items) (hnumber : ∀ n, item ≠ .number n) : Unstorable name (.array items)
  | vectorLength {f : Field} {options : VectorOptions} {items : List Json}
      (hf : f ∈ s.fields) (hname : f.name = name) (htype : f.type = .vector options)
      (hlength : items.length ≠ options.dims) : Unstorable name (.array items)
  | listItems {items : List Json} {item : Json}
      (hother : ∀ f ∈ s.fields, f.name = name → ∀ options, f.type ≠ .vector options)
      (hitem : item ∈ items) (htext : ∀ t, item ≠ .string t) : Unstorable name (.array items)

/-- What stands between the members of a list that is stored under a name: the separator of the tag
field of that name, and a comma if there is none. -/
inductive Separates (name : String) : Char → Prop
  | tag {f : Field} {options : TagOptions} (hf : f ∈ s.fields) (hname : f.name = name)
      (htype : f.type = .tag options) : Separates name options.separator
  | other (h : ∀ f ∈ s.fields, f.name = name → ∀ options, f.type ≠ .tag options) :
      Separates name ','

/-- A value and its stored form under a name. A list is stored as a vector under the name of a
vector field, and under any other name as one text. -/
inductive Stored (name : String) : Json → Bytes → Prop
  | text (t : String) : Stored name (.string t) (Bytes.ofText t)
  | number {n : JsonNumber} {t : String} (h : n.Numeral t) :
      Stored name (.number n) (Bytes.ofText t)
  | yes : Stored name (.bool true) (Bytes.ofText "1")
  | no : Stored name (.bool false) (Bytes.ofText "0")
  | vector {f : Field} {options : VectorOptions} {numbers : List JsonNumber}
      {values : List Binary64} (hf : f ∈ s.fields) (hname : f.name = name)
      (htype : f.type = .vector options) (hlength : values.length = options.dims)
      (hvalues : List.Forall₂ JsonNumber.Rounds numbers values) :
      Stored name (.array (numbers.map .number)) (options.elementType.encode values)
  | list {separator : Char} {texts : List String}
      (hother : ∀ f ∈ s.fields, f.name = name → ∀ options, f.type ≠ .vector options)
      (hseparator : s.Separates name separator) :
      Stored name (.array (texts.map .string))
        (Bytes.ofText ((String.singleton separator).intercalate texts))

variable {s}

theorem map_type_field?_eq_some_iff {name : String} {type : FieldType} :
    (s.field? name).map Field.type = some type ↔
      ∃ f ∈ s.fields, f.name = name ∧ f.type = type := by
  simp only [Option.map_eq_some_iff, s.field?_eq_some_iff, and_assoc]

theorem mapM_binary64?_eq_none_iff {items : List Json} :
    items.mapM Json.binary64? = none ↔ ∃ item ∈ items, ∀ n, item ≠ .number n := by
  rw [mapM_eq_none_iff]
  refine exists_congr fun item => and_congr_right fun _ => ?_
  cases item <;> simp [Json.binary64?]

theorem mapM_string?_eq_none_iff {items : List Json} :
    items.mapM Json.string? = none ↔ ∃ item ∈ items, ∀ t, item ≠ .string t := by
  rw [mapM_eq_none_iff]
  refine exists_congr fun item => and_congr_right fun _ => ?_
  cases item <;> simp [Json.string?]

theorem mapM_binary64?_eq_some_iff {items : List Json} {values : List Binary64} :
    items.mapM Json.binary64? = some values ↔ ∃ numbers : List JsonNumber,
      items = numbers.map .number ∧ List.Forall₂ JsonNumber.Rounds numbers values := by
  rw [mapM_eq_some_iff]
  constructor
  · intro h
    induction h with
    | nil => exact ⟨[], rfl, .nil⟩
    | @cons item value items values hitem _ ih =>
      obtain ⟨numbers, rfl, hrounds⟩ := ih
      cases item with
      | number n =>
        exact ⟨n :: numbers, rfl, .cons (JsonNumber.rounds_iff.mpr (Option.some.inj hitem)) hrounds⟩
      | _ => cases hitem
  · rintro ⟨numbers, rfl, hrounds⟩
    rw [List.forall₂_map_left_iff]
    exact hrounds.imp fun _ _ h => congrArg some (JsonNumber.rounds_iff.mp h)

theorem mapM_string?_eq_some_iff {items : List Json} {texts : List String} :
    items.mapM Json.string? = some texts ↔ items = texts.map .string := by
  rw [mapM_eq_some_iff]
  constructor
  · intro h
    induction h with
    | nil => rfl
    | @cons item text items texts hitem _ ih =>
      cases item with
      | string t =>
        obtain rfl := Option.some.inj hitem
        rw [ih, List.map_cons]
      | _ => cases hitem
  · rintro rfl
    rw [List.forall₂_map_left_iff]
    exact List.forall₂_same.mpr fun _ _ => rfl

theorem separates_iff {name : String} {separator : Char} : s.Separates name separator ↔
    (((s.field? name).map Field.type).map FieldType.tagSeparator).getD ',' = separator := by
  cases hdeclared : (s.field? name).map Field.type with
  | none =>
    have hnone : ∀ f ∈ s.fields, f.name = name → False := by
      intro f hf hname
      have hsome := map_type_field?_eq_some_iff.mpr ⟨f, hf, hname, rfl⟩
      rw [hdeclared] at hsome
      cases hsome
    constructor
    · intro h
      cases h with
      | tag hf hname => exact (hnone _ hf hname).elim
      | other => rfl
    · rintro rfl
      exact .other fun f hf hname => (hnone f hf hname).elim
  | some type =>
    obtain ⟨f, hf, rfl, rfl⟩ := map_type_field?_eq_some_iff.mp hdeclared
    constructor
    · intro h
      cases h with
      | tag hg hname htype =>
        obtain rfl := s.eq_of_name hg hf hname
        rw [htype]
        rfl
      | other h =>
        have hother := h f hf rfl
        cases htype : f.type with
        | tag options => exact absurd htype (hother options)
        | _ => rfl
    · rintro rfl
      cases htype : f.type with
      | tag options => exact .tag hf rfl htype
      | _ =>
        refine .other fun g hg hname options hgtype => ?_
        obtain rfl := s.eq_of_name hg hf hname
        rw [htype] at hgtype
        cases hgtype

theorem exists_separates (s : Schema) (name : String) : ∃ separator, s.Separates name separator :=
  ⟨_, separates_iff.mpr rfl⟩

theorem unstorable_vector_iff {f : Field} (hf : f ∈ s.fields) {options : VectorOptions}
    (htype : f.type = .vector options) {items : List Json} :
    s.Unstorable f.name (.array items) ↔
      (∃ item ∈ items, ∀ n, item ≠ .number n) ∨ items.length ≠ options.dims := by
  constructor
  · intro h
    cases h with
    | vectorItems hg hname hgtype hitem hnumber => exact .inl ⟨_, hitem, hnumber⟩
    | vectorLength hg hname hgtype hlength =>
      obtain rfl := s.eq_of_name hg hf hname
      obtain rfl := FieldType.vector.inj (htype.symm.trans hgtype)
      exact .inr hlength
    | listItems hother => exact absurd htype (hother f hf rfl options)
  · rintro (⟨item, hitem, hnumber⟩ | hlength)
    · exact .vectorItems hf rfl htype hitem hnumber
    · exact .vectorLength hf rfl htype hlength

theorem unstorable_list_iff {name : String}
    (hother : ∀ f ∈ s.fields, f.name = name → ∀ options, f.type ≠ .vector options)
    {items : List Json} :
    s.Unstorable name (.array items) ↔ ∃ item ∈ items, ∀ t, item ≠ .string t := by
  constructor
  · intro h
    cases h with
    | vectorItems hg hname hgtype => exact absurd hgtype (hother _ hg hname _)
    | vectorLength hg hname hgtype => exact absurd hgtype (hother _ hg hname _)
    | listItems _ hitem htext => exact ⟨_, hitem, htext⟩
  · rintro ⟨item, hitem, htext⟩
    exact .listItems hother hitem htext

/-- A name is that of a vector field, or no vector field has it. -/
theorem vector_or_other (s : Schema) (name : String) :
    (∃ f ∈ s.fields, f.name = name ∧ ∃ options, f.type = .vector options) ∨
      ∀ f ∈ s.fields, f.name = name → ∀ options, f.type ≠ .vector options := by
  by_cases h : ∃ f ∈ s.fields, f.name = name ∧ ∃ options, f.type = .vector options
  · exact .inl h
  · exact .inr fun f hf hname options htype => h ⟨f, hf, hname, options, htype⟩

section Lists

variable {name : String} {items : List Json} {bytes : Bytes}

theorem listBytes_of_vector {f : Field} (hf : f ∈ s.fields) {options : VectorOptions}
    (htype : f.type = .vector options) : s.listBytes f.name items = .ok bytes ↔
      ∃ values, items.mapM Json.binary64? = some values ∧ values.length = options.dims ∧
        options.elementType.encode values = bytes := by
  rw [listBytes, map_type_field?_eq_some_iff.mpr ⟨f, hf, rfl, htype⟩]
  cases items.mapM Json.binary64? with
  | none => simp
  | some values => by_cases hdims : values.length = options.dims <;> simp [hdims]

theorem listBytes_of_other
    (hother : ∀ f ∈ s.fields, f.name = name → ∀ options, f.type ≠ .vector options) :
    s.listBytes name items = .ok bytes ↔
      ∃ separator texts, s.Separates name separator ∧ items.mapM Json.string? = some texts ∧
        Bytes.ofText ((String.singleton separator).intercalate texts) = bytes := by
  rw [listBytes]
  split
  · rename_i options hdeclared
    obtain ⟨f, hf, hname, htype⟩ := map_type_field?_eq_some_iff.mp hdeclared
    exact absurd htype (hother f hf hname options)
  · cases items.mapM Json.string? with
    | none => simp
    | some texts => simp [separates_iff]

theorem exists_listBytes_iff :
    (∃ bytes, s.listBytes name items = .ok bytes) ↔ ¬s.Unstorable name (.array items) := by
  rcases s.vector_or_other name with ⟨f, hf, rfl, options, htype⟩ | hother
  · simp only [listBytes_of_vector hf htype]
    rw [unstorable_vector_iff hf htype, ← mapM_binary64?_eq_none_iff]
    cases hvalues : items.mapM Json.binary64? with
    | none => simp
    | some values =>
      rw [(mapM_eq_some_iff.mp hvalues).length_eq]
      simp
  · obtain ⟨separator, hseparator⟩ := s.exists_separates name
    simp only [listBytes_of_other hother]
    rw [unstorable_list_iff hother, ← mapM_string?_eq_none_iff]
    cases items.mapM Json.string? with
    | none => simp
    | some texts => simpa using ⟨separator, hseparator⟩

theorem listBytes_eq_ok_iff :
    s.listBytes name items = .ok bytes ↔ s.Stored name (.array items) bytes := by
  rcases s.vector_or_other name with ⟨f, hf, rfl, options, htype⟩ | hother
  · rw [listBytes_of_vector hf htype]
    constructor
    · rintro ⟨values, hvalues, hdims, rfl⟩
      obtain ⟨numbers, rfl, hrounds⟩ := mapM_binary64?_eq_some_iff.mp hvalues
      exact .vector hf rfl htype hdims hrounds
    · intro h
      cases h with
      | @vector g options' numbers values hg hname hgtype hlength hrounds =>
        obtain rfl := s.eq_of_name hg hf hname
        obtain rfl := FieldType.vector.inj (htype.symm.trans hgtype)
        exact ⟨values, mapM_binary64?_eq_some_iff.mpr ⟨numbers, rfl, hrounds⟩, hlength, rfl⟩
      | list hother => exact absurd htype (hother f hf rfl options)
  · rw [listBytes_of_other hother]
    constructor
    · rintro ⟨separator, texts, hseparator, htexts, rfl⟩
      obtain rfl := mapM_string?_eq_some_iff.mp htexts
      exact .list hother hseparator
    · intro h
      cases h with
      | vector hg hname htype => exact absurd htype (hother _ hg hname _)
      | list _ hseparator =>
        exact ⟨_, _, hseparator, mapM_string?_eq_some_iff.mpr rfl, rfl⟩

end Lists

theorem exists_attributeBytes?_iff {name : String} {value : Json} :
    (∃ stored, s.attributeBytes? name value = .ok stored) ↔ ¬s.Unstorable name value := by
  cases value with
  | array items =>
    rw [← exists_listBytes_iff, attributeBytes?]
    cases s.listBytes name items <;> simp [Except.map]
  | object entries => simp [attributeBytes?, Unstorable.object]
  | null => exact ⟨fun _ => nofun, fun _ => ⟨_, rfl⟩⟩
  | bool b => exact ⟨fun _ => nofun, fun _ => ⟨_, rfl⟩⟩
  | number n => exact ⟨fun _ => nofun, fun _ => ⟨_, rfl⟩⟩
  | string text => exact ⟨fun _ => nofun, fun _ => ⟨_, rfl⟩⟩

/-- What is stored of a value is its stored form. -/
theorem attributeBytes?_eq_ok_some_iff {name : String} {value : Json} {bytes : Bytes} :
    s.attributeBytes? name value = .ok (some bytes) ↔ s.Stored name value bytes := by
  cases value with
  | array items =>
    rw [← listBytes_eq_ok_iff, attributeBytes?]
    cases s.listBytes name items <;> simp [Except.map]
  | object entries => exact ⟨nofun, nofun⟩
  | null => exact ⟨nofun, nofun⟩
  | bool b =>
    cases b with
    | true =>
      constructor
      · rintro ⟨⟩
        exact .yes
      · rintro ⟨⟩
        rfl
    | false =>
      constructor
      · rintro ⟨⟩
        exact .no
      · rintro ⟨⟩
        rfl
  | number n =>
    constructor
    · rintro ⟨⟩
      exact .number (JsonNumber.numeral_iff.mpr rfl)
    · intro h
      cases h with
      | number h => rw [attributeBytes?, JsonNumber.numeral_iff.mp h]
  | string text =>
    constructor
    · rintro ⟨⟩
      exact .text text
    · rintro ⟨⟩
      rfl

theorem stored_of_names {name id : String} {value : Json} (h : value.Names id) :
    s.Stored name value (Bytes.ofText id) := by
  cases h with
  | text => exact .text id
  | number h => exact .number h

theorem attributeBytes?_ne_error_empty {name : String} {value : Json} :
    s.attributeBytes? name value ≠ .error .empty := by
  cases value with
  | array items =>
    rw [attributeBytes?, listBytes]
    split
    · split
      · nofun
      · split <;> nofun
    · split <;> nofun
  | object entries => nofun
  | null => nofun
  | bool b => nofun
  | number n => nofun
  | string text => nofun

/-! ## Attributes of a record -/

theorem exists_entryAttributes_iff {entries : List (String × Json)} :
    (∃ attributes, s.entryAttributes entries = .ok attributes) ↔
      ∀ entry ∈ entries, ¬s.Unstorable entry.1 entry.2 := by
  induction entries with
  | nil => simp [entryAttributes]
  | cons entry rest ih =>
    rw [List.forall_mem_cons, ← ih, ← exists_attributeBytes?_iff, entryAttributes]
    simp only [bind_eq_ok_iff]
    constructor
    · rintro ⟨attributes, stored, hstored, later, hlater, -⟩
      exact ⟨⟨stored, hstored⟩, ⟨later, hlater⟩⟩
    · rintro ⟨⟨stored, hstored⟩, ⟨later, hlater⟩⟩
      cases stored with
      | none => exact ⟨_, _, hstored, later, hlater, rfl⟩
      | some bytes => exact ⟨_, _, hstored, later, hlater, rfl⟩

theorem mem_entryAttributes_iff {entries : List (String × Json)} {attributes : Attributes}
    (h : s.entryAttributes entries = .ok attributes) {name : String} {bytes : Bytes} :
    (name, bytes) ∈ attributes ↔
      ∃ value, (name, value) ∈ entries ∧ s.Stored name value bytes := by
  induction entries generalizing attributes with
  | nil =>
    obtain rfl := Except.ok.inj h
    simp
  | cons entry rest ih =>
    obtain ⟨stored, hstored, h⟩ := bind_eq_ok_iff.mp h
    obtain ⟨later, hlater, h⟩ := bind_eq_ok_iff.mp h
    have hfirst : (∃ value, (name, value) = entry ∧ s.Stored name value bytes) ↔
        entry.1 = name ∧ stored = some bytes := by
      constructor
      · rintro ⟨value, rfl, hvalue⟩
        have hvalue := attributeBytes?_eq_ok_some_iff.mpr hvalue
        exact ⟨rfl, Except.ok.inj (hstored.symm.trans hvalue)⟩
      · rintro ⟨rfl, rfl⟩
        exact ⟨entry.2, rfl, attributeBytes?_eq_ok_some_iff.mp hstored⟩
    simp only [List.mem_cons, or_and_right, exists_or, hfirst, ← ih hlater]
    cases stored with
    | none =>
      obtain rfl := Except.ok.inj h
      simp
    | some stored =>
      obtain rfl := Except.ok.inj h
      simp [eq_comm]

theorem entryAttributes_ne_error_empty {entries : List (String × Json)} :
    s.entryAttributes entries ≠ .error .empty := by
  induction entries with
  | nil => nofun
  | cons entry rest ih =>
    intro h
    rcases bind_eq_error_iff.mp h with h | ⟨stored, -, h⟩
    · exact attributeBytes?_ne_error_empty h
    · rcases bind_eq_error_iff.mp h with h | ⟨later, -, h⟩
      · exact ih h
      · cases stored with
        | none => cases h
        | some bytes => cases h

variable {r : Record} {keyField id : String}

/-- A record that can be named has the attribute that names it, so it is not empty. -/
theorem attributes_eq_of_id (hid : r.id keyField = .ok id) :
    s.attributes r = s.entryAttributes r.entries ∧
      ∀ attributes, s.attributes r = .ok attributes →
        (keyField, Bytes.ofText id) ∈ attributes := by
  obtain ⟨value, hvalue, hnames⟩ := Record.id_eq_ok_iff.mp hid
  have hkey : ∀ attributes, s.entryAttributes r.entries = .ok attributes →
      (keyField, Bytes.ofText id) ∈ attributes := fun attributes h =>
    (mem_entryAttributes_iff h).mpr
      ⟨value, Record.get?_eq_some_iff.mp hvalue, stored_of_names hnames⟩
  have heq : s.attributes r = s.entryAttributes r.entries := by
    rw [attributes]
    cases h : s.entryAttributes r.entries with
    | error fault => rfl
    | ok attributes =>
      have hne : attributes.isEmpty = false :=
        List.isEmpty_eq_false_iff.mpr (List.ne_nil_of_mem (hkey attributes h))
      show (if attributes.isEmpty then _ else _) = _
      rw [hne]
      rfl
  exact ⟨heq, fun attributes h => hkey attributes (heq ▸ h)⟩

theorem body_eq_ok_iff_of_hash (hstorage : s.storage = .hash) {body : Body} :
    s.body r = .ok body ↔
      ∃ attributes, s.attributes r = .ok attributes ∧ body = .hash attributes := by
  rw [Schema.body, hstorage]
  cases s.attributes r with
  | error fault => exact ⟨nofun, nofun⟩
  | ok attributes =>
    constructor
    · rintro ⟨⟩
      exact ⟨attributes, rfl, rfl⟩
    · rintro ⟨_, ⟨⟩, rfl⟩
      rfl

theorem body_of_json (hstorage : s.storage = .json) : s.body r = .ok (.json r.toJson) := by
  rw [Schema.body, hstorage]

end Schema

end HybridSearch
