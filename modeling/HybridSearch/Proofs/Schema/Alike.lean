import HybridSearch.Proofs.Number.Characters
import HybridSearch.Schema.Creation

/-!
# Fields that are alike

Creation arguments show the numbers of a field by their texts and everything else of it as it is, so
they can at best determine a field up to what else the numbers are.

* `Field.Alike`: fields that differ in nothing but how their numbers are stored.
* `Field.Alike.arguments_eq`: they have the same arguments.
-/
namespace HybridSearch

/-! ## Keywords -/

theorem Storage.ofText?_keyword (a : Storage) : Storage.ofText? a.keyword = some a := by
  cases a <;> decide +kernel

theorem Metric.ofText?_keyword (a : Metric) : Metric.ofText? a.keyword = some a := by
  cases a <;> decide +kernel

theorem ElementType.ofText?_keyword (a : ElementType) : ElementType.ofText? a.keyword = some a := by
  cases a <;> decide +kernel

/-- Options are told apart by their keywords if these are read back. -/
theorem eq_of_keyword_eq {α : Type} {keyword : α → String} {ofText? : String → Option α}
    (hread : ∀ a, ofText? (keyword a) = some a) {a b : α} (h : keyword a = keyword b) : a = b := by
  have ha := hread a
  rw [h, hread b] at ha
  exact (Option.some.inj ha).symm

theorem FieldKind.keyword_inj {a b : FieldKind} (h : a.keyword = b.keyword) : a = b := by
  cases a <;> cases b <;> first | rfl | exact absurd h (by decide)

/-- The keyword of a kind is no number. -/
theorem FieldKind.ne_keyword_of_numeral {text : String}
    (h : ∀ c ∈ text.toList, Number.isNumeralChar c = true) (kind : FieldKind) :
    text ≠ kind.keyword := by
  rintro rfl
  have hall : kind.keyword.toList.all Number.isNumeralChar = true := List.all_eq_true.mpr h
  cases kind <;> exact absurd hall (by decide)

theorem FieldKind.singleton_ne_keyword (c : Char) (kind : FieldKind) :
    String.singleton c ≠ kind.keyword := by
  intro h
  have hlength : kind.keyword.toList.length = 1 := by rw [← h, String.toList_singleton]; rfl
  cases kind <;> exact absurd hlength (by decide)

theorem FieldKind.as_ne_keyword (kind : FieldKind) : "AS" ≠ kind.keyword := by
  cases kind <;> decide

/-! ## Fields that are alike -/

inductive Algorithm.Alike : Algorithm → Algorithm → Prop
  | flat (blockSize : Option Nat) : Alike (.flat blockSize) (.flat blockSize)
  | hnsw {a b : GraphOptions} (hm : a.m = b.m) (hconstruction : a.efConstruction = b.efConstruction)
    (hruntime : a.efRuntime = b.efRuntime) (hepsilon : a.epsilon.text = b.epsilon.text) :
    Alike (.hnsw a) (.hnsw b)

structure VectorOptions.Alike (a b : VectorOptions) : Prop where
  dims : a.dims = b.dims
  algorithm : a.algorithm.Alike b.algorithm
  elementType : a.elementType = b.elementType
  metric : a.metric = b.metric
  initialCap : a.initialCap = b.initialCap

structure TextOptions.Alike (a b : TextOptions) : Prop where
  weight : a.weight.text = b.weight.text
  noStem : a.noStem = b.noStem
  phonetic : a.phonetic = b.phonetic
  suffixTrie : a.suffixTrie = b.suffixTrie

inductive FieldType.Alike : FieldType → FieldType → Prop
  | tag (options : TagOptions) : Alike (.tag options) (.tag options)
  | text {a b : TextOptions} (h : a.Alike b) : Alike (.text a) (.text b)
  | numeric : Alike .numeric .numeric
  | geo : Alike .geo .geo
  | vector {a b : VectorOptions} (h : a.Alike b) : Alike (.vector a) (.vector b)

/-- Fields of the same name, kind, options and flags, numbers being compared by their texts; in JSON
documents also with values in the same place, which is the path that is declared or the member with
the name of the field. -/
structure Field.Alike (storage : Storage) (f g : Field) : Prop where
  name : f.name = g.name
  type : f.type.Alike g.type
  sortable : f.sortable = g.sortable
  noIndex : f.noIndex = g.noIndex
  path : storage = .json → f.path.getD ("$." ++ f.name) = g.path.getD ("$." ++ g.name)

theorem Algorithm.Alike.settings_eq {a b : Algorithm} (h : a.Alike b) :
    a.keyword = b.keyword ∧ a.settings = b.settings := by
  cases h with
  | flat => exact ⟨rfl, rfl⟩
  | hnsw hm hconstruction hruntime hepsilon =>
    simp only [keyword, settings, hm, hconstruction, hruntime, hepsilon, and_self]

theorem VectorOptions.Alike.arguments_eq {a b : VectorOptions} (h : a.Alike b) :
    a.arguments = b.arguments := by
  obtain ⟨hkeyword, hsettings⟩ := h.algorithm.settings_eq
  have hall : a.settings = b.settings := by
    rw [settings, settings, h.dims, h.elementType, h.metric, h.initialCap, hsettings]
  rw [arguments, arguments, hkeyword, hall]

theorem FieldType.Alike.arguments_eq {a b : FieldType} (h : a.Alike b) :
    a.arguments = b.arguments := by
  cases h with
  | tag | numeric | geo => rfl
  | text h =>
    simp only [arguments, h.weight, h.noStem, h.phonetic, h.suffixTrie]
  | vector h => exact h.arguments_eq

theorem FieldType.Alike.kind_eq {a b : FieldType} (h : a.Alike b) : a.kind = b.kind := by
  cases h <;> rfl

theorem Field.Alike.arguments_eq {storage : Storage} {f g : Field} (h : f.Alike storage g) :
    f.arguments storage = g.arguments storage := by
  have hplace : f.nameArguments storage = g.nameArguments storage := by
    cases storage with
    | hash => rw [nameArguments, nameArguments, h.name]
    | json =>
      have hpath : f.effectivePath = g.effectivePath := h.path rfl
      rw [nameArguments, nameArguments, h.name, hpath]
  simp only [arguments, kind, hplace, h.type.kind_eq, h.type.arguments_eq, h.sortable, h.noIndex]

end HybridSearch
