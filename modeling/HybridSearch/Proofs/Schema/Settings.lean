import HybridSearch.Proofs.Schema.Segments
import HybridSearch.Proofs.Schema.VectorSegment
import Mathlib.Data.List.Forall2

/-!
# Settings of fields in creation arguments

What stands behind the kind of a field is read back kind by kind, with the segments that follow it
in view. The one option that is free text is the phonetic matcher: in a hash, if no suffix trie is
asked for behind it, the keyword of a kind without settings may be a matcher as well as the kind of a
field named `PHONETIC`.

* `Field.IsWhole`: the fields without such a matcher.
* `phonetic_cons_ne`: no other matcher is mistaken for a kind.
* `Field.settings_append_inj`: the settings of a field.
* `segments_eq_iff`: rows of segments.
-/
namespace HybridSearch

/-! ## Phonetic matchers -/

def phoneticArguments : Option String → List String
  | some matcher => ["PHONETIC", matcher]
  | none => []

theorem FieldType.arguments_text (o : TextOptions) :
    (FieldType.text o).arguments =
      "WEIGHT" :: o.weight.text :: (flagArgument o.noStem "NOSTEM" ++
        (phoneticArguments o.phonetic ++ flagArgument o.suffixTrie "WITHSUFFIXTRIE")) := by
  rw [arguments, List.append_assoc, List.append_assoc]
  rfl

/-- The type of field that a phonetic matcher is also the keyword of, if no other option is behind
it. -/
def TextOptions.hiddenType? (o : TextOptions) : Option FieldType :=
  if o.suffixTrie then none
  else if o.phonetic = some "NUMERIC" then some .numeric
  else if o.phonetic = some "GEO" then some .geo
  else none

theorem TextOptions.hiddenType?_eq_some {o : TextOptions} {type : FieldType}
    (h : o.hiddenType? = some type) : o.suffixTrie = false ∧
      (o.phonetic = some "NUMERIC" ∧ type = .numeric ∨ o.phonetic = some "GEO" ∧ type = .geo) := by
  rw [hiddenType?] at h
  cases htrie : o.suffixTrie with
  | true => rw [htrie, if_pos rfl] at h; cases h
  | false =>
    rw [htrie, if_neg Bool.false_ne_true] at h
    split at h
    · exact ⟨rfl, .inl ⟨‹_›, (Option.some.inj h).symm⟩⟩
    · split at h
      · exact ⟨rfl, .inr ⟨‹_›, (Option.some.inj h).symm⟩⟩
      · cases h

/-- A field that has its arguments to itself. In a hash no text field does whose phonetic matcher is
taken for the kind of a field named `PHONETIC`. -/
def Field.IsWhole (storage : Storage) (f : Field) : Prop :=
  storage = .hash → ∀ options, f.type = .text options → options.hiddenType? = none

/-- The keywords of the kinds without settings. -/
def bareKeywords : List String :=
  ["NUMERIC", "GEO"]

def leadKeywords : List String :=
  ["SEPARATOR", "WEIGHT", "FLAT", "HNSW"]

/-- A kind has no settings, or else they begin with a keyword of its own and a value that is not the
keyword of a kind. -/
theorem FieldType.arguments_cases (type : FieldType) :
    (type.arguments = [] ∧ type.kind.keyword ∈ bareKeywords) ∨
      ∃ first second rest, type.arguments = first :: second :: rest ∧ first ∈ leadKeywords ∧
        ∀ kind : FieldKind, second ≠ kind.keyword := by
  cases type with
  | tag options =>
    exact .inr ⟨_, _, _, rfl, by decide, FieldKind.singleton_ne_keyword options.separator⟩
  | text options =>
    refine .inr ⟨_, _, _, FieldType.arguments_text options, by decide, ?_⟩
    exact FieldKind.ne_keyword_of_numeral (Number.Style.isNumeralChar_of_mem_text options.weight)
  | numeric => exact .inl ⟨rfl, by decide⟩
  | geo => exact .inl ⟨rfl, by decide⟩
  | vector options =>
    refine .inr ⟨_, _, _, rfl, ?_, ?_⟩
    · rcases options.algorithm with _ | _ <;> rw [Algorithm.keyword] <;> decide
    · exact FieldKind.ne_keyword_of_numeral fun c hc =>
        Number.isNumeralChar_of_isDigit (Number.isDigit_of_mem_toString hc)

def trieKeywords : List String :=
  "WITHSUFFIXTRIE" :: Field.flagKeywords

section Segments

variable {storage : Storage} {fields later : List Field}

/-- A phonetic matcher is not mistaken for the kind or the path of a field named `PHONETIC`, but in
the one case that it is the keyword of a kind without settings and nothing parts it from what is
behind it. -/
theorem phonetic_cons_ne {matcher : String} {a b : List String} (ha : a ⊆ trieKeywords)
    (hb : BeginsWithin trieKeywords b)
    (hwhole : storage = .hash → a.head? = some "WITHSUFFIXTRIE" ∨ matcher ∉ bareKeywords) :
    "PHONETIC" :: matcher :: (a ++ segments storage fields) ≠ b ++ segments storage later := by
  intro h
  have hoption : trieKeywords ⊆ optionKeywords := by decide
  obtain ⟨-, hsegments⟩ := hb.eq_nil_of_append_eq_cons (by decide) h.symm
  obtain ⟨g, rest, -, -, hfollowing⟩ := segments_eq_cons hsegments
  cases storage with
  | hash =>
    obtain ⟨hkind, hsettings⟩ := List.cons.inj hfollowing
    rw [Field.settings] at hsettings
    rcases g.type.arguments_cases with
      ⟨hnone, hbare⟩ | ⟨first, second, others, hsome, hfirst, hsecond⟩
    · rw [hnone] at hsettings
      rcases hwhole rfl with hhead | hmatcher
      · obtain ⟨behind, rfl⟩ := List.head?_eq_some_iff.mp hhead
        have hbehind : behind ⊆ optionKeywords :=
          List.Subset.trans (List.cons_subset.mp ha).2 hoption
        exact keyword_cons_ne (by decide) (beginsWithin_of_subset hbehind)
          (beginsWithin_of_subset g.flags_subset) hsettings.symm
      · exact hmatcher (hkind ▸ hbare)
    · rw [hsome] at hsettings
      have hlead : ∀ w ∈ leadKeywords, w ∉ trieKeywords := by decide
      obtain ⟨-, hfields⟩ := (beginsWithin_of_subset ha).eq_nil_of_append_eq_cons
        (hlead first hfirst) hsettings.symm
      obtain ⟨f, _, -, -, hf⟩ := segments_eq_cons hfields
      exact hsecond f.kind (List.cons.inj hf).1.symm
  | json =>
    obtain ⟨-, hname⟩ := List.cons.inj hfollowing
    have hkeyword : g.kind.keyword ∉ optionKeywords := keyword_notMem_optionKeywords g.kind
    cases a with
    | nil =>
      obtain ⟨f, _, -, -, hf⟩ := segments_eq_cons hname.symm
      exact g.kind.as_ne_keyword (List.cons.inj hf).1
    | cons first behind =>
      -- The option behind the matcher would be the name of the field.
      obtain ⟨-, hkind⟩ := List.cons.inj hname
      have hbehind : behind ⊆ optionKeywords :=
        List.Subset.trans (List.cons_subset.mp ha).2 hoption
      obtain ⟨-, hfields⟩ :=
        (beginsWithin_of_subset hbehind).eq_nil_of_append_eq_cons hkeyword hkind.symm
      exact segments_ne_keyword_cons g hfields

theorem phoneticArguments_append_inj {phonetic phonetic' : Option String} {a b : List String}
    (ha : a ⊆ trieKeywords) (hb : b ⊆ trieKeywords)
    (hwhole : storage = .hash →
      a.head? = some "WITHSUFFIXTRIE" ∨ ∀ matcher ∈ phonetic, matcher ∉ bareKeywords)
    (hwhole' : storage = .hash →
      b.head? = some "WITHSUFFIXTRIE" ∨ ∀ matcher ∈ phonetic', matcher ∉ bareKeywords)
    (h : phoneticArguments phonetic ++ (a ++ segments storage fields) =
      phoneticArguments phonetic' ++ (b ++ segments storage later)) :
    phonetic = phonetic' ∧ a ++ segments storage fields = b ++ segments storage later := by
  cases phonetic with
  | none =>
    cases phonetic' with
    | none => exact ⟨rfl, h⟩
    | some matcher' =>
      refine absurd h.symm (phonetic_cons_ne hb (beginsWithin_of_subset ha) fun hhash => ?_)
      exact (hwhole' hhash).imp_right fun hother => hother matcher' rfl
  | some matcher =>
    cases phonetic' with
    | none =>
      refine absurd h (phonetic_cons_ne ha (beginsWithin_of_subset hb) fun hhash => ?_)
      exact (hwhole hhash).imp_right fun hother => hother matcher rfl
    | some matcher' =>
      obtain ⟨hmatcher, hrest⟩ := List.cons.inj (List.cons.inj h).2
      exact ⟨congrArg some hmatcher, hrest⟩

/-! ## Segments that are equal -/

namespace TextOptions

/-- The options of a text field behind its matcher, in front of other arguments. -/
def behindMatcher (o : TextOptions) (behind : List String) : List String :=
  flagArgument o.suffixTrie "WITHSUFFIXTRIE" ++ behind

def behindStem (o : TextOptions) (behind : List String) : List String :=
  phoneticArguments o.phonetic ++ o.behindMatcher behind

theorem arguments_append (o : TextOptions) (behind rest : List String) :
    (FieldType.text o).arguments ++ (behind ++ rest) =
      "WEIGHT" :: o.weight.text ::
        (flagArgument o.noStem "NOSTEM" ++ (o.behindStem behind ++ rest)) := by
  simp only [FieldType.arguments_text, behindStem, behindMatcher, List.cons_append,
    List.append_assoc]

theorem behindMatcher_subset (o : TextOptions) {behind : List String}
    (h : behind ⊆ Field.flagKeywords) : o.behindMatcher behind ⊆ trieKeywords := by
  rw [behindMatcher]
  cases o.suffixTrie with
  | false => exact List.Subset.trans h (List.subset_cons_self _ _)
  | true => exact List.cons_subset_cons _ h

theorem head?_behindMatcher_or {o : TextOptions} (h : o.hiddenType? = none)
    (behind : List String) :
    (o.behindMatcher behind).head? = some "WITHSUFFIXTRIE" ∨
      ∀ matcher ∈ o.phonetic, matcher ∉ bareKeywords := by
  rw [hiddenType?] at h
  rw [behindMatcher]
  cases htrie : o.suffixTrie with
  | true => exact .inl rfl
  | false =>
    refine .inr fun matcher hmatcher hbare => ?_
    rw [Option.mem_def] at hmatcher
    rw [htrie, if_neg Bool.false_ne_true] at h
    rcases List.mem_pair.mp hbare with rfl | rfl
    · rw [if_pos hmatcher] at h
      cases h
    · rw [if_neg (by rw [hmatcher]; decide), if_pos hmatcher] at h
      cases h

theorem beginsWithin_behindStem (o : TextOptions) {behind : List String}
    (h : behind ⊆ Field.flagKeywords) :
    BeginsWithin ("PHONETIC" :: trieKeywords) (o.behindStem behind) := by
  have hmatcher : BeginsWithin trieKeywords (o.behindMatcher behind) :=
    beginsWithin_of_subset (o.behindMatcher_subset h)
  rw [behindStem]
  cases o.phonetic with
  | none => exact hmatcher.mono (List.subset_cons_self _ _)
  | some matcher =>
    intro w hw
    obtain rfl := Option.some.inj hw
    exact List.mem_cons_self

theorem arguments_append_inj {o o' : TextOptions} {a b : List String}
    (ha : a ⊆ Field.flagKeywords) (hb : b ⊆ Field.flagKeywords)
    (ho : storage = .hash → o.hiddenType? = none) (ho' : storage = .hash → o'.hiddenType? = none)
    (h : (FieldType.text o).arguments ++ (a ++ segments storage fields) =
      (FieldType.text o').arguments ++ (b ++ segments storage later)) :
    o.Alike o' ∧ a ++ segments storage fields = b ++ segments storage later := by
  have hstem : "NOSTEM" ∉ "PHONETIC" :: trieKeywords := by decide
  have htrie : "WITHSUFFIXTRIE" ∉ Field.flagKeywords := by decide
  rw [arguments_append, arguments_append] at h
  obtain ⟨hweight, h⟩ := List.cons.inj (List.cons.inj h).2
  obtain ⟨hnoStem, h⟩ := flagArgument_append_inj hstem (by decide) (o.beginsWithin_behindStem ha)
    (o'.beginsWithin_behindStem hb) h
  rw [behindStem, behindStem, List.append_assoc, List.append_assoc] at h
  obtain ⟨hphonetic, h⟩ := phoneticArguments_append_inj (o.behindMatcher_subset ha)
    (o'.behindMatcher_subset hb) (fun hhash => head?_behindMatcher_or (ho hhash) a)
    (fun hhash => head?_behindMatcher_or (ho' hhash) b) h
  rw [behindMatcher, behindMatcher, List.append_assoc, List.append_assoc] at h
  obtain ⟨hsuffixTrie, h⟩ := flagArgument_append_inj htrie (by decide) (beginsWithin_of_subset ha)
    (beginsWithin_of_subset hb) h
  exact ⟨⟨hweight, hnoStem, hphonetic, hsuffixTrie⟩, h⟩

end TextOptions

theorem TagOptions.arguments_append_inj {o o' : TagOptions} {a b : List String}
    (ha : a ⊆ Field.flagKeywords) (hb : b ⊆ Field.flagKeywords)
    (h : (FieldType.tag o).arguments ++ (a ++ segments storage fields) =
      (FieldType.tag o').arguments ++ (b ++ segments storage later)) :
    o = o' ∧ a ++ segments storage fields = b ++ segments storage later := by
  have hkeyword : "CASESENSITIVE" ∉ Field.flagKeywords := by decide
  obtain ⟨hseparator, h⟩ := List.cons.inj (List.cons.inj h).2
  obtain ⟨hcase, hrest⟩ := flagArgument_append_inj hkeyword (by decide) (beginsWithin_of_subset ha)
    (beginsWithin_of_subset hb) h
  have hchar : o.separator = o'.separator := by
    have hchars := congrArg String.toList hseparator
    rw [String.toList_singleton, String.toList_singleton] at hchars
    exact List.singleton_inj.mp hchars
  cases o
  cases o'
  exact ⟨congrArg₂ TagOptions.mk hchar hcase, hrest⟩

theorem Field.settings_append_inj {f g : Field} (hf : f.IsWhole storage) (hg : g.IsWhole storage)
    (hkind : f.kind = g.kind)
    (h : f.settings ++ segments storage fields = g.settings ++ segments storage later) :
    f.type.Alike g.type ∧
      f.flags ++ segments storage fields = g.flags ++ segments storage later := by
  rw [settings, settings, List.append_assoc, List.append_assoc] at h
  rw [kind, kind] at hkind
  have hflags := f.flags_subset
  have hflags' := g.flags_subset
  cases hftype : f.type <;> cases hgtype : g.type <;> rw [hftype, hgtype] at hkind h <;>
    try cases hkind
  case tag.tag o o' =>
    obtain ⟨rfl, hrest⟩ := TagOptions.arguments_append_inj hflags hflags' h
    exact ⟨.tag o, hrest⟩
  case text.text o o' =>
    obtain ⟨halike, h⟩ := TextOptions.arguments_append_inj hflags hflags'
      (fun hhash => hf hhash o hftype) (fun hhash => hg hhash o' hgtype) h
    exact ⟨.text halike, h⟩
  case numeric.numeric => exact ⟨.numeric, h⟩
  case geo.geo => exact ⟨.geo, h⟩
  case vector.vector o o' =>
    obtain ⟨halike, h⟩ := VectorOptions.arguments_append_inj h
    exact ⟨.vector halike, h⟩

theorem Field.following_append_inj {f g : Field} (hf : f.IsWhole storage) (hg : g.IsWhole storage)
    (hplace : f.place storage = g.place storage)
    (h : f.following storage ++ segments storage fields =
      g.following storage ++ segments storage later) :
    f.Alike storage g ∧ segments storage fields = segments storage later := by
  have hhead : f.name = g.name ∧ (storage = .json → f.effectivePath = g.effectivePath) ∧
      f.kind.keyword = g.kind.keyword ∧
      f.settings ++ segments storage fields = g.settings ++ segments storage later := by
    cases storage with
    | hash =>
      obtain ⟨hkeyword, hsettings⟩ := List.cons.inj h
      exact ⟨hplace, nofun, hkeyword, hsettings⟩
    | json =>
      obtain ⟨hname, h⟩ := List.cons.inj (List.cons.inj h).2
      obtain ⟨hkeyword, hsettings⟩ := List.cons.inj h
      exact ⟨hname, fun _ => hplace, hkeyword, hsettings⟩
  obtain ⟨hname, hpath, hkeyword, hsettings⟩ := hhead
  obtain ⟨htype, hflags⟩ := settings_append_inj hf hg (FieldKind.keyword_inj hkeyword) hsettings
  obtain ⟨hsortable, hnoIndex, hrest⟩ := flags_append_inj hflags
  exact ⟨⟨hname, htype, hsortable, hnoIndex, hpath⟩, hrest⟩

/-- Fields that have their arguments to themselves are determined by their segments. -/
theorem segments_eq_iff (hfields : ∀ f ∈ fields, f.IsWhole storage)
    (hlater : ∀ g ∈ later, g.IsWhole storage) :
    segments storage fields = segments storage later ↔
      List.Forall₂ (Field.Alike storage) fields later := by
  constructor
  · intro h
    induction fields generalizing later with
    | nil =>
      cases later with
      | nil => exact .nil
      | cons g later => rw [segments_cons] at h; cases h
    | cons f fields ih =>
      cases later with
      | nil => rw [segments_cons] at h; cases h
      | cons g later =>
        obtain ⟨hf, hfields⟩ := List.forall_mem_cons.mp hfields
        obtain ⟨hg, hlater⟩ := List.forall_mem_cons.mp hlater
        rw [segments_cons, segments_cons] at h
        obtain ⟨hplace, hfollowing⟩ := List.cons.inj h
        obtain ⟨halike, hrest⟩ := Field.following_append_inj hf hg hplace hfollowing
        exact .cons halike (ih hfields hlater hrest)
  · intro h
    clear hfields hlater
    induction h with
    | nil => rfl
    | cons halike _ ih =>
      rw [segments, List.flatMap_cons, halike.arguments_eq]
      exact congrArg _ ih

end Segments
end HybridSearch
