import HybridSearch.Schema.Creation

/-!
# Segments of creation arguments

The segments of the fields stand one behind the other with nothing between them, many of their
arguments may be left out, and a name may be any keyword. Still a row of segments never goes on as a
field does after its first argument. So a flag is never taken for the place of the next field.

* `Field.arguments_eq_cons`: a segment is its first argument and what follows it.
* `segments_ne_following`: what follows a first argument is no row of segments.
* `flagArgument_append_inj`: it can be told whether a flag is given.
-/
namespace HybridSearch

/-! ## A segment -/

namespace Field

def flags (f : Field) : List String :=
  flagArgument f.sortable "SORTABLE" ++ flagArgument f.noIndex "NOINDEX"

/-- The arguments behind the kind of the field. -/
def settings (f : Field) : List String :=
  f.type.arguments ++ f.flags

/-- The argument that begins the segment. -/
def place (f : Field) : Storage → String
  | .hash => f.name
  | .json => f.effectivePath

/-- The arguments behind the first one. -/
def following (f : Field) : Storage → List String
  | .hash => f.kind.keyword :: f.settings
  | .json => "AS" :: f.name :: f.kind.keyword :: f.settings

theorem arguments_eq_cons (f : Field) (storage : Storage) :
    f.arguments storage = f.place storage :: f.following storage := by
  cases storage <;>
    simp [arguments, nameArguments, place, following, settings, flags, List.append_assoc]

end Field

def segments (storage : Storage) (fields : List Field) : List String :=
  fields.flatMap fun f => f.arguments storage

section Segments

variable {storage : Storage}

@[simp] theorem segments_nil : segments storage [] = [] :=
  rfl

theorem segments_cons (f : Field) (fields : List Field) :
    segments storage (f :: fields) =
      f.place storage :: (f.following storage ++ segments storage fields) := by
  rw [segments, List.flatMap_cons, f.arguments_eq_cons, List.cons_append]
  rfl

theorem segments_eq_cons {fields : List Field} {w : String} {rest : List String}
    (h : segments storage fields = w :: rest) :
    ∃ f later, fields = f :: later ∧ f.place storage = w ∧
      f.following storage ++ segments storage later = rest := by
  cases fields with
  | nil => cases h
  | cons f later =>
    rw [segments_cons] at h
    obtain ⟨hplace, hrest⟩ := List.cons.inj h
    exact ⟨f, later, rfl, hplace, hrest⟩

end Segments

/-! ## Keywords of options -/

def optionKeywords : List String :=
  ["SEPARATOR", "CASESENSITIVE", "WEIGHT", "NOSTEM", "PHONETIC", "WITHSUFFIXTRIE", "FLAT", "HNSW",
    "SORTABLE", "NOINDEX"]

theorem keyword_notMem_optionKeywords (kind : FieldKind) : kind.keyword ∉ optionKeywords := by
  cases kind <;> decide

/-- Arguments that begin with one of some keywords, if there are any. -/
def BeginsWithin (keywords arguments : List String) : Prop :=
  ∀ w ∈ arguments.head?, w ∈ keywords

section BeginsWithin

variable {keywords arguments rest : List String}

theorem beginsWithin_of_subset (h : arguments ⊆ keywords) : BeginsWithin keywords arguments :=
  fun _ hw => h (List.mem_of_mem_head? hw)

theorem BeginsWithin.mono {more : List String} (h : BeginsWithin keywords arguments)
    (hsub : keywords ⊆ more) : BeginsWithin more arguments :=
  fun w hw => hsub (h w hw)

/-- Options that are followed by something else than one of their keywords are not there. -/
theorem BeginsWithin.eq_nil_of_append_eq_cons (h : BeginsWithin keywords arguments) {w : String}
    (hw : w ∉ keywords) {tail : List String} (heq : arguments ++ rest = w :: tail) :
    arguments = [] ∧ rest = w :: tail := by
  cases arguments with
  | nil => exact ⟨rfl, heq⟩
  | cons first others =>
    obtain ⟨rfl, -⟩ := List.cons.inj heq
    exact absurd (h first rfl) hw

end BeginsWithin

namespace Field

variable (f : Field)

def flagKeywords : List String :=
  ["SORTABLE", "NOINDEX"]

theorem flags_subset : f.flags ⊆ flagKeywords := by
  rw [flags]
  cases f.sortable <;> cases f.noIndex <;> decide

theorem beginsWithin_settings : BeginsWithin optionKeywords f.settings := by
  have hflags : BeginsWithin optionKeywords f.flags :=
    (beginsWithin_of_subset f.flags_subset).mono (by decide)
  intro w hw
  rw [settings] at hw
  cases htype : f.type with
  | tag options | text options =>
    rw [htype] at hw
    obtain rfl := Option.some.inj hw
    decide
  | vector options =>
    rw [htype] at hw
    obtain rfl := Option.some.inj hw
    have hkeyword : ∀ algorithm : Algorithm, algorithm.keyword ∈ optionKeywords := by
      rintro (_ | _) <;> rw [Algorithm.keyword] <;> decide
    exact hkeyword options.algorithm
  | numeric | geo =>
    rw [htype] at hw
    exact hflags w hw

theorem following_eq_cons (storage : Storage) :
    ∃ w rest, f.following storage = w :: rest ∧ w ∉ optionKeywords := by
  cases storage with
  | hash => exact ⟨_, _, rfl, keyword_notMem_optionKeywords f.kind⟩
  | json => exact ⟨_, _, rfl, by decide⟩

end Field

/-! ## Where a row of segments may begin -/

section Segments

variable {storage : Storage} {fields later : List Field}

/-- In JSON documents, a row of segments that goes on as a field does after its first argument has
to go on, one field later, as a field does from its kind. -/
theorem keyword_cons_of_eq_following {g : Field}
    (h : segments .json fields = g.following .json ++ segments .json later) :
    ∃ (f : Field) (rest : List Field), segments .json later =
      f.kind.keyword :: (f.settings ++ segments .json rest) := by
  obtain ⟨f, rest, -, -, hrest⟩ := segments_eq_cons h
  obtain ⟨-, hrest⟩ := List.cons.inj hrest
  obtain ⟨-, hrest⟩ := List.cons.inj hrest
  exact ⟨f, rest, (g.beginsWithin_settings.eq_nil_of_append_eq_cons
    (keyword_notMem_optionKeywords f.kind) hrest.symm).2⟩

/-- No row of segments goes on as a field does from its kind: the keyword of the kind would be the
first argument of a field, and its kind in turn would begin what is left of the other row, which
is shorter by that. -/
theorem segments_ne_keyword_cons (g : Field) :
    segments storage fields ≠ g.kind.keyword :: (g.settings ++ segments storage later) := by
  induction hlength : (segments storage fields).length using Nat.strongRecOn
    generalizing fields later g with
  | ind n ih =>
    intro h
    have hlater : (segments storage later).length < n := by
      rw [← hlength, h, List.length_cons, List.length_append]
      omega
    obtain ⟨f, rest, rfl, -, hrest⟩ := segments_eq_cons h
    have hshorter : (segments storage rest).length < n := by
      rw [← hlength, segments_cons, List.length_cons, List.length_append]
      omega
    cases storage with
    | hash =>
      obtain ⟨-, hkind⟩ := g.beginsWithin_settings.eq_nil_of_append_eq_cons
        (keyword_notMem_optionKeywords f.kind) hrest.symm
      exact ih _ hlater f rfl hkind
    | json =>
      -- The kind is a path here, so the other row begins with a path too, and is one field behind.
      have has : "AS" ∉ optionKeywords := by decide
      obtain ⟨-, hplace⟩ := g.beginsWithin_settings.eq_nil_of_append_eq_cons has hrest.symm
      obtain ⟨g', rest', hkind⟩ := keyword_cons_of_eq_following (g := f) hplace
      exact ih _ hshorter g' rfl hkind

theorem segments_ne_following (g : Field) :
    segments storage fields ≠ g.following storage ++ segments storage later := by
  intro h
  cases storage with
  | hash => exact segments_ne_keyword_cons g h
  | json =>
    obtain ⟨f, rest, hkind⟩ := keyword_cons_of_eq_following h
    exact segments_ne_keyword_cons f hkind

/-! ## Options in front of a row of segments -/

variable {keyword : String} {keywords a b : List String}

/-- An option that may be left out is not mistaken for the place of a field. -/
theorem keyword_cons_ne (hkeyword : keyword ∉ keywords) (ha : BeginsWithin optionKeywords a)
    (hb : BeginsWithin keywords b) :
    keyword :: (a ++ segments storage fields) ≠ b ++ segments storage later := by
  intro h
  obtain ⟨-, hsegments⟩ := hb.eq_nil_of_append_eq_cons hkeyword h.symm
  obtain ⟨g, rest, -, -, hfollowing⟩ := segments_eq_cons hsegments
  obtain ⟨w, tail, hw, hother⟩ := g.following_eq_cons storage
  have hcons : a ++ segments storage fields = w :: (tail ++ segments storage rest) := by
    rw [← hfollowing, hw, List.cons_append]
  obtain ⟨-, hfields⟩ := ha.eq_nil_of_append_eq_cons hother hcons
  rw [← List.cons_append, ← hw] at hfields
  exact segments_ne_following g hfields

theorem flagArgument_append_inj (hkeyword : keyword ∉ keywords)
    (hkeywords : keywords ⊆ optionKeywords) (ha : BeginsWithin keywords a)
    (hb : BeginsWithin keywords b) {flag flag' : Bool}
    (h : flagArgument flag keyword ++ (a ++ segments storage fields) =
      flagArgument flag' keyword ++ (b ++ segments storage later)) :
    flag = flag' ∧ a ++ segments storage fields = b ++ segments storage later := by
  cases flag with
  | false =>
    cases flag' with
    | false => exact ⟨rfl, h⟩
    | true => exact absurd h.symm (keyword_cons_ne hkeyword (hb.mono hkeywords) ha)
  | true =>
    cases flag' with
    | false => exact absurd h (keyword_cons_ne hkeyword (ha.mono hkeywords) hb)
    | true => exact ⟨rfl, (List.cons.inj h).2⟩

/-- Behind the other settings, the flags and the fields that follow can be told apart. -/
theorem Field.flags_append_inj {f g : Field}
    (h : f.flags ++ segments storage fields = g.flags ++ segments storage later) :
    f.sortable = g.sortable ∧ f.noIndex = g.noIndex ∧
      segments storage fields = segments storage later := by
  rw [flags, flags, List.append_assoc, List.append_assoc] at h
  have hnoIndex : ∀ flag, BeginsWithin ["NOINDEX"] (flagArgument flag "NOINDEX") := by
    intro flag
    cases flag <;> exact beginsWithin_of_subset (by decide)
  have hnone : BeginsWithin [] [] := beginsWithin_of_subset (List.nil_subset _)
  obtain ⟨hsortable, h⟩ :=
    flagArgument_append_inj (by decide) (by decide) (hnoIndex f.noIndex) (hnoIndex g.noIndex) h
  obtain ⟨hindex, h⟩ :=
    flagArgument_append_inj (show "NOINDEX" ∉ [] by decide) (by decide) hnone hnone h
  exact ⟨hsortable, hindex, h⟩

end Segments
end HybridSearch
