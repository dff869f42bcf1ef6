import HybridSearch.Proofs.Filter.Readability
import HybridSearch.Proofs.Query.Fitting
import HybridSearch.Proofs.Text.Cutting

/-!
# The vector clause of a query text

A vector query is a filter and a clause in one text. The clause has the only equals sign of the text
that no backslash protects, whatever tags and patterns the filter has: so no filter can pass for a
clause, and the text can be taken apart again.

* `Filter.lacks_of_compile`: the text of a filter has no such sign.
* `Filter.eq_matchAllText_iff`: the filters that leave no text of their own.
* `NearestClause.read?`: what stands behind the sign in a query for the nearest documents.
* `Query.clause_of_compile`: where the sign stands, and what stands before and behind it.
-/
namespace HybridSearch

open Text

/-! ## Conditions -/

theorem Text.Lacks.of_isWord {name : String} (h : isWord name = true) : Lacks '=' name :=
  .of_all (isWordChar_of_isWord h) rfl rfl

namespace Predicate

theorem lacks_tagText (values : List String) : Lacks '=' (tagText values) :=
  .enclosed (.of_all_ne (by decide)) (lacks_joinTags rfl (by decide) values)
    (.of_all_ne (by decide))

theorem lacks_of_isOperandChar {t : String} (h : ∀ c ∈ t.toList, isOperandChar c = true) :
    Lacks '=' t :=
  .of_all h rfl rfl

theorem lacks_rangeText (lower upper : Bound) :
    Lacks '=' ("[" ++ lower.lowerText ++ " " ++ upper.upperText ++ "]") := by
  have hlower : Lacks '=' lower.lowerText :=
    lacks_of_isOperandChar (isOperandChar_of_mem_bound (List.all_eq_true.mp (by decide)) lower)
  have hupper : Lacks '=' upper.upperText :=
    lacks_of_isOperandChar (isOperandChar_of_mem_bound (List.all_eq_true.mp (by decide)) upper)
  exact .enclosed (.enclosed (.of_all_ne (by decide)) hlower (.of_all_ne (by decide))) hupper
    (.of_all_ne (by decide))

theorem lacks_circleText (lon lat radius : Binary64) (unit : GeoUnit) :
    Lacks '=' (circleText lon lat radius unit) := by
  have hblank : Lacks '=' " " := .of_all_ne (by decide)
  have hlon : Lacks '=' (Number.sixPlaces lon) :=
    lacks_of_isOperandChar (isOperandChar_of_mem_sixPlaces lon)
  have hlat : Lacks '=' (Number.sixPlaces lat) :=
    lacks_of_isOperandChar (isOperandChar_of_mem_sixPlaces lat)
  have hradius : Lacks '=' radius.text :=
    lacks_of_isOperandChar (isOperandChar_of_mem_text radius)
  have hunit : Lacks '=' unit.text := lacks_of_isOperandChar (isOperandChar_of_mem_unit unit)
  exact (((((hlon.append hblank).append hlat).append hblank).append hradius).append hblank).append
    hunit

theorem lacks_patternText (pattern : String) (fuzzy : Bool) :
    Lacks '=' (patternText pattern fuzzy) := by
  have hescaped : Lacks '=' (escapeText (trim pattern) fuzzy) := lacks_escapeText (by decide) _ _
  rw [patternText]
  split
  · exact hescaped.append (.of_all_ne (by decide))
  · exact hescaped

theorem lacks_phraseText {pattern : String} (h : Lacks '=' pattern) :
    Lacks '=' (phraseText pattern) := by
  rw [phraseText]
  split
  · exact .enclosed (.of_all_ne (by decide)) h (.of_all_ne (by decide))
  · exact h

theorem lacks_operandText (p : Predicate) : Lacks '=' p.operandText := by
  cases p with
  | tag field values => exact lacks_tagText values
  | range field lower upper => exact lacks_rangeText lower upper
  | geo field lon lat radius unit =>
    exact .enclosed (.of_all_ne (by decide)) (lacks_circleText lon lat radius unit)
      (.of_all_ne (by decide))
  | text field pattern fuzzy => exact lacks_phraseText (lacks_patternText pattern fuzzy)
  | all => exact .of_all_ne (by decide)

theorem lacks_fragment {s : Schema} {p : Predicate} (h : p.fault? s = none) :
    Lacks '=' p.fragment := by
  have hall : Lacks '=' matchAllText := .of_all_ne (by decide)
  cases htarget : p.target? with
  | none =>
    rw [fragment, field?, htarget]
    exact hall
  | some target =>
    have hfield : Lacks '=' target.1 := .of_isWord (isWord_of_fault?_eq_none h htarget)
    rw [fragment, field?, htarget]
    exact (Lacks.enclosed (.of_all_ne (by decide)) hfield (.of_all_ne (by decide))).append
      (lacks_operandText p)

end Predicate

/-! ## Filters -/

namespace Filter

variable {s : Schema} {f : Filter} {t : String}

theorem lacks_canonical (h : f.firstFault? s = none) {c : Clause Predicate}
    (hc : f.canonical = some c) : Lacks '=' (c.map Predicate.fragment).text := by
  refine (canonical_induct (motive := fun c => Lacks '=' (c.map Predicate.fragment).text)
    ?_ ?_ f ?_).1 c hc
  · intro op d e rest hmembers
    rw [Clause.map_group, Clause.text_group, List.map_map]
    refine .enclosed (.of_all_ne (by decide)) (.intercalate ?_ fun part hpart => ?_)
      (.of_all_ne (by decide))
    · cases op <;> exact .of_all_ne (by decide)
    · obtain ⟨member, hmember, rfl⟩ := List.mem_map.mp hpart
      exact hmembers member hmember
  · intro d hd
    exact .enclosed (.of_all_ne (by decide)) hd (.of_all_ne (by decide))
  · intro p hp _
    exact Predicate.lacks_fragment (List.findSome?_eq_none_iff.mp h (leaf p) hp)

/-- No equals sign of the text of a filter is unprotected. -/
theorem lacks_of_compile (h : f.compile s = .ok t) : Lacks '=' t := by
  rw [compile_eq, faultOr_eq_ok_iff] at h
  obtain ⟨hfault, rfl⟩ := h
  rw [canonicalText?]
  cases hc : f.canonical with
  | none => exact .of_all_ne (by decide)
  | some c => exact lacks_canonical hfault hc

/-- The text of a filter is that of no filter only if nothing is left of the filter. -/
theorem eq_matchAllText_iff (h : f.compile s = .ok t) :
    t = Predicate.matchAllText ↔ f.isMatchAll = true := by
  have hread := readText?_of_compile h
  rw [compile_eq, faultOr_eq_ok_iff] at h
  obtain ⟨hfault, ht⟩ := h
  rw [← canonical_eq_none_iff hfault]
  constructor
  · rintro rfl
    have hconditions : f.conditions = none := (Option.some.inj hread).symm
    exact Option.map_eq_none_iff.mp hconditions
  · intro hcanonical
    rw [← ht, canonicalText?, hcanonical]
    rfl

end Filter

/-! ## Clauses -/

/-- What a clause for the nearest documents says. -/
structure NearestClause where
  count : Nat
  field : String
  distanceName : String
  deriving DecidableEq

namespace NearestClause

/-- Reads `>[KNN count @field $vector AS name]`, the clause behind its equals sign. -/
def read? (text : String) : Option NearestClause :=
  match text.toList.splitOn ' ' with
  | [opening, count, field, parameter, keyword, name] =>
    if opening = ">[KNN".toList ∧ field.head? = some '@' ∧ parameter = "$vector".toList ∧
        keyword = "AS".toList ∧ name.getLast? = some ']' then
      (Number.ofDigits? (String.ofList count)).map fun k =>
        ⟨k, String.ofList field.tail, String.ofList name.dropLast⟩
    else none
  | _ => none

/-- A clause behind its equals sign. -/
def text (c : NearestClause) : String :=
  ">[KNN " ++ toString c.count ++ " @" ++ c.field ++ " $vector AS " ++ c.distanceName ++ "]"

/-- The words of a clause, blanks apart. -/
def words (c : NearestClause) : List (List Char) :=
  [">[KNN".toList, (toString c.count).toList, '@' :: c.field.toList, "$vector".toList, "AS".toList,
    c.distanceName.toList ++ [']']]

theorem toList_text (c : NearestClause) : c.text.toList = [' '].intercalate c.words := by
  simp [text, words, List.intercalate]

theorem read?_text {c : NearestClause} (hfield : isWord c.field = true)
    (hname : isWord c.distanceName = true) : read? c.text = some c := by
  have hblank : ∀ {name : String}, isWord name = true → ' ' ∉ name.toList := by
    intro name h hmem
    cases isWordChar_of_isWord h ' ' hmem
  have hwords : ∀ word ∈ c.words, ' ' ∉ word := by
    simp only [words, List.forall_mem_cons]
    refine ⟨by decide, hblank (isWord_toString c.count), ?_, by decide, by decide, ?_, nofun⟩
    · simpa using hblank hfield
    · simpa using hblank hname
  rw [read?, toList_text, List.splitOn_intercalate ' ' hwords (List.cons_ne_nil _ _)]
  dsimp only [words]
  rw [if_pos ⟨rfl, rfl, rfl, rfl, List.getLast?_concat⟩, String.ofList_toList,
    Number.ofDigits?_toString, Option.map_some, List.tail_cons, String.ofList_toList,
    List.dropLast_concat, String.ofList_toList]

end NearestClause

/-! ## Queries -/

namespace Query

variable {s : Schema} {v : QueryVector} {t : String}

/-- The clause of a range query up to its equals sign. -/
def rangeHead (field : String) : String :=
  "@" ++ field ++ ":[VECTOR_RANGE $distance_threshold $vector]"

/-- The clause of a range query behind its equals sign. -/
def rangeTail (distanceName : String) : String :=
  ">\x7b$YIELD_DISTANCE_AS: " ++ distanceName ++ "\x7d"

/-- The text of a query has a vector clause if and only if the query has a vector. The clause is the
one of the query, and the filter stands beside it as a query for the number of documents would have
it; only a filter that nothing is left of is missing beside the clause of a range query. -/
def KeepsClause (s : Schema) (text : String) : Query → Prop
  | filter _ => occurrences '=' text = 0
  | count _ => occurrences '=' text = 0
  | nearest v k o => occurrences '=' text = 1 ∧
      ∃ c, (count o.filter).compile s = .ok c ∧ ∃ tail, cut? '=' text = some (c.text, tail) ∧
        NearestClause.read? tail = some ⟨k, v.field, v.distanceName⟩
  | within v _ o => occurrences '=' text = 1 ∧
      ∃ c, (count o.filter).compile s = .ok c ∧ cut? '=' text =
        if o.filter.isMatchAll then some (rangeHead v.field, rangeTail v.distanceName)
        else some ("(" ++ c.text ++ " " ++ rangeHead v.field, rangeTail v.distanceName ++ ")")

theorem compile_count {f : Filter} (h : f.compile s = .ok t) :
    (count f).compile s = .ok ⟨t, countClauses, []⟩ := by
  rw [compile, h]
  rfl

theorem lacks_nearestClause {c : NearestClause} (hfield : isWord c.field = true)
    (hname : isWord c.distanceName = true) : Lacks '=' c.text := by
  have hcount : Lacks '=' (toString c.count) := .of_isWord (isWord_toString c.count)
  have hcounted : Lacks '=' (">[KNN " ++ toString c.count ++ " @") :=
    .enclosed (.of_all_ne (by decide)) hcount (.of_all_ne (by decide))
  have hnamed : Lacks '=' (">[KNN " ++ toString c.count ++ " @" ++ c.field ++ " $vector AS ") :=
    .enclosed hcounted (.of_isWord hfield) (.of_all_ne (by decide))
  exact .enclosed hnamed (.of_isWord hname) (.of_all_ne (by decide))

theorem nearestText_eq (v : QueryVector) (k : Nat) (t : String) : nearestText v k t =
    t ++ String.singleton '=' ++ NearestClause.text ⟨k, v.field, v.distanceName⟩ := by
  have hopening : "=>[KNN " = String.singleton '=' ++ ">[KNN " := by decide
  have hparameter : " $" ++ vectorParam ++ " AS " = " $vector AS " := by decide
  calc nearestText v k t
    _ = t ++ "=>[KNN " ++ toString k ++ " @" ++ v.field ++ (" $" ++ vectorParam ++ " AS ") ++
        v.distanceName ++ "]" := by
      simp only [nearestText, String.append_assoc]
    _ = t ++ String.singleton '=' ++ NearestClause.text ⟨k, v.field, v.distanceName⟩ := by
      simp only [hopening, hparameter, NearestClause.text, String.append_assoc]

theorem rangeClause_eq (v : QueryVector) :
    rangeClause v = rangeHead v.field ++ String.singleton '=' ++ rangeTail v.distanceName := by
  have hmiddle : ":[VECTOR_RANGE $" ++ thresholdParam ++ " $" ++ vectorParam ++
      "]=>\x7b$YIELD_DISTANCE_AS: " = ":[VECTOR_RANGE $distance_threshold $vector]" ++
        String.singleton '=' ++ ">\x7b$YIELD_DISTANCE_AS: " := by decide
  calc rangeClause v
    _ = "@" ++ v.field ++ (":[VECTOR_RANGE $" ++ thresholdParam ++ " $" ++ vectorParam ++
        "]=>\x7b$YIELD_DISTANCE_AS: ") ++ v.distanceName ++ "\x7d" := by
      simp only [rangeClause, String.append_assoc]
    _ = "@" ++ v.field ++ (":[VECTOR_RANGE $distance_threshold $vector]" ++
        String.singleton '=' ++ ">\x7b$YIELD_DISTANCE_AS: ") ++ v.distanceName ++ "\x7d" :=
      congrArg (fun middle => "@" ++ v.field ++ middle ++ v.distanceName ++ "\x7d") hmiddle
    _ = rangeHead v.field ++ String.singleton '=' ++ rangeTail v.distanceName := by
      unfold rangeHead rangeTail
      simp only [String.append_assoc]

theorem lacks_rangeHead (h : isWord v.field = true) : Lacks '=' (rangeHead v.field) :=
  .enclosed (.of_all_ne (by decide)) (.of_isWord h) (.of_all_ne (by decide))

theorem lacks_rangeTail (h : isWord v.distanceName = true) : Lacks '=' (rangeTail v.distanceName) :=
  .enclosed (.of_all_ne (by decide)) (.of_isWord h) (.of_all_ne (by decide))

theorem keepsClause_nearest {o : QueryOptions} (h : checkedText s v o = .ok t) (k : Nat) :
    KeepsClause s (nearestText v k t) (nearest v k o) := by
  obtain ⟨hfilter, -⟩ := checkedText_eq_ok h
  obtain ⟨hfield, hname⟩ := isWord_of_checkedText h
  have hbefore : Lacks '=' t := Filter.lacks_of_compile hfilter
  have hbehind : Lacks '=' (NearestClause.text ⟨k, v.field, v.distanceName⟩) :=
    lacks_nearestClause hfield hname
  rw [nearestText_eq]
  refine ⟨hbefore.occurrences_between (by decide) hbehind, _, compile_count hfilter, _,
    hbefore.cut?_between (by decide) _, NearestClause.read?_text hfield hname⟩

theorem keepsClause_within {o : QueryOptions} (h : checkedText s v o = .ok t)
    (threshold : Binary64) : KeepsClause s (withinText v t) (within v threshold o) := by
  obtain ⟨hfilter, -⟩ := checkedText_eq_ok h
  obtain ⟨hfield, hname⟩ := isWord_of_checkedText h
  have hhead : Lacks '=' (rangeHead v.field) := lacks_rangeHead hfield
  have htail : Lacks '=' (rangeTail v.distanceName) := lacks_rangeTail hname
  have hmatch := Filter.eq_matchAllText_iff hfilter
  by_cases hall : o.filter.isMatchAll = true
  · have htext : withinText v t =
        rangeHead v.field ++ String.singleton '=' ++ rangeTail v.distanceName := by
      rw [withinText, if_pos (hmatch.mpr hall), rangeClause_eq]
    rw [htext]
    refine ⟨hhead.occurrences_between (by decide) htail, _, compile_count hfilter, ?_⟩
    rw [if_pos hall]
    exact hhead.cut?_between (by decide) _
  · have htext : withinText v t = "(" ++ t ++ " " ++ rangeHead v.field ++ String.singleton '=' ++
        (rangeTail v.distanceName ++ ")") := by
      rw [withinText, if_neg fun heq => hall (hmatch.mp heq), rangeClause_eq]
      simp only [String.append_assoc]
    have hbefore : Lacks '=' ("(" ++ t ++ " " ++ rangeHead v.field) :=
      (Lacks.enclosed (.of_all_ne (by decide)) (Filter.lacks_of_compile hfilter)
        (.of_all_ne (by decide))).append hhead
    have hbehind : Lacks '=' (rangeTail v.distanceName ++ ")") :=
      htail.append (.of_all_ne (by decide))
    rw [htext]
    refine ⟨hbefore.occurrences_between (by decide) hbehind, _, compile_count hfilter, ?_⟩
    rw [if_neg hall]
    exact hbefore.cut?_between (by decide) _

/-- No query can have a vector clause put into its text or taken out of it by what its filter says:
the equals sign of the clause is the only unprotected one, the query can be read from what stands
around it, and no filter is dropped unless nothing is left of it. -/
theorem clause_of_compile {q : Query} {c : CompiledQuery} (h : q.compile s = .ok c) :
    KeepsClause s c.text q := by
  cases q with
  | filter o =>
    simp only [compile, bind_eq_ok_iff] at h
    obtain ⟨t, hfilter, -, -, hc⟩ := h
    obtain rfl := Except.ok.inj hc
    exact (Filter.lacks_of_compile hfilter).occurrences_eq_zero
  | count f =>
    simp only [compile, bind_eq_ok_iff] at h
    obtain ⟨t, hfilter, hc⟩ := h
    obtain rfl := Except.ok.inj hc
    exact (Filter.lacks_of_compile hfilter).occurrences_eq_zero
  | nearest v k o =>
    rw [compile_nearest_eq, map_eq_ok_iff] at h
    obtain ⟨t, ht, rfl⟩ := h
    exact keepsClause_nearest ht k
  | within v threshold o =>
    rw [compile_within_eq, map_eq_ok_iff] at h
    obtain ⟨t, ht, rfl⟩ := h
    exact keepsClause_within ht threshold

/-- A schema with a tag beside its vectors. -/
def taggedSchema : Schema where
  name := "tagged"
  fields := [{ name := "tag", type := .tag {} }, { name := "v", type := .vector { dims := 1 } }]
  checked := by decide +kernel

/-- A tag that looks like a clause for the nearest documents. -/
def clauseTag : Filter :=
  .leaf (.tag "tag" ["x]=>[KNN 9 @w]"])

theorem compile_clauseTag : clauseTag.compile taggedSchema =
    .ok "@tag:\x7bx\\]\\=\\>\\[KNN\\ 9\\ \\@w\\]\x7d" := by
  have hcanonical : clauseTag.canonical = some (.leaf (.tag "tag" ["x]=>[KNN 9 @w]"])) :=
    Filter.canonical_leaf nofun
  rw [Filter.compile_eq, Filter.canonicalText?, hcanonical, faultOr_eq_ok_iff]
  exact ⟨by decide +kernel, by decide +kernel⟩

/-- A range query for that tag. -/
def clauseTagged : Query :=
  within { field := "v", bytes := [0, 0, 128, 63] } ⟨0⟩ { filter := clauseTag }

theorem clause_of_clauseTagged :
    ∃ c, clauseTagged.compile taggedSchema = .ok c ∧ occurrences '=' c.text = 1 ∧
      ∃ counted, (count clauseTag).compile taggedSchema = .ok counted ∧
        cut? '=' c.text =
          some ("(" ++ counted.text ++ " " ++ rangeHead "v", rangeTail "vector_distance" ++ ")") := by
  let v : QueryVector := { field := "v", bytes := [0, 0, 128, 63] }
  have hvector : v.check taggedSchema = .ok () := by decide +kernel
  have hoptions : QueryOptions.check { filter := clauseTag } taggedSchema (some v.distanceName) =
      .ok () := by decide +kernel
  have hcompiled : ∃ c, clauseTagged.compile taggedSchema = .ok c := by
    rw [clauseTagged, compile_within_eq, checkedText, compile_clauseTag, hvector, hoptions]
    exact ⟨_, rfl⟩
  obtain ⟨c, hc⟩ := hcompiled
  exact ⟨c, hc, clause_of_compile hc⟩

end Query
end HybridSearch
