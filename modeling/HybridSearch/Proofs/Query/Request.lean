import HybridSearch.Proofs.Query.SearchArguments
import HybridSearch.Proofs.Schema.Fields

/-!
# What a query asks for

The arguments of a compiled query say what the query asks for, and no more than their counts is
needed to read it: the attributes, the sort field and the parameters may have any name that is a
word, also that of a keyword, and a parameter may be any bytes.

* `Query.request`: what a query asks for, said of its own settings.
* `Query.isWord_clauses`: no argument that shapes the answer can be mistaken for part of a text.
* `Query.read?_arguments`: the arguments of a compiled query are read as what it asks for.
-/
namespace HybridSearch

/-! ## Requests -/

/-- The names with one more at the end, unless it is among them. -/
def withName (names : List String) (name : String) : List String :=
  if name ∈ names then names else names ++ [name]

namespace QueryOptions

/-- The attributes asked for: those that are named, or else every declared field that is no
vector. -/
def requested (o : QueryOptions) (s : Schema) : List String :=
  match o.returnFields with
  | some names => names
  | none => s.plainNames

/-- What is asked for by the settings of a query without a vector. -/
def request (o : QueryOptions) (s : Schema) (text : String) : SearchRequest where
  text := text
  returned := o.requested s
  sortBy := o.sortBy
  dialect := 2
  offset := o.offset
  limit := o.limit
  params := []

/-- What is asked for by the settings of a query with a vector: the distance is returned too, and
the answer is ordered by it unless another order is wanted. -/
def requestWithDistance (o : QueryOptions) (s : Schema) (text distanceName : String)
    (params : List (String × Bytes)) : SearchRequest :=
  { o.request s text with
    returned := withName (o.requested s) distanceName
    sortBy := some (o.sortBy.getD ⟨distanceName, true⟩)
    params := params }

end QueryOptions

/-- What a query asks for, given its text. -/
def Query.request (q : Query) (s : Schema) (text : String) : SearchRequest :=
  match q with
  | filter o => o.request s text
  | nearest v _ o => o.requestWithDistance s text v.distanceName [("vector", v.bytes)]
  | within v threshold o =>
    o.requestWithDistance s text v.distanceName
      [("distance_threshold", Bytes.ofText threshold.text), ("vector", v.bytes)]
  | count _ =>
    { text, countOnly := true, returned := [], sortBy := none, dialect := 2, offset := 0,
      limit := 0, params := [] }

/-! ## Words -/

namespace Text

theorem isWord_toString (n : Nat) : isWord (toString n) = true := by
  have hall : (toString n).toList.all isWordChar = true := by
    rw [List.all_eq_true]
    intro c hc
    simp [isWordChar, Char.isAlphanum, Number.isDigit_of_mem_toString hc]
  have hne : (toString n).toList ≠ [] := by
    rw [Number.toList_toString]
    exact Nat.toDigits_ne_nil
  rw [isWord, hall, List.isEmpty_eq_false_iff.mpr hne]
  rfl

end Text

namespace QueryOptions

variable {o : QueryOptions} {s : Schema} {distanceName : Option String}

/-- The settings have passed their check: the names are words, and the sort field is declared or
the name of the distance. -/
theorem check_eq_ok (h : o.check s distanceName = .ok ()) :
    (∀ name ∈ o.names distanceName, Text.isWord name = true) ∧
      ∀ key, o.sortBy = some key →
        distanceName = some key.field ∨ ∃ f ∈ s.fields, f.name = key.field := by
  rw [check] at h
  cases hfind : (o.names distanceName).find? fun name => !Text.isWord name with
  | some name =>
    rw [hfind] at h
    cases h
  | none =>
    refine ⟨by simpa using hfind, fun key hkey => ?_⟩
    rw [hfind, hkey] at h
    have hsort : ¬(distanceName ≠ some key.field ∧ (s.field? key.field).isNone) := by
      intro hnot
      simp only [if_pos hnot] at h
      cases h
    by_cases hdistance : distanceName = some key.field
    · exact .inl hdistance
    · have hdeclared : s.field? key.field ≠ none :=
        fun hnone => hsort ⟨hdistance, by rw [hnone]; rfl⟩
      obtain ⟨f, hf⟩ := Option.ne_none_iff_exists'.mp hdeclared
      exact .inr ⟨f, s.field?_eq_some_iff.mp hf⟩

theorem isWord_of_mem_requested (h : o.check s distanceName = .ok ()) {name : String}
    (hname : name ∈ o.requested s) : Text.isWord name = true := by
  rw [requested] at hname
  cases hfields : o.returnFields with
  | none =>
    rw [hfields] at hname
    obtain ⟨f, hf, rfl⟩ := List.mem_map.mp hname
    exact s.isWord_of_mem (List.mem_of_mem_filter hf)
  | some names =>
    rw [hfields] at hname
    apply (check_eq_ok h).1
    rw [QueryOptions.names, hfields]
    exact List.mem_append_right _ hname

theorem resolvedFields_none : o.resolvedFields s none = o.requested s := by
  rw [resolvedFields, requested]
  cases o.returnFields with
  | none => exact s.plainNames_eq.symm
  | some names => rfl

theorem resolvedFields_some (name : String) :
    o.resolvedFields s (some name) = withName (o.requested s) name := by
  have hnone : o.resolvedFields s none = o.requested s := resolvedFields_none
  simp only [resolvedFields] at hnone ⊢
  rw [hnone, withName]
  simp

theorem isWord_returnClause {fields : List String}
    (h : ∀ name ∈ fields, Text.isWord name = true) :
    ∀ token ∈ returnClause fields, Text.isWord token = true := by
  intro token htoken
  rw [returnClause] at htoken
  split at htoken
  · cases htoken
  · rcases List.mem_cons.mp htoken with rfl | hrest
    · decide
    · rcases List.mem_cons.mp hrest with rfl | hname
      · exact Text.isWord_toString _
      · exact h token hname

theorem isWord_sortClause {key : Option SortKey}
    (h : ∀ k, key = some k → Text.isWord k.field = true) :
    ∀ token ∈ sortClause key, Text.isWord token = true := by
  cases key with
  | none => exact nofun
  | some key =>
    intro token htoken
    simp only [sortClause, List.mem_cons, List.not_mem_nil, or_false] at htoken
    rcases htoken with rfl | rfl | rfl
    · decide
    · exact h key rfl
    · cases key.ascending <;> decide

theorem isWord_pageClause (offset limit : Nat) :
    ∀ token ∈ SearchRequest.pageClause offset limit, Text.isWord token = true := by
  intro token htoken
  simp only [SearchRequest.pageClause, List.mem_cons, List.not_mem_nil, or_false] at htoken
  rcases htoken with rfl | rfl | rfl | rfl | rfl
  · decide
  · exact Text.isWord_toString _
  · decide
  · exact Text.isWord_toString _
  · exact Text.isWord_toString _

theorem isWord_distanceName (h : o.check s distanceName = .ok ()) {name : String}
    (hname : distanceName = some name) : Text.isWord name = true := by
  apply (check_eq_ok h).1
  rw [names, hname]
  exact List.mem_cons_self

theorem isWord_of_mem_resolvedFields (h : o.check s distanceName = .ok ()) {name : String}
    (hname : name ∈ o.resolvedFields s distanceName) : Text.isWord name = true := by
  cases hdistance : distanceName with
  | none =>
    rw [hdistance, resolvedFields_none] at hname
    exact isWord_of_mem_requested h hname
  | some distance =>
    rw [hdistance, resolvedFields_some, withName] at hname
    split at hname
    · exact isWord_of_mem_requested h hname
    · rcases List.mem_append.mp hname with hrequested | hlast
      · exact isWord_of_mem_requested h hrequested
      · rw [List.mem_singleton.mp hlast]
        exact isWord_distanceName h hdistance

theorem isWord_sortField (h : o.check s distanceName = .ok ()) {key : SortKey}
    (hkey : (o.sortBy <|> distanceName.map fun field => ⟨field, true⟩) = some key) :
    Text.isWord key.field = true := by
  cases hsort : o.sortBy with
  | none =>
    rw [hsort] at hkey
    obtain ⟨distance, hdistance, rfl⟩ := Option.map_eq_some_iff.mp hkey
    exact isWord_distanceName h hdistance
  | some chosen =>
    rw [hsort] at hkey
    obtain rfl := Option.some.inj hkey
    rcases (check_eq_ok h).2 _ hsort with hdistance | ⟨f, hf, hname⟩
    · exact isWord_distanceName h hdistance
    · exact hname ▸ s.isWord_of_mem hf

theorem isWord_clauses (h : o.check s distanceName = .ok ()) :
    ∀ token ∈ o.clauses s distanceName, Text.isWord token = true := by
  intro token htoken
  rw [clauses] at htoken
  rcases List.mem_append.mp htoken with hfront | hpage
  · rcases List.mem_append.mp hfront with hreturn | hsort
    · exact isWord_returnClause (fun _ hname => isWord_of_mem_resolvedFields h hname) token hreturn
    · exact isWord_sortClause (fun _ hkey => isWord_sortField h hkey) token hsort
  · exact isWord_pageClause o.offset o.limit token hpage

end QueryOptions

/-! ## Compiled queries -/

namespace Query

variable {q : Query} {s : Schema} {c : CompiledQuery}

theorem compile_filter_eq_ok {o : QueryOptions} (h : (filter o).compile s = .ok c) :
    o.check s none = .ok () ∧ c.clauses = o.clauses s none ∧ c.params = [] := by
  simp only [compile, bind_eq_ok_iff] at h
  obtain ⟨text, -, ⟨⟩, hcheck, hc⟩ := h
  obtain rfl := Except.ok.inj hc
  exact ⟨hcheck, rfl, rfl⟩

/-- What both kinds of queries with a vector check: the text of the filter is left. -/
def checkedText (s : Schema) (v : QueryVector) (o : QueryOptions) : Except QueryError String := do
  let text ← o.filter.compile s
  v.check s
  o.check s (some v.distanceName)
  return text

theorem checkedText_eq_ok {v : QueryVector} {o : QueryOptions} {text : String}
    (h : checkedText s v o = .ok text) :
    o.filter.compile s = .ok text ∧ v.check s = .ok () ∧
      o.check s (some v.distanceName) = .ok () := by
  simp only [checkedText, bind_eq_ok_iff] at h
  obtain ⟨filterText, hfilter, ⟨⟩, hvector, ⟨⟩, hsettings, htext⟩ := h
  obtain rfl := Except.ok.inj htext
  exact ⟨hfilter, hvector, hsettings⟩

theorem compile_nearest_eq (v : QueryVector) (k : Nat) (o : QueryOptions) :
    (nearest v k o).compile s =
      (fun text => ⟨nearestText v k text, o.clauses s (some v.distanceName),
        [("vector", v.bytes)]⟩) <$> checkedText s v o := by
  simp only [compile, checkedText, map_bind, map_pure]
  rfl

theorem compile_within_eq (v : QueryVector) (threshold : Binary64) (o : QueryOptions) :
    (within v threshold o).compile s =
      (fun text => ⟨withinText v text, o.clauses s (some v.distanceName),
        [("distance_threshold", Bytes.ofText threshold.text), ("vector", v.bytes)]⟩) <$>
          checkedText s v o := by
  simp only [compile, checkedText, map_bind, map_pure]
  rfl

theorem compile_nearest_eq_ok {v : QueryVector} {k : Nat} {o : QueryOptions}
    (h : (nearest v k o).compile s = .ok c) :
    o.check s (some v.distanceName) = .ok () ∧
      c.clauses = o.clauses s (some v.distanceName) ∧ c.params = [("vector", v.bytes)] := by
  rw [compile_nearest_eq, map_eq_ok_iff] at h
  obtain ⟨text, htext, rfl⟩ := h
  exact ⟨(checkedText_eq_ok htext).2.2, rfl, rfl⟩

theorem compile_within_eq_ok {v : QueryVector} {threshold : Binary64} {o : QueryOptions}
    (h : (within v threshold o).compile s = .ok c) :
    o.check s (some v.distanceName) = .ok () ∧
      c.clauses = o.clauses s (some v.distanceName) ∧
      c.params =
        [("distance_threshold", Bytes.ofText threshold.text), ("vector", v.bytes)] := by
  rw [compile_within_eq, map_eq_ok_iff] at h
  obtain ⟨text, htext, rfl⟩ := h
  exact ⟨(checkedText_eq_ok htext).2.2, rfl, rfl⟩

theorem compile_count_eq_ok {f : Filter} (h : (count f).compile s = .ok c) :
    c.clauses = countClauses ∧ c.params = [] := by
  simp only [compile, bind_eq_ok_iff] at h
  obtain ⟨text, -, hc⟩ := h
  obtain rfl := Except.ok.inj hc
  exact ⟨rfl, rfl⟩

/-- The clauses of a query for documents, in the parts in which they are read. -/
theorem read?_of_clauses {o : QueryOptions} {distanceName : Option String}
    (hclauses : c.clauses = o.clauses s distanceName) :
    SearchRequest.read? c.arguments =
      some { text := c.text, returned := o.resolvedFields s distanceName,
             sortBy := o.sortBy <|> distanceName.map fun field => ⟨field, true⟩,
             dialect := dialect, offset := o.offset, limit := o.limit, params := c.params } :=
  SearchRequest.read?_documents hclauses

theorem read?_of_distance {v : QueryVector} {o : QueryOptions}
    (hclauses : c.clauses = o.clauses s (some v.distanceName)) :
    SearchRequest.read? c.arguments =
      some (o.requestWithDistance s c.text v.distanceName c.params) := by
  rw [read?_of_clauses hclauses, QueryOptions.resolvedFields_some]
  cases hsort : o.sortBy with
  | none => simp [QueryOptions.requestWithDistance, QueryOptions.request, dialect, hsort]
  | some key => simp [QueryOptions.requestWithDistance, QueryOptions.request, dialect, hsort]

theorem read?_of_compile (h : q.compile s = .ok c) :
    SearchRequest.read? c.arguments = some (q.request s c.text) := by
  cases q with
  | filter o =>
    obtain ⟨-, hclauses, hparams⟩ := compile_filter_eq_ok h
    rw [read?_of_clauses hclauses, QueryOptions.resolvedFields_none, hparams]
    cases hsort : o.sortBy with
    | none => simp [request, QueryOptions.request, dialect, hsort]
    | some key => simp [request, QueryOptions.request, dialect, hsort]
  | nearest v k o =>
    obtain ⟨-, hclauses, hparams⟩ := compile_nearest_eq_ok h
    rw [read?_of_distance hclauses, hparams, request]
  | within v threshold o =>
    obtain ⟨-, hclauses, hparams⟩ := compile_within_eq_ok h
    rw [read?_of_distance hclauses, hparams, request]
  | count f =>
    obtain ⟨hclauses, hparams⟩ := compile_count_eq_ok h
    rw [SearchRequest.read?_count hclauses, hparams, request]
    rfl

theorem isWord_clauses (h : q.compile s = .ok c) :
    ∀ token ∈ c.clauses, Text.isWord token = true := by
  cases q with
  | filter o =>
    obtain ⟨hcheck, hclauses, -⟩ := compile_filter_eq_ok h
    exact hclauses ▸ QueryOptions.isWord_clauses hcheck
  | nearest v k o =>
    obtain ⟨hcheck, hclauses, -⟩ := compile_nearest_eq_ok h
    exact hclauses ▸ QueryOptions.isWord_clauses hcheck
  | within v threshold o =>
    obtain ⟨hcheck, hclauses, -⟩ := compile_within_eq_ok h
    exact hclauses ▸ QueryOptions.isWord_clauses hcheck
  | count f =>
    obtain ⟨hclauses, -⟩ := compile_count_eq_ok h
    rw [hclauses]
    decide

/-- Whatever compiles has arguments that say what is asked for: a reading that goes by the counts
alone takes every argument and finds the text, the attributes, the order, the part of the answer and
the parameters of the query. So no query with the same arguments asks for anything else. And the
arguments between the text and the parameters are words. -/
theorem read?_arguments (h : q.compile s = .ok c) :
    SearchRequest.read? c.arguments = some (q.request s c.text) ∧
      (∀ token ∈ c.clauses, token ≠ "" ∧ ∀ c ∈ token.toList, c.isAlphanum = true ∨ c = '_') ∧
      ∀ q' s' c', Query.compile q' s' = .ok c' → c'.arguments = c.arguments →
        q'.request s' c'.text = q.request s c.text := by
  have hread := read?_of_compile h
  refine ⟨hread, fun token htoken => Text.isWord_iff.mp (isWord_clauses h token htoken),
    fun q' s' c' h' harguments => ?_⟩
  have hread' := read?_of_compile h'
  rw [harguments, hread] at hread'
  exact (Option.some.inj hread').symm

/-- A schema whose fields have the names of keywords. -/
def keywordSchema : Schema where
  name := "words"
  fields := [{ name := "RETURN", type := .numeric }, { name := "LIMIT", type := .geo },
    { name := "v", type := .vector { dims := 1 } }]
  checked := by decide +kernel

/-- A query for the nearest documents that calls the distance by a keyword too. -/
def keywordQuery : Query :=
  nearest { field := "v", bytes := [0x4C, 0x49, 0x80, 0xFF], distanceName := "SORTBY" } 3
    { sortBy := some ⟨"RETURN", false⟩, offset := 20 }

theorem compile_keywordQuery :
    keywordQuery.compile keywordSchema =
      .ok
        { text := "*=>[KNN 3 @v $vector AS SORTBY]"
          clauses := ["RETURN", "3", "RETURN", "LIMIT", "SORTBY", "SORTBY", "RETURN", "DESC",
            "DIALECT", "2", "LIMIT", "20", "10"]
          params := [("vector", [0x4C, 0x49, 0x80, 0xFF])] } := by
  decide +kernel

theorem read?_keywordQuery :
    ∃ c, keywordQuery.compile keywordSchema = .ok c ∧
      SearchRequest.read? c.arguments =
        some
          { text := "*=>[KNN 3 @v $vector AS SORTBY]"
            returned := ["RETURN", "LIMIT", "SORTBY"]
            sortBy := some ⟨"RETURN", false⟩
            dialect := 2
            offset := 20
            limit := 10
            params := [("vector", [0x4C, 0x49, 0x80, 0xFF])] } :=
  ⟨_, compile_keywordQuery, (read?_arguments compile_keywordQuery).1⟩

end Query
end HybridSearch
