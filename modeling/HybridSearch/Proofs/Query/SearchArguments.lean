import HybridSearch.Proofs.Number.Naturals
import HybridSearch.Query

/-!
# Reading search arguments

A reader of the arguments of a search. It goes from left to right and takes as many arguments as the
counts say; an argument is compared with a keyword only where a clause may begin, so that names and
values may be keywords themselves.

```text
arguments  ::=  text ("NOCONTENT" | returned)? sort? page params?
returned   ::=  "RETURN" n name₁ … nameₙ
sort       ::=  "SORTBY" field ("ASC" | "DESC")
page       ::=  "DIALECT" number "LIMIT" offset limit
params     ::=  "PARAMS" 2n name₁ value₁ … nameₙ valueₙ
```

* `SearchRequest.read?`: what a row of arguments asks for; none unless every argument is taken.
* `SearchRequest.read?_documents`, `SearchRequest.read?_count`: compiled queries are read back.
-/
namespace HybridSearch

/-- What a row of search arguments asks for. -/
structure SearchRequest where
  text : String
  /-- Whether only the number of documents is wanted. -/
  countOnly : Bool := false
  returned : List String
  sortBy : Option SortKey
  dialect : Nat
  offset : Nat
  limit : Nat
  params : List (String × Bytes)
  deriving DecidableEq

namespace SearchRequest

/-! ## The reader

Each step gives what it has taken from the beginning of the arguments, and those after it. -/

def takeText? : List Bytes → Option (String × List Bytes)
  | [] => none
  | argument :: rest => (Bytes.text? argument).map fun s => (s, rest)

def takeNatural? (arguments : List Bytes) : Option (Nat × List Bytes) := do
  let (digits, rest) ← takeText? arguments
  let n ← Number.ofDigits? digits
  return (n, rest)

def takeTexts? : (count : Nat) → List Bytes → Option (List String × List Bytes)
  | 0, arguments => some ([], arguments)
  | count + 1, arguments => do
    let (first, rest) ← takeText? arguments
    let (others, rest) ← takeTexts? count rest
    return (first :: others, rest)

def takePairs? : (count : Nat) → List Bytes → Option (List (String × Bytes) × List Bytes)
  | 0, arguments => some ([], arguments)
  | _ + 1, [] => none
  | _ + 1, [_] => none
  | count + 1, name :: value :: rest => do
    let name ← Bytes.text? name
    let (others, rest) ← takePairs? count rest
    return ((name, value) :: others, rest)

def afterKeyword? (keyword : String) : List Bytes → Option (List Bytes)
  | [] => none
  | argument :: rest => if argument = Bytes.ofText keyword then some rest else none

/-- What `take` takes after a keyword. Without the keyword nothing is taken. -/
def takeClause? {α : Type} (keyword : String) (absent : α)
    (take : List Bytes → Option (α × List Bytes)) (arguments : List Bytes) :
    Option (α × List Bytes) :=
  match afterKeyword? keyword arguments with
  | some rest => take rest
  | none => some (absent, arguments)

def takeCountOnly? : List Bytes → Option (Bool × List Bytes) :=
  takeClause? "NOCONTENT" false fun rest => some (true, rest)

def takeReturned? : List Bytes → Option (List String × List Bytes) :=
  takeClause? "RETURN" [] fun rest => do
    let (count, rest) ← takeNatural? rest
    takeTexts? count rest

def takeSortKey? : List Bytes → Option (Option SortKey × List Bytes) :=
  takeClause? "SORTBY" none fun rest => do
    let (field, rest) ← takeText? rest
    let (order, rest) ← takeText? rest
    if order = "ASC" then some (some ⟨field, true⟩, rest)
    else if order = "DESC" then some (some ⟨field, false⟩, rest)
    else none

/-- The dialect, the offset and the limit. -/
def takePage? (arguments : List Bytes) : Option ((Nat × Nat × Nat) × List Bytes) := do
  let rest ← afterKeyword? "DIALECT" arguments
  let (dialect, rest) ← takeNatural? rest
  let rest ← afterKeyword? "LIMIT" rest
  let (offset, rest) ← takeNatural? rest
  let (limit, rest) ← takeNatural? rest
  return ((dialect, offset, limit), rest)

def takeParams? : List Bytes → Option (List (String × Bytes) × List Bytes) :=
  takeClause? "PARAMS" [] fun rest => do
    let (count, rest) ← takeNatural? rest
    if count % 2 = 0 then takePairs? (count / 2) rest else none

def read? (arguments : List Bytes) : Option SearchRequest := do
  let (text, rest) ← takeText? arguments
  let (countOnly, rest) ← takeCountOnly? rest
  let (returned, rest) ← if countOnly then some ([], rest) else takeReturned? rest
  let (sortBy, rest) ← takeSortKey? rest
  let ((dialect, offset, limit), rest) ← takePage? rest
  let (params, rest) ← takeParams? rest
  if rest.isEmpty then some { text, countOnly, returned, sortBy, dialect, offset, limit, params }
  else none

/-! ## Single arguments -/

@[simp] theorem takeText?_cons (s : String) (rest : List Bytes) :
    takeText? (Bytes.ofText s :: rest) = some (s, rest) := by
  simp [takeText?, Bytes.text?_ofText]

theorem takeNatural?_cons (n : Nat) (rest : List Bytes) :
    takeNatural? (Bytes.ofText (toString n) :: rest) = some (n, rest) := by
  simp only [takeNatural?, takeText?_cons, Option.bind_eq_bind, Option.bind_some,
    Number.ofDigits?_toString, Option.pure_def]

theorem takeTexts?_append (names : List String) (rest : List Bytes) :
    takeTexts? names.length (names.map Bytes.ofText ++ rest) = some (names, rest) := by
  induction names with
  | nil => rfl
  | cons name names ih => simp [takeTexts?, ih]

theorem takePairs?_append (params : List (String × Bytes)) (rest : List Bytes) :
    takePairs? params.length
        ((params.flatMap fun param => [Bytes.ofText param.1, param.2]) ++ rest) =
      some (params, rest) := by
  induction params with
  | nil => rfl
  | cons param params ih => simp [takePairs?, Bytes.text?_ofText, ih]

@[simp] theorem afterKeyword?_self (keyword : String) (rest : List Bytes) :
    afterKeyword? keyword (Bytes.ofText keyword :: rest) = some rest := by
  simp [afterKeyword?]

theorem afterKeyword?_other {keyword other : String} (h : other ≠ keyword) (rest : List Bytes) :
    afterKeyword? keyword (Bytes.ofText other :: rest) = none :=
  if_neg fun heq => h (Bytes.ofText_injective heq)

/-! ## Clauses

A clause that may be missing is told from what follows it by the keyword that comes next. -/

theorem takeClause?_self {α : Type} (keyword : String) (absent : α)
    (take : List Bytes → Option (α × List Bytes)) (rest : List Bytes) :
    takeClause? keyword absent take (Bytes.ofText keyword :: rest) = take rest := by
  simp [takeClause?]

theorem takeClause?_absent {α : Type} {keyword : String} {absent : α}
    {take : List Bytes → Option (α × List Bytes)} {rest : List Bytes}
    (h : afterKeyword? keyword rest = none) :
    takeClause? keyword absent take rest = some (absent, rest) := by
  simp [takeClause?, h]

theorem takeReturned?_append (fields : List String) {rest : List Bytes}
    (h : afterKeyword? "RETURN" rest = none) :
    takeReturned? ((QueryOptions.returnClause fields).map Bytes.ofText ++ rest) =
      some (fields, rest) := by
  cases fields with
  | nil => exact takeClause?_absent h
  | cons field fields =>
    rw [takeReturned?, QueryOptions.returnClause, if_neg (by simp), List.map_cons, List.map_cons,
      List.cons_append, List.cons_append, takeClause?_self, takeNatural?_cons]
    exact takeTexts?_append (field :: fields) rest

theorem takeSortKey?_append (key : Option SortKey) {rest : List Bytes}
    (h : afterKeyword? "SORTBY" rest = none) :
    takeSortKey? ((QueryOptions.sortClause key).map Bytes.ofText ++ rest) = some (key, rest) := by
  cases key with
  | none => exact takeClause?_absent h
  | some key =>
    obtain ⟨field, ascending⟩ := key
    cases ascending with
    | true => simp [takeSortKey?, QueryOptions.sortClause, takeClause?_self]
    | false => simp [takeSortKey?, QueryOptions.sortClause, takeClause?_self]

/-- The arguments for the dialect and the part of the answer that is wanted. -/
def pageClause (offset limit : Nat) : List String :=
  ["DIALECT", toString HybridSearch.dialect, "LIMIT", toString offset, toString limit]

theorem takePage?_append (offset limit : Nat) (rest : List Bytes) :
    takePage? ((pageClause offset limit).map Bytes.ofText ++ rest) =
      some ((HybridSearch.dialect, offset, limit), rest) := by
  simp only [takePage?, pageClause, List.map_cons, List.map_nil, List.cons_append, List.nil_append,
    afterKeyword?_self, takeNatural?_cons, Option.bind_eq_bind, Option.bind_some, Option.pure_def]

theorem takeParams?_paramArguments (c : CompiledQuery) :
    takeParams? c.paramArguments = some (c.params, []) := by
  rw [CompiledQuery.paramArguments]
  cases hparams : c.params with
  | nil => rfl
  | cons param params =>
    have hpairs := takePairs?_append (param :: params) []
    rw [List.append_nil] at hpairs
    simp only [List.isEmpty_cons, Bool.false_eq_true, if_false, takeParams?, takeClause?_self,
      takeNatural?_cons, Option.bind_eq_bind, Option.bind_some, Nat.mul_mod_right, if_true,
      Nat.mul_div_cancel_left _ (by decide : 0 < 2)]
    exact hpairs

/-! ## Compiled queries -/

theorem afterKeyword?_sort {keyword : String} (hkeyword : keyword ≠ "SORTBY")
    (key : Option SortKey) {rest : List Bytes} (h : afterKeyword? keyword rest = none) :
    afterKeyword? keyword ((QueryOptions.sortClause key).map Bytes.ofText ++ rest) = none := by
  cases key with
  | none => exact h
  | some key => exact afterKeyword?_other hkeyword.symm _

theorem afterKeyword?_return {keyword : String} (hkeyword : keyword ≠ "RETURN")
    (fields : List String) {rest : List Bytes} (h : afterKeyword? keyword rest = none) :
    afterKeyword? keyword ((QueryOptions.returnClause fields).map Bytes.ofText ++ rest) = none := by
  cases fields with
  | nil => exact h
  | cons field fields => exact afterKeyword?_other hkeyword.symm _

/-- A query for documents is read back: its clauses stand in one row, each of the first two possibly
missing, and then the parameters. -/
theorem read?_documents {c : CompiledQuery} {fields : List String} {key : Option SortKey}
    {offset limit : Nat}
    (h : c.clauses = QueryOptions.returnClause fields ++ QueryOptions.sortClause key ++
      pageClause offset limit) :
    read? c.arguments =
      some { text := c.text, returned := fields, sortBy := key, dialect := HybridSearch.dialect,
             offset, limit, params := c.params } := by
  let params := c.paramArguments
  let page := (pageClause offset limit).map Bytes.ofText ++ params
  let sort := (QueryOptions.sortClause key).map Bytes.ofText ++ page
  let shape := (QueryOptions.returnClause fields).map Bytes.ofText ++ sort
  have harguments : c.arguments = Bytes.ofText c.text :: shape := by
    simp [CompiledQuery.arguments, h, shape, sort, page, params]
  have hpage : ∀ keyword : String, keyword ≠ "DIALECT" → afterKeyword? keyword page = none :=
    fun keyword hne => afterKeyword?_other hne.symm _
  have hcount : takeCountOnly? shape = some (false, shape) :=
    takeClause?_absent <| afterKeyword?_return (by decide) fields <|
      afterKeyword?_sort (by decide) key <| hpage _ (by decide)
  have hreturned : takeReturned? shape = some (fields, sort) :=
    takeReturned?_append fields <| afterKeyword?_sort (by decide) key <| hpage _ (by decide)
  have hsort : takeSortKey? sort = some (key, page) :=
    takeSortKey?_append key <| hpage _ (by decide)
  have hpageRead : takePage? page = some ((HybridSearch.dialect, offset, limit), params) :=
    takePage?_append offset limit params
  have hparams : takeParams? params = some (c.params, []) := takeParams?_paramArguments c
  rw [harguments, read?]
  simp [hcount, hreturned, hsort, hpageRead, hparams]

/-- A query for a number is read back. -/
theorem read?_count {c : CompiledQuery} (h : c.clauses = Query.countClauses) :
    read? c.arguments =
      some { text := c.text, countOnly := true, returned := [], sortBy := none,
             dialect := HybridSearch.dialect, offset := 0, limit := 0, params := c.params } := by
  let params := c.paramArguments
  let page := (pageClause 0 0).map Bytes.ofText ++ params
  have harguments : c.arguments = Bytes.ofText c.text :: Bytes.ofText "NOCONTENT" :: page := by
    rw [CompiledQuery.arguments, h]
    rfl
  have hcount : takeCountOnly? (Bytes.ofText "NOCONTENT" :: page) = some (true, page) :=
    takeClause?_self _ _ _ page
  have hsort : takeSortKey? page = some (none, page) :=
    takeClause?_absent <| afterKeyword?_other (by decide) _
  have hpageRead : takePage? page = some ((HybridSearch.dialect, 0, 0), params) :=
    takePage?_append 0 0 params
  have hparams : takeParams? params = some (c.params, []) := takeParams?_paramArguments c
  rw [harguments, read?]
  simp [hcount, hsort, hpageRead, hparams]

end SearchRequest
end HybridSearch
