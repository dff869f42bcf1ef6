import HybridSearch.Filter.Predicate

/-!
# Filters

Conditions joined by *and*, *or* and *not*, and their query text. A chain of one connective is
written as one group, whatever its bracketing; members that every document matches are left out,
and a group with one member left is written as that member.

* `Filter.chain`: the members of a chain of one connective.
* `Filter.render`: the text of a filter, or nothing if every document matches it.
* `Filter.compile`: the query text of a filter.
* `Filter.validate`: the checks alone.
-/
namespace HybridSearch

inductive Connective where
  | and
  | or
  deriving DecidableEq, Repr

namespace Connective

def separator : Connective → String
  | and => " "
  | or => " | "

/-- The text of a group with the given members. Without a member there is none, and one member
stands for itself. -/
def groupText? (op : Connective) : List String → Option String
  | [] => none
  | [member] => some member
  | members => some ("(" ++ op.separator.intercalate members ++ ")")

end Connective

inductive Filter where
  | leaf (p : Predicate)
  | join (op : Connective) (left right : Filter)
  | not (f : Filter)
  deriving DecidableEq

namespace Filter

def matchAll : Filter :=
  leaf .all

instance : Inhabited Filter := ⟨matchAll⟩

/-- The members of a chain of `op`, from left to right. A filter with another top is a chain of
itself alone. -/
def chain (op : Connective) : Filter → List Filter
  | join own left right =>
    if own = op then left.chain op ++ right.chain op else [join own left right]
  | f => [f]

theorem sizeOf_le_of_mem_chain {op : Connective} {f g : Filter} (h : g ∈ f.chain op) :
    sizeOf g ≤ sizeOf f := by
  induction f with
  | leaf p => simp_all [chain]
  | not f => simp_all [chain]
  | join own left right ihl ihr =>
    by_cases hop : own = op
    · have hmem : g ∈ left.chain op ∨ g ∈ right.chain op := by simpa [chain, hop] using h
      rcases hmem with hl | hr
      · have := ihl hl
        simp only [join.sizeOf_spec]
        omega
      · have := ihr hr
        simp only [join.sizeOf_spec]
        omega
    · have hself : g = join own left right := by simpa [chain, hop] using h
      exact Nat.le_of_eq (by rw [hself])

theorem sizeOf_lt_of_mem_chain_join {op : Connective} {left right g : Filter}
    (h : g ∈ (join op left right).chain op) : sizeOf g < sizeOf (join op left right) := by
  have hmem : g ∈ left.chain op ∨ g ∈ right.chain op := by simpa [chain] using h
  rcases hmem with hl | hr
  · have := sizeOf_le_of_mem_chain hl
    simp only [join.sizeOf_spec]
    omega
  · have := sizeOf_le_of_mem_chain hr
    simp only [join.sizeOf_spec]
    omega

/-- The text of a filter that fits the schema; none if every document matches it. -/
def render (s : Schema) : Filter → Except QueryError (Option String)
  | leaf .all => return none
  | leaf p => some <$> p.compile s
  | join op left right => do
    let members ← ((join op left right).chain op).attach.filterMapM fun f => f.1.render s
    return op.groupText? members
  | not f => do
    match ← f.render s with
    | some text => return some ("(-" ++ text ++ ")")
    | none => throw .negatedMatchAll
termination_by f => sizeOf f
decreasing_by
  · exact sizeOf_lt_of_mem_chain_join f.2
  · simp

/-- The query text of a filter, if it fits the schema. -/
def compile (f : Filter) (s : Schema) : Except QueryError String := do
  return (← f.render s).getD Predicate.matchAllText

def validate (f : Filter) (s : Schema) : Except QueryError Unit :=
  discard (f.render s)

/-! ## Making filters -/

def ofPredicate (p : Predicate) : Except QueryError Filter := do
  return leaf (← p.make)

def tagEquals (field value : String) : Except QueryError Filter :=
  ofPredicate (.tag field [value])

def tagIn (field : String) (values : List String) : Except QueryError Filter :=
  ofPredicate (.tag field values)

def tagNotEquals (field value : String) : Except QueryError Filter :=
  (tagEquals field value).map not

def numericRange (field : String) (lower upper : Bound) : Except QueryError Filter :=
  ofPredicate (.range field lower upper)

def numericEquals (field : String) (value : Binary64) : Except QueryError Filter :=
  numericRange field (.inclusive value) (.inclusive value)

def numericNotEquals (field : String) (value : Binary64) : Except QueryError Filter :=
  (numericEquals field value).map not

def numericGreater (field : String) (value : Binary64) : Except QueryError Filter :=
  numericRange field (.exclusive value) .unbounded

def numericAtLeast (field : String) (value : Binary64) : Except QueryError Filter :=
  numericRange field (.inclusive value) .unbounded

def numericLess (field : String) (value : Binary64) : Except QueryError Filter :=
  numericRange field .unbounded (.exclusive value)

def numericAtMost (field : String) (value : Binary64) : Except QueryError Filter :=
  numericRange field .unbounded (.inclusive value)

def numericBetween (field : String) (lower upper : Binary64) : Except QueryError Filter :=
  numericRange field (.inclusive lower) (.inclusive upper)

def geoRadius (field : String) (lon lat radius : Binary64) (unit : GeoUnit) :
    Except QueryError Filter :=
  ofPredicate (.geo field lon lat radius unit)

def textMatch (field pattern : String) : Except QueryError Filter :=
  ofPredicate (.text field pattern false)

def textFuzzy (field pattern : String) : Except QueryError Filter :=
  ofPredicate (.text field pattern true)

def textNotEquals (field pattern : String) : Except QueryError Filter :=
  (textMatch field pattern).map not

/-! ## Many filters at once -/

/-- Neighbours joined pairwise; the last one of an odd number stays alone. -/
def pairUp (op : Connective) : List Filter → List Filter
  | left :: right :: rest => join op left right :: pairUp op rest
  | rest => rest

theorem length_pairUp (op : Connective) (fs : List Filter) :
    (pairUp op fs).length = (fs.length + 1) / 2 := by
  fun_induction pairUp op fs with
  | case1 left right rest ih => simp [ih]; omega
  | case2 rest h =>
    match rest, h with
    | [], _ => simp
    | [_], _ => simp
    | _ :: _ :: _, h => exact absurd rfl (h _ _ _)

/-- All filters joined by one connective, level by level, so that the depth grows with the logarithm
of their number. -/
def balanced (op : Connective) (fs : List Filter) : Filter :=
  match fs with
  | [] => matchAll
  | [f] => f
  | f :: g :: rest => balanced op (pairUp op (f :: g :: rest))
termination_by fs.length
decreasing_by simp [length_pairUp]; omega

def allOf (fs : List Filter) : Filter :=
  balanced .and fs

def anyOf (fs : List Filter) : Filter :=
  balanced .or fs

def same : Filter → Filter → Bool
  | leaf p, leaf q => p.same q
  | join a l r, join b l' r' => a == b && l.same l' && r.same r'
  | not f, not g => f.same g
  | _, _ => false

end Filter
end HybridSearch
