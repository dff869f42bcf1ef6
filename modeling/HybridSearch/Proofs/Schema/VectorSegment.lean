import HybridSearch.Proofs.Number.Naturals
import HybridSearch.Proofs.Schema.Alike
import HybridSearch.Proofs.Store.Contents

/-!
# Segments of vector fields

The segment of a vector field is an algorithm, a count, and as many arguments as the count says,
names and values in turn. A reader that goes by the count alone gets all settings of the field out
of it and stops where the next field begins. It fills in no defaults: what is read is what the
segment names.

* `VectorSettings`: what a segment says of a field, the epsilon of a graph as text.
* `takeCounted?`: the algorithm, the named values that are counted, and what follows them.
* `VectorSettings.ofNamed?`: the settings by their names.
* `VectorOptions.arguments_self_delimiting`: a segment is read back, whatever follows it.
-/
namespace HybridSearch

open Number

/-! ## What is read -/

inductive AlgorithmSettings where
  | flat (blockSize : Option Nat)
  | hnsw (m efConstruction efRuntime : Nat) (epsilon : String)
  deriving DecidableEq, Repr

/-- The settings of a vector field as a segment has them. -/
structure VectorSettings where
  dims : Nat
  algorithm : AlgorithmSettings
  elementType : ElementType
  metric : Metric
  initialCap : Option Nat
  deriving DecidableEq, Repr

/-- Names and values in turn. -/
def namedValues? : List String → Option (List (String × String))
  | [] => some []
  | name :: value :: rest => (namedValues? rest).map ((name, value) :: ·)
  | [_] => none

/-- The algorithm at the beginning of some arguments, the named values that are counted behind it,
and what follows them. -/
def takeCounted? : List String → Option (String × List (String × String) × List String)
  | keyword :: count :: arguments => do
    let n ← ofDigits? count
    if arguments.length < n then none
    else return (keyword, ← namedValues? (arguments.take n), arguments.drop n)
  | _ => none

def algorithmNames : (keyword : String) → List String
  | "FLAT" => ["BLOCK_SIZE"]
  | "HNSW" => ["M", "EF_CONSTRUCTION", "EF_RUNTIME", "EPSILON"]
  | _ => []

/-- The names that a segment may have. -/
def settingNames (keyword : String) : List String :=
  "TYPE" :: "DIM" :: "DISTANCE_METRIC" :: "INITIAL_CAP" :: algorithmNames keyword

section Named

variable (named : List (String × String))

def namedNatural? (name : String) : Option Nat :=
  (lookUp? name named).bind ofDigits?

/-- A number that may be left out. -/
def optionalNatural? (name : String) : Option (Option Nat) :=
  match lookUp? name named with
  | none => some none
  | some text => (ofDigits? text).map some

def AlgorithmSettings.ofNamed? : (keyword : String) → Option AlgorithmSettings
  | "FLAT" => return .flat (← optionalNatural? named "BLOCK_SIZE")
  | "HNSW" =>
    return .hnsw (← namedNatural? named "M") (← namedNatural? named "EF_CONSTRUCTION")
      (← namedNatural? named "EF_RUNTIME") (← lookUp? "EPSILON" named)
  | _ => none

/-- The settings by their names. A name that is given twice is refused, and so is one that the
algorithm does not know. -/
def VectorSettings.ofNamed? (keyword : String) : Option VectorSettings :=
  if (named.map Prod.fst).Nodup ∧ named.map Prod.fst ⊆ settingNames keyword then
    return {
      dims := ← namedNatural? named "DIM"
      algorithm := ← AlgorithmSettings.ofNamed? named keyword
      elementType := ← (lookUp? "TYPE" named).bind ElementType.ofText?
      metric := ← (lookUp? "DISTANCE_METRIC" named).bind Metric.ofText?
      initialCap := ← optionalNatural? named "INITIAL_CAP" }
  else none

end Named

/-! ## Counted arguments -/

/-- Names and values in turn, as arguments. -/
def namedArguments (named : List (String × String)) : List String :=
  named.flatMap fun pair => [pair.1, pair.2]

theorem namedValues?_namedArguments (named : List (String × String)) :
    namedValues? (namedArguments named) = some named := by
  induction named with
  | nil => rfl
  | cons pair named ih =>
    have hcons : namedArguments (pair :: named) = pair.1 :: pair.2 :: namedArguments named := rfl
    rw [hcons, namedValues?, ih]
    rfl

theorem takeCounted?_append (keyword : String) (named : List (String × String))
    (rest : List String) :
    takeCounted? (keyword :: toString (namedArguments named).length ::
      (namedArguments named ++ rest)) = some (keyword, named, rest) := by
  have hlength : ¬(namedArguments named ++ rest).length < (namedArguments named).length := by
    rw [List.length_append]
    omega
  rw [takeCounted?, ofDigits?_toString, Option.bind_eq_bind, Option.bind_some, if_neg hlength,
    List.take_left, namedValues?_namedArguments, List.drop_left]
  rfl

/-! ## What is written -/

def optionalNamed (name : String) (value : Option Nat) : List (String × String) :=
  (value.map fun n => (name, toString n)).toList

namespace Algorithm

def written : Algorithm → AlgorithmSettings
  | flat blockSize => .flat blockSize
  | hnsw graph => .hnsw graph.m graph.efConstruction graph.efRuntime graph.epsilon.text

def named : Algorithm → List (String × String)
  | flat blockSize => optionalNamed "BLOCK_SIZE" blockSize
  | hnsw graph =>
    [("M", toString graph.m), ("EF_CONSTRUCTION", toString graph.efConstruction),
      ("EF_RUNTIME", toString graph.efRuntime), ("EPSILON", graph.epsilon.text)]

end Algorithm

namespace VectorOptions

variable (o : VectorOptions)

/-- The settings of a field as its segment is to have them. -/
def written : VectorSettings where
  dims := o.dims
  algorithm := o.algorithm.written
  elementType := o.elementType
  metric := o.metric
  initialCap := o.initialCap

def named : List (String × String) :=
  [("TYPE", o.elementType.keyword), ("DIM", toString o.dims),
    ("DISTANCE_METRIC", o.metric.keyword)] ++
    (optionalNamed "INITIAL_CAP" o.initialCap ++ o.algorithm.named)

theorem settings_eq : o.settings = namedArguments o.named := by
  obtain ⟨dims, algorithm, elementType, metric, initialCap⟩ := o
  rcases algorithm with (_ | size) | graph <;> cases initialCap <;> rfl

theorem takeCounted?_arguments (rest : List String) :
    takeCounted? (o.arguments ++ rest) = some (o.algorithm.keyword, o.named, rest) := by
  rw [arguments, settings_eq]
  exact takeCounted?_append o.algorithm.keyword o.named rest

/-! ## Names -/

theorem sublist_optionalNamed (name : String) (value : Option Nat) :
    ((optionalNamed name value).map Prod.fst).Sublist [name] := by
  cases value with
  | none => exact List.nil_sublist _
  | some n => exact List.Sublist.refl _

/-- A segment has its names in one order, whichever of them are left out. -/
theorem sublist_named : (o.named.map Prod.fst).Sublist (settingNames o.algorithm.keyword) := by
  have hcap := sublist_optionalNamed "INITIAL_CAP" o.initialCap
  have halgorithm : (o.algorithm.named.map Prod.fst).Sublist
      (algorithmNames o.algorithm.keyword) := by
    cases o.algorithm with
    | flat blockSize => exact sublist_optionalNamed "BLOCK_SIZE" blockSize
    | hnsw graph => exact List.Sublist.refl _
  rw [named, List.map_append, List.map_append]
  exact (List.Sublist.refl ["TYPE", "DIM", "DISTANCE_METRIC"]).append (hcap.append halgorithm)

theorem nodup_settingNames (a : Algorithm) : (settingNames a.keyword).Nodup := by
  cases a <;> rw [Algorithm.keyword] <;> decide

theorem nodup_named : (o.named.map Prod.fst).Nodup :=
  o.sublist_named.nodup (nodup_settingNames o.algorithm)

/-! ## Settings by their names -/

variable {o} {name : String}

theorem lookUp?_named {value : String} (h : (name, value) ∈ o.named) :
    lookUp? name o.named = some value :=
  (lookUp?_eq_some_iff o.nodup_named).mpr h

theorem namedNatural?_named {n : Nat} (h : (name, toString n) ∈ o.named) :
    namedNatural? o.named name = some n := by
  rw [namedNatural?, lookUp?_named h, Option.bind_some, ofDigits?_toString]

theorem optionalNatural?_named {value : Option Nat}
    (hgiven : ∀ n, value = some n → (name, toString n) ∈ o.named)
    (habsent : value = none → ∀ pair ∈ o.named, pair.1 ≠ name) :
    optionalNatural? o.named name = some value := by
  rw [optionalNatural?]
  cases value with
  | none => rw [lookUp?_eq_none_iff.mpr (habsent rfl)]
  | some n =>
    rw [lookUp?_named (hgiven n rfl)]
    simp only [ofDigits?_toString, Option.map_some]

theorem mem_optionalNamed (name : String) (n : Nat) :
    (name, toString n) ∈ optionalNamed name (some n) :=
  List.mem_singleton_self _

theorem initialCap_named : optionalNatural? o.named "INITIAL_CAP" = some o.initialCap := by
  apply optionalNatural?_named
  · intro n hn
    rw [named, hn]
    exact List.mem_append_right _ (List.mem_append_left _ (mem_optionalNamed _ n))
  · intro hnone
    rw [named, hnone]
    rcases o.algorithm with (_ | size) | graph <;> simp [optionalNamed, Algorithm.named]

theorem blockSize_named {blockSize : Option Nat} (h : o.algorithm = .flat blockSize) :
    optionalNatural? o.named "BLOCK_SIZE" = some blockSize := by
  apply optionalNatural?_named
  · rintro n rfl
    rw [named, h]
    exact List.mem_append_right _ (List.mem_append_right _ (mem_optionalNamed _ n))
  · rintro rfl
    rw [named, h]
    cases o.initialCap <;> simp [optionalNamed, Algorithm.named]

theorem algorithm_named :
    AlgorithmSettings.ofNamed? o.named o.algorithm.keyword = some o.algorithm.written := by
  cases h : o.algorithm with
  | flat blockSize =>
    rw [Algorithm.keyword, AlgorithmSettings.ofNamed?, blockSize_named h]
    rfl
  | hnsw graph =>
    have hmem : ∀ pair ∈ (Algorithm.hnsw graph).named, pair ∈ o.named := by
      intro pair hpair
      rw [named, h]
      exact List.mem_append_right _ (List.mem_append_right _ hpair)
    simp only [Algorithm.named, List.forall_mem_cons] at hmem
    obtain ⟨hm, hconstruction, hruntime, hepsilon, -⟩ := hmem
    rw [Algorithm.keyword, AlgorithmSettings.ofNamed?, namedNatural?_named hm,
      namedNatural?_named hconstruction, namedNatural?_named hruntime, lookUp?_named hepsilon]
    rfl

theorem ofNamed?_named : VectorSettings.ofNamed? o.named o.algorithm.keyword = some o.written := by
  have hmem : ∀ pair ∈ [("TYPE", o.elementType.keyword), ("DIM", toString o.dims),
      ("DISTANCE_METRIC", o.metric.keyword)], pair ∈ o.named := fun pair hpair =>
    List.mem_append_left _ hpair
  simp only [List.forall_mem_cons] at hmem
  obtain ⟨htype, hdims, hmetric, -⟩ := hmem
  rw [VectorSettings.ofNamed?, if_pos ⟨o.nodup_named, o.sublist_named.subset⟩,
    namedNatural?_named hdims, algorithm_named, lookUp?_named htype, lookUp?_named hmetric,
    initialCap_named, Option.bind_some, Option.bind_some, ElementType.ofText?_keyword,
    Metric.ofText?_keyword]
  rfl

/-- The segment of a vector field is cut off by its count: a reader that takes the algorithm, the
count and as many arguments as it says is left with what follows the segment. It has every name
once, and its named values are the settings of the field. -/
theorem arguments_self_delimiting (o : VectorOptions) (rest : List String) :
    ∃ keyword named, takeCounted? (o.arguments ++ rest) = some (keyword, named, rest) ∧
      (named.map Prod.fst).Nodup ∧ VectorSettings.ofNamed? named keyword = some o.written :=
  ⟨_, _, o.takeCounted?_arguments rest, o.nodup_named, ofNamed?_named⟩

theorem alike_of_written_eq {a b : VectorOptions} (h : a.written = b.written) : a.Alike b := by
  obtain ⟨hdims, halgorithm, htype, hmetric, hcap⟩ := VectorSettings.mk.inj h
  refine ⟨hdims, ?_, htype, hmetric, hcap⟩
  cases ha : a.algorithm with
  | flat blockSize =>
    cases hb : b.algorithm with
    | flat blockSize' =>
      rw [ha, hb] at halgorithm
      obtain rfl := AlgorithmSettings.flat.inj halgorithm
      exact .flat blockSize
    | hnsw graph => rw [ha, hb] at halgorithm; cases halgorithm
  | hnsw graph =>
    cases hb : b.algorithm with
    | flat blockSize => rw [ha, hb] at halgorithm; cases halgorithm
    | hnsw graph' =>
      rw [ha, hb] at halgorithm
      obtain ⟨hm, hconstruction, hruntime, hepsilon⟩ := AlgorithmSettings.hnsw.inj halgorithm
      exact .hnsw hm hconstruction hruntime hepsilon

/-- Vector fields with one segment are alike, since the segment is read back. -/
theorem arguments_append_inj {a b : VectorOptions} {rest rest' : List String}
    (h : a.arguments ++ rest = b.arguments ++ rest') : a.Alike b ∧ rest = rest' := by
  have hread := a.takeCounted?_arguments rest
  rw [h, b.takeCounted?_arguments, Option.some.injEq, Prod.mk.injEq, Prod.mk.injEq] at hread
  obtain ⟨hkeyword, hnamed, hrest⟩ := hread
  have hwritten := ofNamed?_named (o := a)
  rw [← hkeyword, ← hnamed, ofNamed?_named] at hwritten
  exact ⟨alike_of_written_eq (Option.some.inj hwritten).symm, hrest.symm⟩

end VectorOptions

end HybridSearch
