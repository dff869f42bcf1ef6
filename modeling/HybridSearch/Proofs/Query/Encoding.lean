import HybridSearch.Proofs.Filter.Neutral
import HybridSearch.Proofs.Number.Values
import HybridSearch.Proofs.Query.Fitting

/-!
# The encoding of vectors

A vector is stored as the patterns of its numbers, one behind the other, the lowest byte of each
first. Cut into pieces of the size of an element, the bytes give the patterns back.

* `Bytes.chunks_flatMap`: pieces of one length are cut where they were joined.
* `Bytes.doubles`, `Bytes.singles`: the patterns that bytes are read as.
* `QueryVector.ofValues_eq_ok_iff`: the numbers that are taken for a vector.
* `Query.encoding_exact`: what a vector of numbers comes to, and which vectors a query takes.
-/
namespace HybridSearch

/-! ## Bytes read back -/

namespace Bytes

/-- The number that bytes stand for, the lowest byte first. -/
def toNat : Bytes → Nat
  | [] => 0
  | byte :: rest => byte.toNat + 256 * toNat rest

theorem toNat_littleEndian {width n : Nat} (h : n < 256 ^ width) :
    toNat (littleEndian width n) = n := by
  induction width generalizing n with
  | zero =>
    rw [Nat.pow_zero] at h
    rw [littleEndian, toNat]
    omega
  | succ width ih =>
    have hrest : n / 256 < 256 ^ width := Nat.div_lt_of_lt_mul (by rwa [← Nat.pow_succ'])
    have hbyte : (UInt8.ofNat (n % 256)).toNat = n % 256 :=
      UInt8.toNat_ofNat_of_lt' (Nat.mod_lt n (by decide))
    rw [littleEndian, toNat, ih hrest, hbyte]
    exact Nat.mod_add_div n 256

/-- The pieces of a length that bytes consist of. What is left at the end is a piece of its own. -/
def chunks (width : Nat) (bytes : Bytes) : List Bytes :=
  if width = 0 ∨ bytes = [] then [] else bytes.take width :: chunks width (bytes.drop width)
termination_by bytes.length
decreasing_by
  rename_i h
  rw [not_or] at h
  have hpos := List.length_pos_iff.mpr h.2
  rw [List.length_drop]
  omega

theorem chunks_append {width : Nat} (hwidth : 0 < width) {piece : Bytes}
    (hpiece : piece.length = width) (rest : Bytes) :
    chunks width (piece ++ rest) = piece :: chunks width rest := by
  have hne : piece ++ rest ≠ [] := by
    intro h
    rw [(List.append_eq_nil_iff.mp h).1] at hpiece
    exact hwidth.ne hpiece
  rw [chunks, if_neg (not_or.mpr ⟨hwidth.ne', hne⟩), List.take_left' hpiece,
    List.drop_left' hpiece]

theorem chunks_flatMap {α : Type} {width : Nat} (hwidth : 0 < width) {g : α → Bytes}
    (hg : ∀ x, (g x).length = width) (xs : List α) : chunks width (xs.flatMap g) = xs.map g := by
  induction xs with
  | nil => rw [List.flatMap_nil, List.map_nil, chunks, if_pos (.inr rfl)]
  | cons x xs ih => rw [List.flatMap_cons, chunks_append hwidth (hg x), ih, List.map_cons]

/-- The numbers in 64 bits that bytes are read as. -/
def doubles (bytes : Bytes) : List Binary64 :=
  (chunks 8 bytes).map fun piece => ⟨UInt64.ofNat (toNat piece)⟩

/-- The patterns in 32 bits that bytes are read as. -/
def singles (bytes : Bytes) : List UInt32 :=
  (chunks 4 bytes).map fun piece => UInt32.ofNat (toNat piece)

end Bytes

namespace ElementType

open Bytes

theorem doubles_encode (values : List Binary64) : (float64.encode values).doubles = values := by
  have hone : ∀ x : Binary64,
      (⟨UInt64.ofNat (toNat (float64.encodeOne x))⟩ : Binary64) = x := by
    intro x
    have hbits : x.bits.toNat < 256 ^ 8 := x.bits.toNat_lt
    rw [encodeOne, toNat_littleEndian hbits, UInt64.ofNat_toNat]
  have hlength : ∀ x : Binary64, (float64.encodeOne x).length = 8 :=
    fun x => length_littleEndian 8 x.bits.toNat
  rw [doubles, encode, chunks_flatMap (by decide) hlength, List.map_map]
  exact (List.map_congr_left fun x _ => hone x).trans (List.map_id values)

theorem singles_encode (values : List Binary64) :
    (float32.encode values).singles = values.map Binary64.narrow := by
  have hone : ∀ x : Binary64, UInt32.ofNat (toNat (float32.encodeOne x)) = x.narrow := by
    intro x
    have hbits : x.narrow.toNat < 256 ^ 4 := x.narrow.toNat_lt
    rw [encodeOne, toNat_littleEndian hbits, UInt32.ofNat_toNat]
  have hlength : ∀ x : Binary64, (float32.encodeOne x).length = 4 :=
    fun x => length_littleEndian 4 x.narrow.toNat
  rw [singles, encode, chunks_flatMap (by decide) hlength, List.map_map]
  exact List.map_congr_left fun x _ => hone x

end ElementType

/-! ## Queries made of vectors -/

namespace QueryVector

variable {s : Schema} {f : Field} {options : VectorOptions}

theorem check_eq_ok_iff (hf : f ∈ s.fields) (htype : f.type = .vector options) {v : QueryVector}
    (hfield : v.field = f.name) : v.check s = .ok () ↔ v.bytes.length = options.byteLength := by
  have hrequired : s.requireVector v.field = .ok options :=
    Schema.requireVector_eq_ok_iff.mpr ⟨f, hf, hfield.symm, htype⟩
  rw [check, hrequired]
  by_cases hlength : v.bytes.length = options.byteLength
  · exact iff_of_true (if_neg (not_not_intro hlength)) hlength
  · refine iff_of_false (fun h => ?_) hlength
    cases (if_pos hlength).symm.trans h

theorem ofBytes_eq_ok_iff (hf : f ∈ s.fields) (htype : f.type = .vector options) {bytes : Bytes}
    {v : QueryVector} : ofBytes s f.name bytes = .ok v ↔
      bytes.length = options.byteLength ∧ { field := f.name, bytes } = v := by
  have hcheck : check { field := f.name, bytes } s = .ok () ↔
      bytes.length = options.byteLength := check_eq_ok_iff hf htype rfl
  rw [← hcheck, ofBytes, bind_eq_ok_iff]
  constructor
  · rintro ⟨_, hchecked, hv⟩
    exact ⟨hchecked, Except.ok.inj hv⟩
  · rintro ⟨hchecked, rfl⟩
    exact ⟨(), hchecked, rfl⟩

theorem ofValues_eq_ok_iff (hf : f ∈ s.fields) (htype : f.type = .vector options)
    {values : List Binary64} {v : QueryVector} : ofValues s f.name values = .ok v ↔
      values.length = options.dims ∧
        { field := f.name, bytes := options.elementType.encode values } = v := by
  have hrequired : s.requireVector f.name = .ok options :=
    Schema.requireVector_eq_ok_iff.mpr ⟨f, hf, rfl, htype⟩
  have hsize : 0 < options.elementType.size := by cases options.elementType <;> decide
  have hlength : (options.elementType.encode values).length = options.byteLength ↔
      values.length = options.dims := by
    rw [ElementType.length_encode, (s.dims_of_mem hf htype).2.2]
    exact Nat.mul_left_inj hsize.ne'
  rw [← hlength, ← ofBytes_eq_ok_iff hf htype]
  simp only [ofValues, hrequired]
  rfl

end QueryVector

namespace Query

variable {s : Schema} {f : Field} {options : VectorOptions}

/-- A query with a vector that the schema accepts, as it is made, compiles and binds the vector. -/
theorem compile_nearest_default {v : QueryVector} (hv : v.check s = .ok ())
    (hname : v.distanceName = defaultAlias) (k : Nat) :
    ∃ c, (nearest v k {}).compile s = .ok c ∧ c.params.lookup vectorParam = some v.bytes := by
  have hsettings : QueryOptions.check {} s (some v.distanceName) = .ok () := by
    rw [hname]
    rfl
  have htext : checkedText s v {} = .ok "*" := by
    have hfilter : Filter.compile ({} : QueryOptions).filter s = .ok "*" :=
      Filter.compile_matchAll s
    rw [checkedText, hfilter, hv, hsettings]
    rfl
  rw [compile_nearest_eq, htext]
  exact ⟨_, rfl, rfl⟩

/-- A query binds a vector given by patterns in 32 bits: the parameter of that name has the bytes of
these patterns. -/
def Binds (s : Schema) (q : Query) (patterns : List UInt32) : Prop :=
  ∃ c bytes, q.compile s = .ok c ∧ c.params.lookup vectorParam = some bytes ∧
    bytes.length = patterns.length * 4 ∧ bytes.singles = patterns

theorem exists_ofNearest_singles (hf : f ∈ s.fields) (htype : f.type = .vector options)
    (hsingle : options.elementType = .float32) {patterns : List UInt32}
    (hnumbers : ∀ p ∈ patterns, Single.isNaN p = false) (hlength : patterns.length = options.dims)
    {k : Nat} (hk : k ≠ 0) :
    ∃ q, ofNearest s f.name (.singles patterns) k = .ok q ∧ q.Binds s patterns := by
  have hwidened : (patterns.map Binary64.widen).length = options.dims := by
    rw [List.length_map, hlength]
  have hvector := (QueryVector.ofValues_eq_ok_iff hf htype).mpr ⟨hwidened, rfl⟩
  have hcheck : QueryVector.check
      { field := f.name, bytes := ElementType.float32.encode (patterns.map .widen) } s =
        .ok () := by
    rw [QueryVector.check_eq_ok_iff hf htype rfl, ElementType.length_encode, hwidened,
      (s.dims_of_mem hf htype).2.2, hsingle]
  have hnarrow : (patterns.map Binary64.widen).map Binary64.narrow = patterns := by
    rw [List.map_map]
    exact (List.map_congr_left fun p hp => Single.narrow_widen (hnumbers p hp)).trans
      (List.map_id patterns)
  obtain ⟨c, hcompile, hparam⟩ := compile_nearest_default hcheck rfl k
  refine ⟨_, ofNearest_eq_ok_iff.mpr ⟨hk, _, hvector, rfl⟩, c, _, ?_, hparam, ?_, ?_⟩
  · rw [hsingle]
    exact hcompile
  · rw [ElementType.length_encode, List.length_map]
    rfl
  · rw [ElementType.singles_encode, hnarrow]

/-- A vector of numbers is stored in as many bytes as its elements take. The bytes are read back as
the very numbers in 64 bits, or as the nearest ones in 32 bits, in order. A query takes a vector
exactly if it has the dimensions of its field, and numbers in 32 bits are bound as they are
given. -/
theorem encoding_exact :
    (∀ (type : ElementType) (values : List Binary64),
      (type.encode values).length = values.length * type.size) ∧
    (∀ values, (ElementType.float64.encode values).doubles = values) ∧
    (∀ values, List.Forall₂ Single.Rounds values (ElementType.float32.encode values).singles) ∧
    (∀ p, Single.isNaN p = false → (Binary64.widen p).narrow = p) ∧
    ∀ (s : Schema) (f : Field) (options : VectorOptions), f ∈ s.fields → f.type = .vector options →
      (∀ values k, (∃ q, ofNearest s f.name (.values values) k = .ok q) ↔
        k ≠ 0 ∧ values.length = options.dims) ∧
      (∀ values threshold, (∃ q, ofWithin s f.name (.values values) threshold = .ok q) ↔
        (threshold.isFinite = true ∧ 0 ≤ threshold.value) ∧ values.length = options.dims) ∧
      (options.elementType = .float32 → ∀ patterns : List UInt32,
        (∀ p ∈ patterns, Single.isNaN p = false) → patterns.length = options.dims → ∀ k ≠ 0,
          ∃ q, ofNearest s f.name (.singles patterns) k = .ok q ∧ q.Binds s patterns) := by
  refine ⟨ElementType.length_encode, ElementType.doubles_encode, fun values => ?_,
    fun _ => Single.narrow_widen, fun s f options hf htype =>
      ⟨fun values k => ?_, fun values threshold => ?_, fun hsingle patterns hnumbers hlength k hk =>
        exists_ofNearest_singles hf htype hsingle hnumbers hlength hk⟩⟩
  · rw [ElementType.singles_encode, List.forall₂_map_right_iff, List.forall₂_same]
    exact fun x _ => Single.rounds_narrow x
  · simp only [ofNearest_eq_ok_iff, VectorInput.resolve, QueryVector.ofValues_eq_ok_iff hf htype]
    simp
  · simp only [ofWithin_eq_ok_iff, VectorInput.resolve, QueryVector.ofValues_eq_ok_iff hf htype]
    simp

def portraitOptions : VectorOptions :=
  { dims := 3, algorithm := .flat none }

def portrait : Field :=
  { name := "portrait", type := .vector portraitOptions }

def gallery : Schema :=
  { name := "gallery", fields := [portrait], checked := rfl }

/-- The least positive number, negative infinity and negative zero. -/
def extremes : List UInt32 :=
  [0x00000001, 0xFF800000, 0x80000000]

theorem extremes_bound :
    portrait ∈ gallery.fields ∧ (∀ p ∈ extremes, Single.isNaN p = false) ∧
      ∃ q, ofNearest gallery "portrait" (.singles extremes) 10 = .ok q ∧
        q.Binds gallery extremes := by
  obtain ⟨-, -, -, -, hqueries⟩ := encoding_exact
  have hfield : portrait ∈ gallery.fields := by decide
  have hall : extremes.all (fun p => !Single.isNaN p) = true := by decide
  have hnumbers : ∀ p ∈ extremes, Single.isNaN p = false := by
    simpa only [List.all_eq_true, Bool.not_eq_true'] using hall
  obtain ⟨-, -, hsingles⟩ := hqueries gallery portrait portraitOptions hfield rfl
  exact ⟨hfield, hnumbers, hsingles rfl extremes hnumbers rfl 10 (by decide)⟩

end Query
end HybridSearch
