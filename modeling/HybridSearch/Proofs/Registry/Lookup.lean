import HybridSearch.Proofs.Registry.Calls
import HybridSearch.Proofs.Schema.Keys

/-!
# Looking schemas up

What a registry answers after any run of calls. By name it is the map that the calls say, and by key
it finds a schema with the longest prefix that the key begins with: the schemas stand in descending
order of their prefixes, so the first that fits is the longest.

* `Registry.findByKey?_eq_none_iff`, `Registry.longest_of_findByKey?`: look-up by key.
* `Registry.keyPrefix_findByKey?_congr`: the prefix that is found hangs on nothing but the schemas.
* `Registry.reflects_after`: all answers of a registry, in terms of the calls.
-/
namespace HybridSearch

open Text

/-! ## Prefixes of one key -/

namespace Text

/-- Two texts that a third one begins with are the same if they are of one length in bytes. -/
theorem eq_of_startsWith_of_size {s a b : String} (ha : startsWith s a = true)
    (hb : startsWith s b = true) (hsize : a.utf8ByteSize = b.utf8ByteSize) : a = b := by
  have hextends : ∀ {p q : String}, p.toList <+: q.toList → p.utf8ByteSize = q.utf8ByteSize →
      p = q := by
    rintro p q ⟨rest, hrest⟩ hpq
    have hq : q = p ++ String.ofList rest := by
      rw [← String.toList_inj, String.toList_append, String.toList_ofList, hrest]
    rw [hq, String.utf8ByteSize_append] at hpq
    have hempty : String.ofList rest = "" := String.utf8ByteSize_eq_zero_iff.mp (by omega)
    rw [hq, hempty, String.append_empty]
  rcases List.prefix_or_prefix_of_prefix (startsWith_iff.mp ha) (startsWith_iff.mp hb) with h | h
  · exact hextends h hsize
  · exact (hextends h hsize.symm).symm

end Text

namespace Registry

/-! ## Look-up by name -/

theorem get?_eq_some_iff {r : Registry} (h : Ordered r.schemas) {name : String} {s : Schema} :
    r.get? name = some s ↔ s ∈ r.schemas ∧ s.name = name :=
  find?_named_eq_some_iff h.nodup_names

theorem contains_iff {r : Registry} {name : String} :
    r.contains name = true ↔ ∃ s ∈ r.schemas, s.name = name := by
  simp [contains]

theorem mem_names_iff {r : Registry} {name : String} :
    name ∈ r.names ↔ ∃ s ∈ r.schemas, s.name = name := by
  simp [names]

theorem ascending_names {r : Registry} (h : Ordered r.schemas) : r.names.Pairwise (· < ·) := by
  have hsorted : r.names.Pairwise (· ≤ ·) := by
    refine pairwise_mergeSort ?_ ?_ _
    · exact fun _ _ _ => String.le_trans
    · exact String.le_total
  have hnodup : r.names.Nodup := (List.mergeSort_perm _ _).nodup_iff.mpr h.nodup_names
  refine (hsorted.and hnodup).imp fun ⟨hle, hne⟩ => ?_
  exact Decidable.by_contra fun hlt =>
    hne (String.le_antisymm hle (String.not_lt.mp hlt))

theorem size_eq (r : Registry) : r.size = r.names.length := by
  simp [size, names]

/-! ## Look-up by key -/

theorem findByKey?_eq_none_iff {r : Registry} {key : String} :
    r.findByKey? key = none ↔ ∀ s ∈ r.schemas, startsWith key s.keyPrefix = false := by
  simp [findByKey?]

/-- A schema with a property whose prefix a key begins with, while no prefix of another one that
the key begins with is longer. -/
structure Longest (present : Schema → Prop) (key : String) (s : Schema) : Prop where
  isPresent : present s
  covers : startsWith key s.keyPrefix = true
  longest : ∀ t, present t → startsWith key t.keyPrefix = true →
    t.keyPrefix.utf8ByteSize ≤ s.keyPrefix.utf8ByteSize

theorem longest_of_findByKey? {r : Registry} (h : Ordered r.schemas) {key : String} {s : Schema}
    (hfind : r.findByKey? key = some s) : Longest (· ∈ r.schemas) key s := by
  obtain ⟨hcovers, before, after, hschemas, hbefore⟩ := List.find?_eq_some_iff_append.mp hfind
  refine ⟨List.mem_of_find?_eq_some hfind, hcovers, fun t ht htcovers => ?_⟩
  have hdescending := h.descending
  rw [hschemas, List.pairwise_append, List.pairwise_cons] at hdescending
  rw [hschemas, List.mem_append, List.mem_cons] at ht
  -- No schema before the one that is found covers the key, and those after it are not longer.
  rcases ht with ht | rfl | ht
  · have := hbefore t ht
    simp [htcovers] at this
  · exact Nat.le_refl _
  · exact hdescending.2.1.1 t ht

theorem findByKey?_key_ne_none {r : Registry} {s : Schema} (h : s ∈ r.schemas) (id : String) :
    r.findByKey? (s.key id) ≠ none := by
  intro hnone
  have hfalse := findByKey?_eq_none_iff.mp hnone s h
  rw [s.startsWith_key id] at hfalse
  cases hfalse

/-- Two registries of the same schemas find the same prefix, whatever order they stand in. -/
theorem keyPrefix_findByKey?_congr {r r' : Registry} (h : Ordered r.schemas)
    (h' : Ordered r'.schemas) (hsame : ∀ s, s ∈ r.schemas ↔ s ∈ r'.schemas) (key : String) :
    (r.findByKey? key).map (fun s => s.keyPrefix) =
      (r'.findByKey? key).map (fun s => s.keyPrefix) := by
  have hnone : r.findByKey? key = none ↔ r'.findByKey? key = none := by
    simp only [findByKey?_eq_none_iff, hsame]
  cases hfind : r.findByKey? key with
  | none => rw [hnone.mp hfind]
  | some s =>
    cases hfind' : r'.findByKey? key with
    | none => rw [hnone.mpr hfind'] at hfind; cases hfind
    | some s' =>
      have hs := longest_of_findByKey? h hfind
      have hs' := longest_of_findByKey? h' hfind'
      have hsize : s.keyPrefix.utf8ByteSize = s'.keyPrefix.utf8ByteSize :=
        Nat.le_antisymm (hs'.longest s ((hsame s).mp hs.isPresent) hs.covers)
          (hs.longest s' ((hsame s').mpr hs'.isPresent) hs'.covers)
      exact congrArg some (eq_of_startsWith_of_size hs.covers hs'.covers hsize)

/-! ## All answers -/

/-- The answers of a registry in which the schemas with a property are registered. -/
structure Reflects (r : Registry) (present : Schema → Prop) : Prop where
  ordered : Ordered r.schemas
  get?_eq_some_iff : ∀ name s, r.get? name = some s ↔ present s ∧ s.name = name
  ascending_names : r.names.Pairwise (· < ·)
  mem_names_iff : ∀ name, name ∈ r.names ↔ ∃ s, present s ∧ s.name = name
  size_eq : r.size = r.names.length
  contains_iff : ∀ name, r.contains name = true ↔ ∃ s, present s ∧ s.name = name
  schemas_unregister : ∀ name,
    (r.unregister name).schemas = r.schemas.filter fun s => s.name != name
  findByKey?_eq_none_iff : ∀ key,
    r.findByKey? key = none ↔ ∀ s, present s → startsWith key s.keyPrefix = false
  longest_of_findByKey? : ∀ key s, r.findByKey? key = some s → Longest present key s
  findByKey?_key_ne_none : ∀ s id, present s → r.findByKey? (s.key id) ≠ none

theorem Ordered.reflects {r : Registry} (h : Ordered r.schemas) : Reflects r (· ∈ r.schemas) where
  ordered := h
  get?_eq_some_iff _ _ := Registry.get?_eq_some_iff h
  ascending_names := Registry.ascending_names h
  mem_names_iff _ := Registry.mem_names_iff
  size_eq := r.size_eq
  contains_iff _ := Registry.contains_iff
  schemas_unregister := Registry.schemas_unregister h
  findByKey?_eq_none_iff _ := Registry.findByKey?_eq_none_iff
  longest_of_findByKey? _ _ := Registry.longest_of_findByKey? h
  findByKey?_key_ne_none _ id hs := Registry.findByKey?_key_ne_none hs id

/-- After any calls a registry is the map from names to the schemas that are registered, with
look-up by the longest prefix; and which prefix is found hangs on what is registered alone, not on
the order of the calls. -/
theorem reflects_after (calls : List Call) :
    Reflects (after calls) (Registered calls) ∧
      ∀ calls', (∀ s, Registered calls s ↔ Registered calls' s) → ∀ key,
        ((after calls).findByKey? key).map (fun s => s.keyPrefix) =
          ((after calls').findByKey? key).map (fun s => s.keyPrefix) := by
  have hpresent : ∀ calls, (· ∈ (after calls).schemas) = Registered calls :=
    fun calls => funext fun s => propext mem_after_iff
  refine ⟨hpresent calls ▸ (ordered_after calls).reflects, fun calls' hsame key => ?_⟩
  refine keyPrefix_findByKey?_congr (ordered_after calls) (ordered_after calls') (fun s => ?_) key
  rw [mem_after_iff, mem_after_iff, hsame]

end Registry
end HybridSearch
