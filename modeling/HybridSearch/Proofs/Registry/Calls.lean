import HybridSearch.Proofs.Named
import HybridSearch.Registry
import Mathlib.Data.List.Induction

/-!
# Registries after calls

A registry that has only been changed by its own operations lists its schemas in descending order of
the length of their prefixes, none of them under the name of another, and it holds exactly the
schemas that have been registered and neither replaced nor removed since.

* `Registry.Ordered`: the order and the names.
* `Registry.Call`, `Registry.after`: a run of changes.
* `Registry.Registered`: what a run leaves registered, said of the calls alone.
* `Registry.ordered_after`, `Registry.mem_after_iff`: a registry after a run.
-/
namespace HybridSearch.Registry

/-- The schemas in descending order of the length of their prefixes, no name twice. -/
structure Ordered (schemas : List Schema) : Prop where
  descending :
    schemas.Pairwise fun a b => b.keyPrefix.utf8ByteSize ≤ a.keyPrefix.utf8ByteSize
  nodup_names : (schemas.map fun s => s.name).Nodup

/-! ## Putting a schema in its place -/

theorem arrange_perm (schemas : List Schema) : (arrange schemas).Perm schemas :=
  List.mergeSort_perm schemas _

/-- A list that is sorted by a total order is in that order. -/
theorem pairwise_mergeSort {α : Type} {r : α → α → Prop} [DecidableRel r]
    (trans : ∀ a b c, r a b → r b c → r a c) (total : ∀ a b, r a b ∨ r b a) (xs : List α) :
    (xs.mergeSort fun a b => decide (r a b)).Pairwise r := by
  refine (List.pairwise_mergeSort ?_ ?_ xs).imp of_decide_eq_true
  · intro a b c hab hbc
    exact decide_eq_true (trans a b c (of_decide_eq_true hab) (of_decide_eq_true hbc))
  · intro a b
    simpa using total a b

theorem descending_arrange (schemas : List Schema) :
    (arrange schemas).Pairwise fun a b =>
      b.keyPrefix.utf8ByteSize ≤ a.keyPrefix.utf8ByteSize := by
  refine pairwise_mergeSort ?_ ?_ schemas
  · intro a b c hab hbc
    exact Nat.le_trans hbc hab
  · intro a b
    exact Nat.le_total _ _

theorem eq_or_mem_of_mem_replace {schema s : Schema} {schemas : List Schema}
    (h : s ∈ replace schema schemas) : s = schema ∨ s ∈ schemas := by
  induction schemas with
  | nil => exact .inl (List.mem_singleton.mp h)
  | cons first rest ih =>
    rw [replace] at h
    split at h
    · exact (List.mem_cons.mp h).imp_right (List.mem_cons_of_mem first)
    · rcases List.mem_cons.mp h with rfl | hmem
      · exact .inr List.mem_cons_self
      · exact (ih hmem).imp_right (List.mem_cons_of_mem first)

theorem nodup_names_replace {schemas : List Schema} (schema : Schema)
    (h : (schemas.map fun s => s.name).Nodup) :
    ((replace schema schemas).map fun s => s.name).Nodup := by
  induction schemas with
  | nil => exact List.nodup_singleton _
  | cons first rest ih =>
    rw [replace]
    by_cases hname : first.name = schema.name
    · rw [if_pos hname]
      simpa [hname] using h
    · rw [List.map_cons, List.nodup_cons] at h
      rw [if_neg hname, List.map_cons, List.nodup_cons]
      refine ⟨fun hmem => ?_, ih h.2⟩
      obtain ⟨s, hs, heq⟩ := List.mem_map.mp hmem
      rcases eq_or_mem_of_mem_replace hs with rfl | hrest
      · exact hname heq.symm
      · exact h.1 (List.mem_map.mpr ⟨s, hrest, heq⟩)

theorem mem_replace_iff {schemas : List Schema} (h : (schemas.map fun s => s.name).Nodup)
    {schema s : Schema} :
    s ∈ replace schema schemas ↔ s = schema ∨ s ∈ schemas ∧ s.name ≠ schema.name := by
  induction schemas with
  | nil => simp [replace]
  | cons first rest ih =>
    rw [List.map_cons, List.nodup_cons] at h
    rw [replace]
    by_cases hname : first.name = schema.name
    · have hrest : ∀ t ∈ rest, t.name ≠ schema.name := fun t ht heq =>
        h.1 (List.mem_map.mpr ⟨t, ht, heq.trans hname.symm⟩)
      rw [if_pos hname, List.mem_cons, List.mem_cons]
      constructor
      · rintro (hs | hs)
        · exact .inl hs
        · exact .inr ⟨.inr hs, hrest s hs⟩
      · rintro (hs | ⟨rfl | hs, hne⟩)
        · exact .inl hs
        · exact absurd hname hne
        · exact .inr hs
    · rw [if_neg hname, List.mem_cons, ih h.2, List.mem_cons]
      constructor
      · rintro (rfl | hs | ⟨hs, hne⟩)
        · exact .inr ⟨.inl rfl, hname⟩
        · exact .inl hs
        · exact .inr ⟨.inr hs, hne⟩
      · rintro (hs | ⟨rfl | hs, hne⟩)
        · exact .inr (.inl hs)
        · exact .inl rfl
        · exact .inr (.inr ⟨hs, hne⟩)

/-! ## One change -/

theorem Ordered.register {r : Registry} (h : Ordered r.schemas) (schema : Schema) :
    Ordered (r.register schema).schemas where
  descending := descending_arrange _
  nodup_names :=
    ((arrange_perm _).map _).nodup_iff.mpr (nodup_names_replace schema h.nodup_names)

theorem mem_register_iff {r : Registry} (h : Ordered r.schemas) {schema s : Schema} :
    s ∈ (r.register schema).schemas ↔
      s = schema ∨ s ∈ r.schemas ∧ s.name ≠ schema.name := by
  rw [← mem_replace_iff h.nodup_names]
  exact (arrange_perm _).mem_iff

/-- What is unregistered is the one schema with the name; all others stay as they are. -/
theorem schemas_unregister {r : Registry} (h : Ordered r.schemas) (name : String) :
    (r.unregister name).schemas = r.schemas.filter fun s => s.name != name :=
  eraseP_named_eq_filter h.nodup_names name

theorem Ordered.unregister {r : Registry} (h : Ordered r.schemas) (name : String) :
    Ordered (r.unregister name).schemas where
  descending := h.descending.sublist List.eraseP_sublist
  nodup_names := (List.eraseP_sublist.map _).nodup h.nodup_names

theorem mem_unregister_iff {r : Registry} (h : Ordered r.schemas) {name : String} {s : Schema} :
    s ∈ (r.unregister name).schemas ↔ s ∈ r.schemas ∧ s.name ≠ name := by
  simp [schemas_unregister h]

/-! ## Runs of changes -/

/-- A change of a registry. -/
inductive Call where
  | register (schema : Schema)
  | unregister (name : String)
  | clear

namespace Call

def apply : Call → Registry → Registry
  | register schema, r => r.register schema
  | unregister name, r => r.unregister name
  | clear, r => r.clear

/-- Whether a call settles what is registered under a name. -/
def Settles (name : String) : Call → Prop
  | register schema => schema.name = name
  | unregister other => other = name
  | clear => True

end Call

/-- The registry after a run of calls, from an empty one. -/
def after (calls : List Call) : Registry :=
  calls.foldl (fun r call => call.apply r) {}

/-- A schema has been registered, and no later call has registered another one under its name or
removed it. -/
def Registered (calls : List Call) (s : Schema) : Prop :=
  ∃ earlier later, calls = earlier ++ .register s :: later ∧ ∀ call ∈ later, ¬call.Settles s.name

theorem after_concat (calls : List Call) (call : Call) :
    after (calls ++ [call]) = call.apply (after calls) := by
  simp [after]

theorem not_registered_nil (s : Schema) : ¬Registered [] s := by
  rintro ⟨earlier, later, h, -⟩
  simp at h

theorem registered_concat_iff {calls : List Call} {call : Call} {s : Schema} :
    Registered (calls ++ [call]) s ↔
      call = .register s ∨ Registered calls s ∧ ¬call.Settles s.name := by
  constructor
  · rintro ⟨earlier, later, hcalls, hlater⟩
    -- The call in question is the last one, or it is among those before.
    rcases List.eq_nil_or_concat later with rfl | ⟨later, last, rfl⟩
    · exact .inl (List.append_inj' hcalls rfl |>.2 |> List.singleton_inj.mp)
    · rw [List.concat_eq_append, ← List.cons_append, ← List.append_assoc] at hcalls
      obtain ⟨hbefore, hlast⟩ := List.append_inj' hcalls rfl
      obtain rfl := List.singleton_inj.mp hlast
      refine .inr ⟨⟨earlier, later, hbefore, fun c hc => hlater c ?_⟩, hlater call ?_⟩
      · simp [hc]
      · simp
  · rintro (rfl | ⟨⟨earlier, later, rfl, hlater⟩, hcall⟩)
    · exact ⟨calls, [], rfl, by simp⟩
    · refine ⟨earlier, later ++ [call], by simp, fun c hc => ?_⟩
      rcases List.mem_append.mp hc with hc | hc
      · exact hlater c hc
      · exact List.mem_singleton.mp hc ▸ hcall

theorem ordered_after (calls : List Call) : Ordered (after calls).schemas := by
  induction calls using List.reverseRecOn with
  | nil => exact ⟨List.Pairwise.nil, List.nodup_nil⟩
  | append_singleton calls call ih =>
    rw [after_concat]
    cases call with
    | register schema => exact ih.register schema
    | unregister name => exact ih.unregister name
    | clear => exact ⟨List.Pairwise.nil, List.nodup_nil⟩

theorem mem_after_iff {calls : List Call} {s : Schema} :
    s ∈ (after calls).schemas ↔ Registered calls s := by
  induction calls using List.reverseRecOn with
  | nil => simpa [after] using not_registered_nil s
  | append_singleton calls call ih =>
    rw [after_concat, registered_concat_iff, ← ih]
    have hordered := ordered_after calls
    cases call with
    | register schema =>
      refine (mem_register_iff hordered).trans (or_congr ?_ (and_congr_right' ?_))
      · rw [Call.register.injEq, eq_comm]
      · exact not_congr eq_comm
    | unregister name =>
      refine (mem_unregister_iff hordered).trans ?_
      simp only [reduceCtorEq, false_or, Call.Settles, ne_eq, eq_comm]
    | clear => simp [Call.apply, Registry.clear, Call.Settles]

end HybridSearch.Registry
