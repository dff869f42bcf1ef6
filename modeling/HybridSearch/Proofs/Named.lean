import Mathlib.Data.List.Nodup

/-!
# Named entries

Lists whose entries have names, no name twice. A search by name, which takes the first entry that
fits, finds exactly what is there, and what it takes out is the one entry with that name.
-/
namespace HybridSearch

section Named

variable {α β : Type} [BEq β] [LawfulBEq β] {name : α → β} {xs : List α}

theorem find?_named_eq_none_iff {n : β} :
    (xs.find? fun x => name x == n) = none ↔ ∀ x ∈ xs, name x ≠ n := by
  simp

theorem find?_named_eq_some_iff (h : (xs.map name).Nodup) {n : β} {x : α} :
    (xs.find? fun x => name x == n) = some x ↔ x ∈ xs ∧ name x = n := by
  constructor
  · intro hfind
    exact ⟨List.mem_of_find?_eq_some hfind, by simpa using List.find?_some hfind⟩
  · rintro ⟨hmem, rfl⟩
    cases hfind : xs.find? fun y => name y == name x with
    | none => exact absurd rfl (find?_named_eq_none_iff.mp hfind x hmem)
    | some y =>
      have hname : name y = name x := by simpa using List.find?_some hfind
      rw [List.inj_on_of_nodup_map h (List.mem_of_find?_eq_some hfind) hmem hname]

theorem eraseP_named_eq_filter (h : (xs.map name).Nodup) (n : β) :
    (xs.eraseP fun x => name x == n) = xs.filter fun x => name x != n := by
  induction xs with
  | nil => rfl
  | cons x xs ih =>
    rw [List.map_cons, List.nodup_cons] at h
    by_cases hx : name x = n
    · subst hx
      have hrest : xs.filter (fun y => name y != name x) = xs := by
        rw [List.filter_eq_self]
        intro y hy
        have hne : name y ≠ name x := fun heq => h.1 (heq ▸ List.mem_map_of_mem hy)
        simpa using hne
      simp [hrest]
    · simp [hx, ih h.2]

end Named
end HybridSearch
