import HybridSearch.Filter

/-!
# Clauses

The tree behind a query text. Chains of one connective are groups, members that every document
matches are gone, and no group has fewer than two members.

* `Filter.canonical`, `Filter.members`: the clause of a filter, and the clauses of its operands;
  none if nothing is left of it.
* `Clause.text`: the text of a clause whose conditions are texts.
* `canonical_join_members`, `members_join_self`, `members_alone`: the members of a chain, step by
  step along the filter.
* `Filter.members_eq_chain`: they are those that rendering goes along.
-/
namespace HybridSearch

/-- A filter as it is written: conditions, negations, and groups of members. -/
inductive Clause (α : Type) where
  | leaf (a : α)
  | group (op : Connective) (members : List (Clause α))
  | not (c : Clause α)

namespace Clause

variable {α β : Type}

/-- Induction along a clause; in a group it may be used for every member. -/
@[elab_as_elim]
theorem induct {motive : Clause α → Prop} (leaf : ∀ a, motive (leaf a))
    (group : ∀ op members, (∀ c ∈ members, motive c) → motive (group op members))
    (not : ∀ c, motive c → motive (not c)) : ∀ c, motive c
  | .leaf a => leaf a
  | .group op members => group op members fun c _ => induct leaf group not c
  | .not c => not c (induct leaf group not c)

/-! ## Functions along a clause -/

mutual

def map (g : α → β) : Clause α → Clause β
  | leaf a => leaf (g a)
  | group op members => group op (mapAll g members)
  | not c => not (c.map g)

def mapAll (g : α → β) : List (Clause α) → List (Clause β)
  | [] => []
  | c :: rest => c.map g :: mapAll g rest

end

mutual

/-- The text of a clause from the texts of its conditions. -/
def text : Clause String → String
  | leaf t => t
  | group op members => "(" ++ op.separator.intercalate (texts members) ++ ")"
  | not c => "(-" ++ c.text ++ ")"

def texts : List (Clause String) → List String
  | [] => []
  | c :: rest => c.text :: texts rest

end

theorem mapAll_eq (g : α → β) (cs : List (Clause α)) : mapAll g cs = cs.map (map g) := by
  induction cs with
  | nil => rfl
  | cons c cs ih => rw [mapAll, ih, List.map_cons]

theorem texts_eq (cs : List (Clause String)) : texts cs = cs.map text := by
  induction cs with
  | nil => rfl
  | cons c cs ih => rw [texts, ih, List.map_cons]

theorem text_group (op : Connective) (members : List (Clause String)) :
    (group op members).text = "(" ++ op.separator.intercalate (members.map text) ++ ")" := by
  rw [text, texts_eq]

theorem map_group (g : α → β) (op : Connective) (members : List (Clause α)) :
    (group op members).map g = group op (members.map (map g)) := by
  rw [map, mapAll_eq]

/-! ## Groups with few members -/

/-- The clause of the members of a chain. Without a member there is none, and one member stands for
itself. -/
def ofMembers? (op : Connective) : List (Clause α) → Option (Clause α)
  | [] => none
  | [c] => some c
  | members => some (group op members)

theorem ofMembers?_eq_none_iff {op : Connective} {cs : List (Clause α)} :
    ofMembers? op cs = none ↔ cs = [] := by
  match cs with
  | [] => simp [ofMembers?]
  | [c] => simp [ofMembers?]
  | c :: d :: rest => simp [ofMembers?]

theorem map_ofMembers? (g : α → β) (op : Connective) (cs : List (Clause α)) :
    (ofMembers? op cs).map (map g) = ofMembers? op (cs.map (map g)) := by
  match cs with
  | [] => rfl
  | [c] => rfl
  | c :: d :: rest => simp [ofMembers?, map_group]

theorem text_ofMembers? (op : Connective) (cs : List (Clause String)) :
    (ofMembers? op cs).map text = op.groupText? (cs.map text) := by
  match cs with
  | [] => rfl
  | [c] => rfl
  | c :: d :: rest => simp [ofMembers?, Connective.groupText?, text_group]

end Clause

namespace Filter

/-! ## The clause of a filter -/

mutual

/-- The clause of a filter. None if every document matches the filter. -/
def canonical : Filter → Option (Clause Predicate)
  | leaf .all => none
  | leaf p => some (.leaf p)
  | join op left right => Clause.ofMembers? op (left.members op ++ right.members op)
  | not f => f.canonical.map .not

/-- The clauses of the operands that a filter has as a part of a chain of `op`, from left to right:
those of both sides of each node of `op`, and the clause of anything else. Operands that every
document matches are left out. -/
def members (op : Connective) : Filter → List (Clause Predicate)
  | leaf .all => []
  | leaf p => [.leaf p]
  | join own left right =>
    if own = op then left.members op ++ right.members op
    else (Clause.ofMembers? own (left.members own ++ right.members own)).toList
  | not f => (f.canonical.map .not).toList

end

theorem canonical_leaf {p : Predicate} (h : p ≠ .all) : (leaf p).canonical = some (.leaf p) := by
  rw [canonical]
  exact h

theorem members_join_self (op : Connective) (left right : Filter) :
    (join op left right).members op = left.members op ++ right.members op := by
  rw [members, if_pos rfl]

theorem canonical_join_members (op : Connective) (left right : Filter) :
    (join op left right).canonical = Clause.ofMembers? op ((join op left right).members op) := by
  rw [canonical, members_join_self]

/-- A filter that is no chain of `op` counts as one member of it, or none. -/
theorem members_alone {op : Connective} {f : Filter} (h : f.chain op = [f]) :
    f.members op = f.canonical.toList := by
  cases f with
  | leaf p => cases p <;> rfl
  | not f => rw [members, canonical]
  | join own left right =>
    by_cases hop : own = op
    · subst hop
      -- The operands of a chain are smaller than the chain itself.
      have hself : join own left right ∈ (join own left right).chain own := by
        rw [h]
        exact List.mem_singleton_self _
      exact absurd (sizeOf_lt_of_mem_chain_join hself) (Nat.lt_irrefl _)
    · rw [members, if_neg hop, canonical]

/-- The operands are those that rendering goes along. -/
theorem members_eq_chain (op : Connective) (f : Filter) :
    f.members op = (f.chain op).filterMap canonical := by
  have alone : ∀ {g : Filter}, g.chain op = [g] →
      g.members op = (g.chain op).filterMap canonical := by
    intro g h
    rw [members_alone h, h]
    cases hc : g.canonical <;> simp [hc]
  induction f with
  | leaf p => exact alone rfl
  | not f => exact alone rfl
  | join own left right ihl ihr =>
    by_cases hop : own = op
    · subst hop
      rw [members_join_self, ihl, ihr, chain, if_pos rfl, List.filterMap_append]
    · exact alone (by rw [chain, if_neg hop])

end Filter
end HybridSearch
