import HybridSearch.Proofs.Wire.Replies

/-!
# Replies to a search

What a reply to a search looks like, said without reading it. Exactly these replies are read, and
nothing that they say is lost.

```text
reply       ::=  [count, group, …]
group       ::=  id  |  id attributes
attributes  ::=  [name, value, name, value, …]
```

An id and a name stand for a text, a value stands for bytes. A group with attributes cannot be taken
for two groups, since an array stands for no id.

* `Reply.Groups`, `Reply.Answers`: the grammar, with what is said by it.
* `SearchResults.reply`: search results in this layout.
* `SearchResults.ofReply_iff_answers`: the replies that are read, and what they are read as.
-/
namespace HybridSearch

/-! ## The grammar -/

namespace Reply

/-- The groups behind the count, and the rows that they stand for. -/
inductive Groups : List Reply → List Row → Prop
  | nil : Groups [] []
  | bare {id : Reply} {s : String} {rest : List Reply} {rows : List Row} (hid : id.Spells s)
      (hrest : Groups rest rows) : Groups (id :: rest) (⟨s, []⟩ :: rows)
  | full {id : Reply} {s : String} {items rest : List Reply} {attributes : Attributes}
      {rows : List Row} (hid : id.Spells s) (hitems : Lists items attributes)
      (hrest : Groups rest rows) : Groups (id :: .array items :: rest) (⟨s, attributes⟩ :: rows)

/-- A reply to a search, and the results that it stands for. -/
inductive Answers : Reply → SearchResults → Prop
  | mk (total : Nat) {rest : List Reply} {rows : List Row} (hrest : Groups rest rows) :
      Answers (.array (.integer total :: rest)) ⟨total, rows⟩

/-- An array stands for no text, so it is never an id. -/
theorem not_spells_array {items : List Reply} {s : String} : ¬(array items).Spells s :=
  nofun

end Reply

/-! ## Replies that are read -/

namespace SearchResults

open Reply

theorem rowsOfReplies_eq_ok_iff {items : List Reply} {rows : List Row} :
    rowsOfReplies items = .ok rows ↔ Groups items rows := by
  induction items using rowsOfReplies.induct generalizing rows with
  | case1 =>
    constructor
    · rintro ⟨⟩
      exact .nil
    · rintro ⟨⟩
      rfl
  | case2 id items rest ih =>
    rw [rowsOfReplies]
    simp only [bind_eq_ok_iff, text_eq_ok_iff, attributes_eq_ok_iff, ih]
    constructor
    · rintro ⟨s, hid, pairs, hpairs, later, hlater, ⟨⟩⟩
      exact .full hid hpairs hlater
    · intro h
      cases h with
      | bare hid hrest =>
        -- The array would have to be an id itself.
        cases hrest with
        | bare harray => exact absurd harray not_spells_array
        | full harray => exact absurd harray not_spells_array
      | full hid hpairs hlater => exact ⟨_, hid, _, hpairs, _, hlater, rfl⟩
  | case3 id rest hother ih =>
    rw [rowsOfReplies.eq_3 _ _ hother]
    simp only [bind_eq_ok_iff, text_eq_ok_iff, ih]
    constructor
    · rintro ⟨s, hid, later, hlater, ⟨⟩⟩
      exact .bare hid hlater
    · intro h
      cases h with
      | bare hid hlater => exact ⟨_, hid, _, hlater, rfl⟩
      | full hid hpairs hlater => exact absurd rfl (hother _ _)

theorem ofReply_eq_ok_iff {r : Reply} {results : SearchResults} :
    ofReply r = .ok results ↔ r.Answers results := by
  rw [ofReply.eq_def]
  split
  · rename_i n rest
    by_cases hn : 0 ≤ n
    · obtain ⟨total, rfl⟩ := Int.eq_ofNat_of_zero_le hn
      rw [if_pos hn, bind_eq_ok_iff]
      simp only [rowsOfReplies_eq_ok_iff]
      constructor
      · rintro ⟨rows, hrows, ⟨⟩⟩
        exact .mk total hrows
      · intro h
        cases h with
        | mk _ hrows => exact ⟨_, hrows, rfl⟩
    · rw [if_neg hn]
      refine ⟨nofun, fun h => ?_⟩
      cases h with
      | mk total _ => exact absurd (Int.natCast_nonneg total) hn
  · rename_i items hother
    refine ⟨nofun, fun h => ?_⟩
    cases h with
    | mk total _ => exact absurd rfl (hother _ _)
  · rename_i hother
    refine ⟨nofun, fun h => ?_⟩
    cases h with
    | mk total _ => exact absurd rfl (hother _)

end SearchResults

/-! ## Results laid out as a reply -/

/-- A row as a group. If it has no attributes, an array without items is put there or left out. -/
def Row.group (bare : Bool) (row : Row) : List Reply :=
  let id := .bulk (Bytes.ofText row.id)
  if bare && row.attributes.isEmpty then [id] else [id, .array (Reply.inTurn row.attributes.entries)]

namespace SearchResults

open Reply

/-- Search results as a reply. For each row, by its position, it is said whether it stands bare if it
has no attributes. -/
def reply (results : SearchResults) (bare : Nat → Bool) : Reply :=
  .array (.integer results.total ::
    (results.rows.mapIdx fun position row => row.group (bare position)).flatten)

theorem groups_append (bare : Bool) (row : Row) {rest : List Reply} {rows : List Row}
    (hrest : Groups rest rows) : Groups (row.group bare ++ rest) (row :: rows) := by
  have hid : Spells (.bulk (Bytes.ofText row.id)) row.id := .bulk _
  rw [Row.group]
  split
  · rename_i hbare
    have hempty : row.attributes = [] :=
      List.isEmpty_iff.mp (Bool.and_eq_true_iff.mp hbare).2
    have hrow : row = ⟨row.id, []⟩ := by rw [← hempty]
    rw [hrow]
    exact .bare hid hrest
  · exact .full hid (lists_inTurn row.attributes) hrest

theorem groups_flatten (rows : List Row) (bare : Nat → Bool) :
    Groups (rows.mapIdx fun position row => row.group (bare position)).flatten rows := by
  induction rows generalizing bare with
  | nil => exact .nil
  | cons row rest ih =>
    rw [List.mapIdx_cons, List.flatten_cons]
    exact groups_append (bare 0) row (ih fun position => bare (position + 1))

/-- A reply to a search is read exactly if it keeps to the grammar, and it is read as the results that
it stands for; every other reply is at fault and gives no rows. So results come back unchanged from
any layout as a reply, whatever the number of documents is and whether rows without attributes have
an array or not. -/
theorem ofReply_iff_answers :
    (∀ r : Reply,
      (∀ results, ofReply r = .ok results ↔ r.Answers results) ∧
      ((∃ fault, ofReply r = .error fault) ↔ ∀ results, ¬r.Answers results)) ∧
    ∀ (results : SearchResults) (bare : Nat → Bool), ofReply (results.reply bare) = .ok results := by
  refine ⟨fun r => ⟨fun results => ofReply_eq_ok_iff, ?_⟩, fun results bare => ?_⟩
  · simp only [← ofReply_eq_ok_iff]
    cases ofReply r <;> simp
  · exact ofReply_eq_ok_iff.mpr (.mk results.total (groups_flatten results.rows bare))

end SearchResults
end HybridSearch
