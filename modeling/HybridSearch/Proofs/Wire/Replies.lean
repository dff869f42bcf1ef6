import HybridSearch.Proofs.Checks
import HybridSearch.Wire.Command

/-!
# What replies stand for

Which replies stand for bytes and which for a text, and what a row of replies says in which names
and values take turns. All of it is said of the replies alone, and then that they are read so.

* `Reply.Carries`, `Reply.Spells`: the bytes and the text that a reply stands for.
* `Reply.Lists`: names and values in turn.
* `Attributes.entries`, `Reply.inTurn`: attributes laid out as replies.
-/
namespace HybridSearch

namespace Reply

/-- The bytes that a reply stands for: its own, or the UTF-8 form of its text or of its number. -/
inductive Carries : Reply → Bytes → Prop
  | bulk (bytes : Bytes) : Carries (.bulk bytes) bytes
  | simple (s : String) : Carries (.simple s) (Bytes.ofText s)
  | integer (n : Int) : Carries (.integer n) (Bytes.ofText (toString n))
  | double (x : Binary64) : Carries (.double x) (Bytes.ofText x.text)

/-- A reply stands for a text if it stands for the UTF-8 form of it. -/
def Spells (r : Reply) (s : String) : Prop :=
  r.Carries (Bytes.ofText s)

/-- Names and values in turn, and the attributes that they stand for. -/
inductive Lists : List Reply → Attributes → Prop
  | nil : Lists [] []
  | cons {name value : Reply} {s : String} {bytes : Bytes} {rest : List Reply}
      {attributes : Attributes} (hname : name.Spells s) (hvalue : value.Carries bytes)
      (hrest : Lists rest attributes) : Lists (name :: value :: rest) ((s, bytes) :: attributes)

/-- Pairs of replies one behind the other. -/
def inTurn (entries : List (Reply × Reply)) : List Reply :=
  entries.flatMap fun entry => [entry.1, entry.2]

end Reply

/-- Attributes as names and values, all of them as they are. -/
def Attributes.entries (attributes : Attributes) : List (Reply × Reply) :=
  attributes.map fun pair => (.bulk (Bytes.ofText pair.1), .bulk pair.2)

namespace Reply

/-! ## Bytes and texts -/

variable {r : Reply}

theorem bytes?_eq_some_iff {bytes : Bytes} : r.bytes? = some bytes ↔ r.Carries bytes := by
  constructor
  · intro h
    cases r with
    | bulk own => obtain rfl := Option.some.inj h; exact .bulk own
    | simple s => obtain rfl := Option.some.inj h; exact .simple s
    | integer n => obtain rfl := Option.some.inj h; exact .integer n
    | double x => obtain rfl := Option.some.inj h; exact .double x
    | _ => cases h
  · intro h
    cases h <;> rfl

theorem text?_eq_some_iff {s : String} : r.text? = some s ↔ r.Spells s := by
  rw [text?, Option.bind_eq_some_iff, Spells]
  simp only [bytes?_eq_some_iff, Bytes.text?_eq_some_iff]
  constructor
  · rintro ⟨bytes, hbytes, rfl⟩
    exact hbytes
  · intro h
    exact ⟨_, h, rfl⟩

theorem text_eq_ok_iff {s : String} : r.text = .ok s ↔ r.Spells s := by
  rw [← text?_eq_some_iff, text]
  cases r.text? <;> simp

/-! ## Attributes -/

theorem attributeOf_eq_ok_iff {badValue : Reply → ReplyFault} {name value : Reply}
    {pair : String × Bytes} :
    attributeOf badValue name value = .ok pair ↔
      name.Spells pair.1 ∧ value.Carries pair.2 := by
  rw [attributeOf, ← text_eq_ok_iff, ← bytes?_eq_some_iff]
  cases hbytes : value.bytes? with
  | none => simp [throw, throwThe, MonadExceptOf.throw, bind, Except.bind]
  | some bytes =>
    cases name.text with
    | error fault => simp [bind, Except.bind, pure, Except.pure]
    | ok s => simp [bind, Except.bind, pure, Except.pure, Prod.ext_iff]

theorem attributes_eq_ok_iff {odd : ReplyFault} {badValue : Reply → ReplyFault}
    {items : List Reply} {pairs : Attributes} :
    attributes odd badValue items = .ok pairs ↔ Lists items pairs := by
  induction items using attributes.induct generalizing pairs with
  | case1 =>
    constructor
    · rintro ⟨⟩
      exact .nil
    · rintro ⟨⟩
      rfl
  | case2 => exact ⟨nofun, nofun⟩
  | case3 name value rest ih =>
    rw [attributes, bind_eq_ok_iff]
    simp only [attributeOf_eq_ok_iff, bind_eq_ok_iff, ih]
    constructor
    · rintro ⟨⟨s, bytes⟩, ⟨hname, hvalue⟩, later, hlater, ⟨⟩⟩
      exact .cons hname hvalue hlater
    · intro h
      cases h with
      | cons hname hvalue hlater => exact ⟨_, ⟨hname, hvalue⟩, _, hlater, rfl⟩

theorem lists_inTurn (attributes : Attributes) : Lists (inTurn attributes.entries) attributes := by
  induction attributes with
  | nil => exact .nil
  | cons pair rest ih => exact .cons (.bulk _) (.bulk _) ih

end Reply
end HybridSearch
