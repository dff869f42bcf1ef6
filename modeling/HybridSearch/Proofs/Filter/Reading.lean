import HybridSearch.Proofs.Filter.Reader

/-!
# How texts of expressions are read

A row of signs expresses a clause if the reader, wherever an expression may stand, goes along the row
and then holds the clause, with the frames as they were. Rows of this kind are put together as the
writer puts texts together: in parentheses, with separators, behind a minus sign.

* `Reader.Holds`: the reader has read a clause.
* `Reader.Expresses`: a row of signs that stands for a clause.
* `expresses_group`, `expresses_not`, `expresses_condition`: how such rows are put together.
-/
namespace HybridSearch

open Text

namespace Connective

def between : Connective → List Sign
  | and => [plain ' ']
  | or => [plain ' ', plain '|', plain ' ']

theorem spells_separator (op : Connective) : Spells op.separator.toList op.between := by
  cases op with
  | and => exact spells_of_plain (by decide)
  | or => exact spells_of_plain (by decide)

end Connective

namespace Reader

/-! ## Runs -/

theorem run_append (r : Reader) (read more : List Sign) :
    r.run (read ++ more) = (r.run read).bind fun r' => r'.run more := by
  rw [run, List.foldlM_append]
  rfl

theorem run_cons (r : Reader) (sign : Sign) (more : List Sign) :
    r.run (sign :: more) = (r.step sign).bind fun r' => r'.run more := by
  rw [run, List.foldlM_cons]
  rfl

theorem run_append_of_eq_some {r r' : Reader} {read : List Sign} (h : r.run read = some r')
    (more : List Sign) : r.run (read ++ more) = r'.run more := by
  rw [run_append, h, Option.bind_some]

theorem run_cons_of_eq_some {r r' : Reader} {sign : Sign} (h : r.step sign = some r')
    (more : List Sign) : r.run (sign :: more) = r'.run more := by
  rw [run_cons, h, Option.bind_some]

/-! ## After an expression -/

/-- The reader has read the clause: it stands after it, or inside the pattern without brackets that
the clause is. -/
inductive Holds (c : Clause Condition) (frames : List Frame) : Reader → Prop
  | done : Holds c frames ⟨.done c, frames⟩
  | word {field : String} {read : List Sign} (h : c = wordClause field read) :
      Holds c frames ⟨.word field read, frames⟩

namespace Holds

variable {c : Clause Condition} {frames : List Frame} {r : Reader}

/-- A sign that may stand after an expression has the same effect at the end of a pattern without
brackets. -/
theorem step_eq (h : Holds c frames r) {sign : Sign} (hsign : sign = plain ' ' ∨ sign = plain ')') :
    r.step sign = after? c frames sign := by
  cases h with
  | done => rfl
  | word hc =>
    subst hc
    exact if_pos hsign

theorem step_blank (h : Holds c frames r) : r.step (plain ' ') = some ⟨.blank c, frames⟩ := by
  rw [h.step_eq (.inl rfl)]
  rfl

theorem step_close (h : Holds c frames r) : r.step (plain ')') = close? c frames := by
  rw [h.step_eq (.inr rfl)]
  rfl

theorem finish (h : Holds c [] r) : r.finish? = some c := by
  cases h with
  | done => rfl
  | word hc =>
    subst hc
    rfl

end Holds

/-! ## The beginnings of expressions -/

def Begins (read : List Sign) : Prop :=
  ∃ sign more, read = sign :: more ∧ (sign = plain '(' ∨ sign = plain '@')

theorem Begins.append {read : List Sign} (h : Begins read) (more : List Sign) :
    Begins (read ++ more) := by
  obtain ⟨sign, rest, rfl, hsign⟩ := h
  exact ⟨sign, rest ++ more, rfl, hsign⟩

theorem Begins.run_opened {read : List Sign} (h : Begins read) (frames : List Frame) :
    run ⟨.opened, frames⟩ read = run ⟨.start, .group none [] :: frames⟩ read := by
  obtain ⟨sign, rest, rfl, hsign⟩ := h
  have hminus : sign ≠ plain '-' := by
    rintro rfl
    revert hsign
    decide
  have hstep : step ⟨.opened, frames⟩ sign = step ⟨.start, .group none [] :: frames⟩ sign :=
    if_neg hminus
  rw [run_cons, run_cons, hstep]

/-- Between two members of a group the reader files the first one, and the connective is known. -/
theorem Begins.run_between {read : List Sign} (h : Begins read) {c : Clause Condition}
    {frames : List Frame} {op : Connective} {known : Option Connective}
    {members : List (Clause Condition)} {r : Reader}
    (hr : Holds c (.group known members :: frames) r) (hknown : known = none ∨ known = some op) :
    run r (op.between ++ read) = run ⟨.start, .group (some op) (members ++ [c]) :: frames⟩ read := by
  have hadd : addMember? op c (.group known members :: frames) =
      some (.group (some op) (members ++ [c]) :: frames) := if_pos hknown
  cases op with
  | and =>
    obtain ⟨sign, rest, rfl, hsign⟩ := h
    have hbar : sign ≠ plain '|' := by
      rintro rfl
      revert hsign
      decide
    have hstep : step ⟨.blank c, .group known members :: frames⟩ sign =
        step ⟨.start, .group (some .and) (members ++ [c]) :: frames⟩ sign := by
      have : step ⟨.blank c, .group known members :: frames⟩ sign =
          (addMember? .and c (.group known members :: frames)).bind fun frames =>
            begin? frames sign := if_neg hbar
      rw [this, hadd]
      rfl
    rw [Connective.between, List.singleton_append, run_cons_of_eq_some hr.step_blank, run_cons,
      run_cons, hstep]
  | or =>
    have hbar : step ⟨.blank c, .group known members :: frames⟩ (plain '|') =
        some ⟨.bar c, .group known members :: frames⟩ := rfl
    have hblank : step ⟨.bar c, .group known members :: frames⟩ (plain ' ') =
        some ⟨.start, .group (some .or) (members ++ [c]) :: frames⟩ := by
      have : step ⟨.bar c, .group known members :: frames⟩ (plain ' ') =
          (addMember? .or c (.group known members :: frames)).map fun frames =>
            ⟨.start, frames⟩ := rfl
      rw [this, hadd]
      rfl
    rw [Connective.between, List.cons_append, run_cons_of_eq_some hr.step_blank, List.cons_append,
      run_cons_of_eq_some hbar, List.cons_append, run_cons_of_eq_some hblank, List.nil_append]

/-! ## Rows of signs that stand for a clause -/

/-- Wherever an expression may stand, the row is read as the clause, and the frames around it stay
as they are. -/
structure Expresses (read : List Sign) (c : Clause Condition) : Prop where
  begins : Begins read
  holds : ∀ frames, ∃ r, run ⟨.start, frames⟩ read = some r ∧ Holds c frames r

variable {α : Type} {read : α → List Sign} {clause : α → Clause Condition}

theorem begins_intercalate {between : List Sign} {x : α} {xs : List α}
    (h : Expresses (read x) (clause x)) : Begins (between.intercalate ((x :: xs).map read)) := by
  cases xs with
  | nil => simpa using h.begins
  | cons y ys =>
    rw [List.map_cons, List.map_cons, List.intercalate_cons_cons, List.append_assoc]
    exact h.begins.append _

/-- The members of a group from one of them up to the closing parenthesis. -/
theorem run_members {op : Connective} {x : α} {xs : List α} {frames : List Frame}
    (h : ∀ y ∈ x :: xs, Expresses (read y) (clause y)) (before : List (Clause Condition)) :
    run ⟨.start, .group (some op) before :: frames⟩
        (op.between.intercalate ((x :: xs).map read) ++ [plain ')']) =
      some ⟨.done (.group op (before ++ (x :: xs).map clause)), frames⟩ := by
  induction xs generalizing x before with
  | nil =>
    obtain ⟨r, hrun, hr⟩ := (h x List.mem_cons_self).holds (.group (some op) before :: frames)
    have hclose : r.step (plain ')') = some ⟨.done (.group op (before ++ [clause x])), frames⟩ :=
      hr.step_close
    rw [List.map_singleton, List.intercalate_singleton, run_append_of_eq_some hrun,
      run_cons_of_eq_some hclose]
    rfl
  | cons y ys ih =>
    obtain ⟨r, hrun, hr⟩ := (h x List.mem_cons_self).holds (.group (some op) before :: frames)
    have htail : ∀ z ∈ y :: ys, Expresses (read z) (clause z) := fun z hz =>
      h z (List.mem_cons_of_mem x hz)
    have hbegins : Begins (op.between.intercalate ((y :: ys).map read) ++ [plain ')']) :=
      (begins_intercalate (htail y List.mem_cons_self)).append _
    rw [List.map_cons, List.map_cons, List.intercalate_cons_cons, ← List.map_cons,
      List.append_assoc, List.append_assoc, run_append_of_eq_some hrun,
      hbegins.run_between hr (.inr rfl), ih htail, List.append_assoc]
    rfl

theorem expresses_group {op : Connective} {x y : α} {xs : List α}
    (h : ∀ z ∈ x :: y :: xs, Expresses (read z) (clause z)) :
    Expresses (plain '(' :: (op.between.intercalate ((x :: y :: xs).map read) ++ [plain ')']))
      (.group op ((x :: y :: xs).map clause)) := by
  have hx := h x List.mem_cons_self
  have htail : ∀ z ∈ y :: xs, Expresses (read z) (clause z) := fun z hz =>
    h z (List.mem_cons_of_mem x hz)
  refine ⟨⟨_, _, rfl, .inl rfl⟩, fun frames => ⟨_, ?_, .done⟩⟩
  have hopen : step ⟨.start, frames⟩ (plain '(') = some ⟨.opened, frames⟩ := rfl
  obtain ⟨r, hrun, hr⟩ := hx.holds (.group none [] :: frames)
  have hbegins : Begins (op.between.intercalate ((y :: xs).map read) ++ [plain ')']) :=
    (begins_intercalate (htail y List.mem_cons_self)).append _
  -- The first member is read before the connective is known, all others after it.
  rw [run_cons_of_eq_some hopen, ((begins_intercalate hx).append _).run_opened, List.map_cons,
    List.map_cons, List.intercalate_cons_cons, ← List.map_cons, List.append_assoc,
    List.append_assoc, run_append_of_eq_some hrun, hbegins.run_between hr (.inl rfl),
    run_members htail]
  rfl

theorem expresses_not {read : List Sign} {c : Clause Condition} (h : Expresses read c) :
    Expresses (plain '(' :: plain '-' :: (read ++ [plain ')'])) (.not c) := by
  refine ⟨⟨_, _, rfl, .inl rfl⟩, fun frames => ⟨_, ?_, .done⟩⟩
  have hopen : step ⟨.start, frames⟩ (plain '(') = some ⟨.opened, frames⟩ := rfl
  have hminus : step ⟨.opened, frames⟩ (plain '-') = some ⟨.start, .negation :: frames⟩ := rfl
  obtain ⟨r, hrun, hr⟩ := h.holds (.negation :: frames)
  have hclose : r.step (plain ')') = some ⟨.done (.not c), frames⟩ := hr.step_close
  rw [run_cons_of_eq_some hopen, run_cons_of_eq_some hminus, run_append_of_eq_some hrun,
    run_cons_of_eq_some hclose]
  rfl

/-! ## Conditions -/

/-- After a field and a colon the row is read as the operand. -/
def Fills (read : List Sign) (operand : Operand) : Prop :=
  ∀ field frames, ∃ r, run ⟨.operand field, frames⟩ read = some r ∧
    Holds (.leaf ⟨field, operand⟩) frames r

/-- Signs that only add to what has been read at a place are gone through together. -/
theorem run_collect {place : List Sign → Place} {frames : List Frame} {read : List Sign}
    (h : ∀ sign ∈ read, ∀ before,
      step ⟨place before, frames⟩ sign = some ⟨place (before ++ [sign]), frames⟩)
    (before : List Sign) :
    run ⟨place before, frames⟩ read = some ⟨place (before ++ read), frames⟩ := by
  induction read generalizing before with
  | nil =>
    rw [List.append_nil]
    rfl
  | cons sign rest ih =>
    have hrest := ih fun sign' h' => h sign' (List.mem_cons_of_mem sign h')
    rw [run_cons_of_eq_some (h sign List.mem_cons_self before), hrest, List.append_assoc]
    rfl

theorem run_field {read : List Sign} (h : plain ':' ∉ read) (frames : List Frame) :
    run ⟨.field [], frames⟩ read = some ⟨.field (read.map Sign.char), frames⟩ := by
  have hstep : ∀ sign ∈ read, ∀ before : List Sign,
      step ⟨.field (before.map Sign.char), frames⟩ sign =
        some ⟨.field ((before ++ [sign]).map Sign.char), frames⟩ := by
    intro sign hsign before
    have hcolon : sign ≠ plain ':' := fun heq => h (heq ▸ hsign)
    rw [List.map_append]
    exact if_neg hcolon
  exact run_collect hstep []

theorem run_inside {bracket : Bracket} {read : List Sign} (h : bracket.closing ∉ read)
    (field : String) (frames : List Frame) :
    run ⟨.inside field bracket [], frames⟩ read = some ⟨.inside field bracket read, frames⟩ := by
  refine run_collect (fun sign hsign before => ?_) []
  have hclosing : sign ≠ bracket.closing := fun heq => h (heq ▸ hsign)
  exact if_neg hclosing

theorem run_word {read : List Sign} (hblank : plain ' ' ∉ read) (hclose : plain ')' ∉ read)
    (field : String) (before : List Sign) (frames : List Frame) :
    run ⟨.word field before, frames⟩ read = some ⟨.word field (before ++ read), frames⟩ := by
  refine run_collect (fun sign hsign before => ?_) before
  have hends : ¬(sign = plain ' ' ∨ sign = plain ')') := by
    rintro (rfl | rfl)
    · exact hblank hsign
    · exact hclose hsign
  exact if_neg hends

/-- An operand between brackets: the first sign that closes them is the last one of the row. -/
theorem fills_brackets (bracket : Bracket) {opening : Sign} {inside : List Sign}
    {operand : Operand} (hopening : Bracket.ofSign? opening = some bracket)
    (hclosing : bracket.closing ∉ inside) (hoperand : bracket.operand? inside = some operand) :
    Fills (opening :: (inside ++ [bracket.closing])) operand := by
  intro field frames
  refine ⟨_, ?_, .done⟩
  have hopen : step ⟨.operand field, frames⟩ opening = some ⟨.inside field bracket [], frames⟩ := by
    rw [step]
    simp only [hopening]
  have hclose : step ⟨.inside field bracket inside, frames⟩ bracket.closing =
      some ⟨.done (.leaf ⟨field, operand⟩), frames⟩ := by
    have : step ⟨.inside field bracket inside, frames⟩ bracket.closing =
        (bracket.operand? inside).map fun operand => ⟨.done (.leaf ⟨field, operand⟩), frames⟩ :=
      if_pos rfl
    rw [this, hoperand]
    rfl
  rw [run_cons_of_eq_some hopen, run_append_of_eq_some (run_inside hclosing field frames),
    run_cons_of_eq_some hclose]
  rfl

/-- A pattern without brackets. It ends where the text or the expression around it goes on. -/
theorem fills_word {first : Sign} {rest : List Sign} (hfirst : Bracket.ofSign? first = none)
    (hblank : plain ' ' ∉ first :: rest) (hclose : plain ')' ∉ first :: rest) :
    Fills (first :: rest) (.pattern ((first :: rest).map Sign.part)) := by
  intro field frames
  have hopen : step ⟨.operand field, frames⟩ first = some ⟨.word field [first], frames⟩ := by
    rw [step]
    simp only [hfirst]
  have hrest : run ⟨.word field [first], frames⟩ rest =
      some ⟨.word field (first :: rest), frames⟩ :=
    run_word (fun h => hblank (List.mem_cons_of_mem _ h))
      (fun h => hclose (List.mem_cons_of_mem _ h)) field [first] frames
  exact ⟨_, by rw [run_cons_of_eq_some hopen, hrest], .word rfl⟩

theorem expresses_condition {field : String} {read : List Sign} {operand : Operand}
    (hfield : ':' ∉ field.toList) (h : Fills read operand) :
    Expresses (plain '@' :: (field.toList.map plain ++ plain ':' :: read))
      (.leaf ⟨field, operand⟩) := by
  refine ⟨⟨_, _, rfl, .inr rfl⟩, fun frames => ?_⟩
  obtain ⟨r, hrun, hr⟩ := h field frames
  refine ⟨r, ?_, hr⟩
  have hat : step ⟨.start, frames⟩ (plain '@') = some ⟨.field [], frames⟩ := rfl
  have hcolon : plain ':' ∉ field.toList.map plain := by
    intro hmem
    obtain ⟨c, hc, heq⟩ := List.mem_map.mp hmem
    obtain rfl : c = ':' := congrArg Sign.char heq
    exact hfield hc
  have hname : (field.toList.map plain).map Sign.char = field.toList := by
    rw [List.map_map]
    exact List.map_id _
  have hstep : step ⟨.field field.toList, frames⟩ (plain ':') = some ⟨.operand field, frames⟩ := by
    have : step ⟨.field field.toList, frames⟩ (plain ':') =
        some ⟨.operand (String.ofList field.toList), frames⟩ := rfl
    rw [this, String.ofList_toList]
  rw [run_cons_of_eq_some hat, run_append_of_eq_some (run_field hcolon frames), hname,
    run_cons_of_eq_some hstep, hrun]

end Reader
end HybridSearch
