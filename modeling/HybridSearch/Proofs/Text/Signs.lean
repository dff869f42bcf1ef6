import HybridSearch.Text.Escaped

/-!
# Signs

A text as a reader of the query grammar sees it: characters, each with the note whether a backslash
before it has taken away its meaning. A reader that goes along signs never meets a backslash that
protects something, and brackets and separators are the unprotected ones.

* `signs`: the signs of a text.
* `Spells`: a text that has the same signs whatever follows it.
* `spells_of_plain`, `spells_escape`, `Spells.append`, `Spells.intercalate`: texts of that kind.
-/
namespace HybridSearch.Text

/-- A character, and whether a backslash protects it. -/
structure Sign where
  char : Char
  isProtected : Bool
  deriving DecidableEq

def plain (c : Char) : Sign :=
  ⟨c, false⟩

/-- The signs of a text. A backslash that nothing follows stands for itself. -/
def signs : List Char → List Sign
  | '\\' :: c :: rest => ⟨c, true⟩ :: signs rest
  | c :: rest => plain c :: signs rest
  | [] => []

def escapedSigns (reserved : Char → Bool) (cs : List Char) : List Sign :=
  cs.map fun c => ⟨c, reserved c⟩

def value (read : List Sign) : String :=
  String.ofList (read.map Sign.char)

theorem signs_cons {c : Char} (h : c ≠ '\\') (rest : List Char) :
    signs (c :: rest) = plain c :: signs rest := by
  rw [signs]
  intro d rest' hc
  exact absurd hc h

/-- The text has these signs, whatever follows it: no backslash is left open at its end. -/
def Spells (cs : List Char) (read : List Sign) : Prop :=
  ∀ rest, signs (cs ++ rest) = read ++ signs rest

theorem Spells.signs_eq {cs : List Char} {read : List Sign} (h : Spells cs read) :
    signs cs = read := by
  have := h []
  rwa [List.append_nil, show signs [] = [] from rfl, List.append_nil] at this

theorem spells_nil : Spells [] [] :=
  fun _ => rfl

theorem Spells.append {cs ds : List Char} {read more : List Sign} (hc : Spells cs read)
    (hd : Spells ds more) : Spells (cs ++ ds) (read ++ more) := by
  intro rest
  rw [List.append_assoc, hc, hd, List.append_assoc]

theorem Spells.intercalate {separator : List Char} {between : List Sign}
    (hseparator : Spells separator between) {α : Type} {text : α → List Char}
    {read : α → List Sign} {xs : List α} (h : ∀ x ∈ xs, Spells (text x) (read x)) :
    Spells (separator.intercalate (xs.map text)) (between.intercalate (xs.map read)) := by
  induction xs with
  | nil => exact spells_nil
  | cons x xs ih =>
    have hx := h x List.mem_cons_self
    have hxs := ih fun y hy => h y (List.mem_cons_of_mem x hy)
    cases xs with
    | nil => simpa using hx
    | cons y ys =>
      simp only [List.map_cons, List.intercalate_cons_cons] at hxs ⊢
      exact (hx.append hseparator).append hxs

theorem spells_of_plain {cs : List Char} (h : '\\' ∉ cs) : Spells cs (cs.map plain) := by
  induction cs with
  | nil => exact spells_nil
  | cons c cs ih =>
    have hc : c ≠ '\\' := fun hc => h (hc ▸ List.mem_cons_self)
    have hcs : '\\' ∉ cs := fun hcs => h (List.mem_cons_of_mem c hcs)
    intro rest
    rw [List.cons_append, signs_cons hc, ih hcs rest, List.map_cons, List.cons_append]

theorem spells_char (c : Char) (h : c ≠ '\\') : Spells [c] [plain c] :=
  spells_of_plain fun hmem => h (List.mem_singleton.mp hmem).symm

/-- No backslash of an escaped text is left open, provided backslashes are reserved too. -/
theorem spells_escape {reserved : Char → Bool} (h : reserved '\\' = true) (cs : List Char) :
    Spells (escape reserved cs) (escapedSigns reserved cs) := by
  induction cs with
  | nil => exact spells_nil
  | cons c cs ih =>
    intro rest
    cases hc : reserved c with
    | true =>
      rw [escape, if_pos hc, List.cons_append, List.cons_append, signs, ih rest, escapedSigns,
        escapedSigns, List.map_cons, List.cons_append, hc]
    | false =>
      have hne : c ≠ '\\' := by
        rintro rfl
        rw [h] at hc
        cases hc
      rw [escape, if_neg (by simp [hc]), List.cons_append, signs_cons hne, ih rest, escapedSigns,
        escapedSigns, List.map_cons, List.cons_append, hc, plain]

theorem any_escape {p : Char → Bool} (h : p '\\' = false) (reserved : Char → Bool)
    (cs : List Char) : (escape reserved cs).any p = cs.any p := by
  induction cs with
  | nil => rfl
  | cons c cs ih =>
    rw [escape]
    cases reserved c with
    | false => simp [ih]
    | true => simp [ih, h]

/-! ## Signs of a text -/

theorem char_mem_of_mem_signs {cs : List Char} {sign : Sign} (h : sign ∈ signs cs) :
    sign.char ∈ cs := by
  induction cs using signs.induct with
  | case1 c rest ih =>
    rw [signs] at h
    rcases List.mem_cons.mp h with rfl | hmem
    · simp
    · exact List.mem_cons_of_mem _ (List.mem_cons_of_mem _ (ih hmem))
  | case2 c rest hc ih =>
    rw [signs] at h
    · rcases List.mem_cons.mp h with rfl | hmem
      · exact List.mem_cons_self
      · exact List.mem_cons_of_mem _ (ih hmem)
    · exact hc
  | case3 => simp [signs] at h

theorem plain_not_mem_escapedSigns {reserved : Char → Bool} {c : Char} (h : reserved c = true)
    (cs : List Char) : plain c ∉ escapedSigns reserved cs := by
  intro hmem
  obtain ⟨d, -, heq⟩ := List.mem_map.mp hmem
  obtain rfl : d = c := congrArg Sign.char heq
  have hfalse : reserved d = false := congrArg Sign.isProtected heq
  rw [h] at hfalse
  cases hfalse

theorem plain_mem_map_plain {c : Char} {cs : List Char} : plain c ∈ cs.map plain ↔ c ∈ cs := by
  constructor
  · intro h
    obtain ⟨d, hd, heq⟩ := List.mem_map.mp h
    obtain rfl : d = c := congrArg Sign.char heq
    exact hd
  · exact List.mem_map_of_mem

theorem value_escapedSigns (reserved : Char → Bool) (v : String) :
    value (escapedSigns reserved v.toList) = v := by
  rw [value, escapedSigns, List.map_map]
  exact (congrArg String.ofList (List.map_id _)).trans String.ofList_toList

theorem value_map_plain (v : String) : value (v.toList.map plain) = v :=
  value_escapedSigns (fun _ => false) v

theorem not_mem_intercalate {sign separator : Sign} (h : sign ≠ separator)
    {rows : List (List Sign)} (hrows : ∀ row ∈ rows, sign ∉ row) :
    sign ∉ [separator].intercalate rows := by
  induction rows with
  | nil => simp
  | cons row rows ih =>
    have hrow := hrows row List.mem_cons_self
    have htail := ih fun row' h' => hrows row' (List.mem_cons_of_mem row h')
    cases rows with
    | nil => simpa using hrow
    | cons next rest =>
      rw [List.intercalate_cons_cons]
      simp only [List.mem_append, List.mem_singleton, not_or]
      exact ⟨⟨hrow, h⟩, htail⟩

end HybridSearch.Text
