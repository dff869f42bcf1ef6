/-!
# Bytes

Stored values and command arguments are byte sequences. Texts stand in them as UTF-8.
-/
namespace HybridSearch

abbrev Bytes := List UInt8

namespace Bytes

def ofText (s : String) : Bytes :=
  s.toByteArray.data.toList

/-- The text that the bytes are the UTF-8 form of, if they are one. -/
def text? (bytes : Bytes) : Option String :=
  String.fromUTF8? ⟨bytes.toArray⟩

theorem text?_eq_some_iff {bytes : Bytes} {s : String} :
    text? bytes = some s ↔ bytes = ofText s := by
  rw [text?, String.fromUTF8?]
  split
  · rw [Option.some.injEq]
    constructor
    · rintro rfl
      simp [ofText, String.fromUTF8]
    · rintro rfl
      apply String.toByteArray_inj.mp
      simp [ofText, String.fromUTF8]
  · rename_i hinvalid
    refine ⟨nofun, ?_⟩
    rintro rfl
    refine absurd ?_ hinvalid
    simpa [ofText] using s.isValidUTF8

theorem text?_ofText (s : String) : text? (ofText s) = some s :=
  text?_eq_some_iff.mpr rfl

theorem ofText_injective {s t : String} (h : ofText s = ofText t) : s = t := by
  have hread := text?_ofText s
  rw [h, text?_ofText] at hread
  exact (Option.some.inj hread).symm

theorem length_ofText (s : String) : (ofText s).length = s.utf8ByteSize := by
  rw [ofText, Array.length_toList]
  exact String.size_toByteArray

/-- What may follow the first byte of the UTF-8 form of a character: for each byte the range in
which it lies. No character has a form that begins with another byte. -/
def following? (first : UInt8) : Option (List (UInt8 × UInt8)) :=
  let any := (0x80, 0xBF)
  if first ≤ 0x7F then some []
  else if first < 0xC2 then none
  else if first ≤ 0xDF then some [any]
  else if first = 0xE0 then some [(0xA0, 0xBF), any]
  else if first = 0xED then some [(0x80, 0x9F), any]
  else if first ≤ 0xEF then some [any, any]
  else if first = 0xF0 then some [(0x90, 0xBF), any, any]
  else if first < 0xF4 then some [any, any, any]
  else if first = 0xF4 then some [(0x80, 0x8F), any, any]
  else none

def countIn : List (UInt8 × UInt8) → Bytes → Nat
  | range :: ranges, byte :: bytes =>
    if range.1 ≤ byte ∧ byte ≤ range.2 then countIn ranges bytes + 1 else 0
  | _, _ => 0

/-- The characters of bytes that need not be a UTF-8 form. Bytes that begin the form of a character
and do not complete it stand for one replacement character, and so does a byte that begins none. -/
def readableChars : Bytes → List Char
  | [] => []
  | first :: rest =>
    let ranges := (following? first).getD []
    let size := countIn ranges rest
    let shown :=
      match text? (first :: rest.take size) with
      | some s => s.toList
      | none => ['\uFFFD']
    shown ++ readableChars (rest.drop size)
termination_by bytes => bytes.length
decreasing_by simp only [List.length_cons, List.length_drop]; omega

/-- The `width` low bytes of a number, the lowest first. -/
def littleEndian : (width : Nat) → Nat → Bytes
  | 0, _ => []
  | width + 1, n => UInt8.ofNat (n % 256) :: littleEndian width (n / 256)

theorem length_littleEndian (width n : Nat) : (littleEndian width n).length = width := by
  induction width generalizing n with
  | zero => rfl
  | succ width ih => simp [littleEndian, ih]

end Bytes
end HybridSearch
