import HybridSearch.Bytes
import HybridSearch.Number.Reading
import HybridSearch.Text.Parts

/-!
# Percent signs

Texts in which a percent sign with two hexadecimal digits stands for a byte, and the forms that are
made of such texts: names and values with `=` between them and `&` after each but the last.
-/
namespace HybridSearch.Text

/-- The bytes that a text stands for. A percent sign without two digits stands for itself. -/
def percentDecoded : List Char → Bytes
  | [] => []
  | '%' :: a :: b :: rest =>
    match Number.hexDigit? a, Number.hexDigit? b with
    | some high, some low => UInt8.ofNat (16 * high + low) :: percentDecoded rest
    | _, _ => String.utf8EncodeChar '%' ++ percentDecoded (a :: b :: rest)
  | c :: rest => String.utf8EncodeChar c ++ percentDecoded rest

def formDecoded (cs : List Char) : String :=
  String.ofList (Bytes.readableChars (percentDecoded (cs.map fun c => if c = '+' then ' ' else c)))

def formEntries (cs : List Char) : List (String × String) :=
  ((parts '&' cs).filter fun entry => !entry.isEmpty).map fun entry =>
    let (name, value) := cutFirst '=' entry
    (formDecoded name, formDecoded value)

def formValue? (cs : List Char) (name : String) : Option String :=
  ((formEntries cs).reverse.find? fun entry => entry.1 == name).map fun entry => entry.2

end HybridSearch.Text
