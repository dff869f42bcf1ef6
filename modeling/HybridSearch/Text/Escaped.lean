import HybridSearch.Text.Blank

/-!
# Escaped operands

Tag values and text patterns are free text inside a query. A backslash before a character takes
away its meaning in the query grammar, so an operand can neither end its clause nor open another.
-/
namespace HybridSearch.Text

/-- Puts a backslash before every character that `reserved` holds of. -/
def escape (reserved : Char → Bool) : List Char → List Char
  | [] => []
  | c :: rest => if reserved c then '\\' :: c :: escape reserved rest else c :: escape reserved rest

def tagPunctuation : List Char :=
  ['{', '}', '[', ']', '"', '\'', ':', ';', '!', '@', '#', '$', '%', '^', '&', '*', '(', ')', '-',
    '+', '=', '~', ',', '.', '<', '>', '/', '\\', '|']

def textPunctuation : List Char :=
  ['@', ':', '|', '(', ')', '[', ']', '{', '}', '-', '+', '~', '!', '"', '\'', ';', '$', '\\', '=']

/-- A tag value protects blanks as well, since an unprotected blank ends the value. -/
def tagReserved (c : Char) : Bool :=
  isBlank c || tagPunctuation.contains c

/-- The characters that stand for any text (`*`) and for near spellings (`%`) in a pattern. -/
def isWildcard (c : Char) : Bool :=
  c == '*' || c == '%'

/-- In a fuzzy pattern the wildcards keep their meaning; otherwise they are literal. -/
def textReserved (fuzzy : Bool) (c : Char) : Bool :=
  textPunctuation.contains c || (isWildcard c && !fuzzy)

def escapeTag (value : String) : String :=
  String.ofList (escape tagReserved value.toList)

/-- A text pattern, ready to stand in a text clause. Blanks are kept: they separate the words of a
phrase. -/
def escapeText (pattern : String) (fuzzy : Bool) : String :=
  String.ofList (escape (textReserved fuzzy) pattern.toList)

end HybridSearch.Text
