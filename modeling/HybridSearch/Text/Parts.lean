/-!
# Parts of texts

Texts cut at a character: at each of its places, at the first, or at the last.
-/
namespace HybridSearch.Text

/-- The parts between the places of a character. There is one part more than there are places. -/
def parts (mark : Char) : List Char → List (List Char)
  | [] => [[]]
  | c :: cs =>
    match parts mark cs with
    | [] => []
    | part :: rest => if c = mark then [] :: part :: rest else (c :: part) :: rest

/-- What stands before and after the first place of a character. Without it everything is before. -/
def cutFirst (mark : Char) (cs : List Char) : List Char × List Char :=
  let (before, rest) := cs.span (· ≠ mark)
  (before, rest.drop 1)

/-- What stands before and after the last place of a character, if it has one. -/
def cutLast? (mark : Char) : List Char → Option (List Char × List Char)
  | [] => none
  | c :: cs =>
    match cutLast? mark cs with
    | some (before, after) => some (c :: before, after)
    | none => if c = mark then some ([], cs) else none

end HybridSearch.Text
