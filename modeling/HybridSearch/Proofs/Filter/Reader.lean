import HybridSearch.Proofs.Filter.Clause
import HybridSearch.Proofs.Text.Signs

/-!
# Reading query texts

A reader of the grammar of filters. It goes along the signs of a text once, from left to right, and
knows nothing of schemas or of the filter that the text came from. The brackets that are open are
kept as frames, the innermost first.

```text
text       ::=  "*"  |  expression
expression ::=  "(-" expression ")"
             |  "(" expression (" " expression)+ ")"
             |  "(" expression (" | " expression)+ ")"
             |  "@" field ":" operand
operand    ::=  "{" tag ("|" tag)* "}"  |  "[" number " " number "]"
             |  "[" number " " number " " number " " unit "]"
             |  "(" pattern ")"  |  pattern
unit       ::=  "m"  |  "km"  |  "mi"  |  "ft"
```

* `Condition`: what is read of a condition.
* `Reader.step`: one sign.
* `Query.readText?`: the clause of a text.
-/
namespace HybridSearch

open Text

/-! ## What is read -/

inductive PatternPart where
  | literal (c : Char)
  | wildcard (c : Char)
  deriving DecidableEq

/-- What stands after the field of a condition. Numbers are texts. -/
inductive Operand where
  | tags (values : List String)
  | range (lower upper : String)
  | circle (lon lat radius : String) (unit : GeoUnit)
  | pattern (parts : List PatternPart)
  deriving DecidableEq

structure Condition where
  field : String
  operand : Operand
  deriving DecidableEq

def GeoUnit.named? : String → Option GeoUnit
  | "m" => some meters
  | "km" => some kilometers
  | "mi" => some miles
  | "ft" => some feet
  | _ => none

def Text.Sign.part (sign : Sign) : PatternPart :=
  if !sign.isProtected && isWildcard sign.char then .wildcard sign.char else .literal sign.char

inductive Bracket where
  | braces
  | squares
  | parentheses
  deriving DecidableEq

namespace Bracket

def ofSign? (sign : Sign) : Option Bracket :=
  if sign = plain '{' then some braces
  else if sign = plain '[' then some squares
  else if sign = plain '(' then some parentheses
  else none

def closing : Bracket → Sign
  | braces => plain '}'
  | squares => plain ']'
  | parentheses => plain ')'

def operand? (bracket : Bracket) (read : List Sign) : Option Operand :=
  match bracket with
  | braces => some (.tags ((read.splitOn (plain '|')).map value))
  | squares =>
    match (read.splitOn (plain ' ')).map value with
    | [lower, upper] => some (.range lower upper)
    | [lon, lat, radius, unit] => (GeoUnit.named? unit).map (.circle lon lat radius)
    | _ => none
  | parentheses => some (.pattern (read.map Sign.part))

end Bracket

/-! ## The reader -/

/-- An open parenthesis around the place where the reader stands. -/
inductive Frame where
  | negation
  /-- A group with the members before that place; its connective is known after the first one. -/
  | group (op : Option Connective) (members : List (Clause Condition))

/-- Where in the text the reader stands: before an expression, after the parenthesis that begins it,
in the field of a condition or in its operand, which has brackets or is a word, or after an
expression and what has been read of a separator. -/
inductive Place where
  | start
  | opened
  | field (name : List Char)
  | operand (field : String)
  | inside (field : String) (bracket : Bracket) (read : List Sign)
  | word (field : String) (read : List Sign)
  | done (c : Clause Condition)
  | blank (c : Clause Condition)
  | bar (c : Clause Condition)

structure Reader where
  place : Place
  frames : List Frame

namespace Reader

def begin? (frames : List Frame) (sign : Sign) : Option Reader :=
  if sign = plain '(' then some ⟨.opened, frames⟩
  else if sign = plain '@' then some ⟨.field [], frames⟩
  else none

/-- The frames after a member of a group and the separator that follows it. -/
def addMember? (op : Connective) (c : Clause Condition) : List Frame → Option (List Frame)
  | .group known members :: frames =>
    if known = none ∨ known = some op then some (.group (some op) (members ++ [c]) :: frames)
    else none
  | _ => none

/-- The end of the innermost parenthesis after its last expression. -/
def close? (c : Clause Condition) : List Frame → Option Reader
  | .negation :: frames => some ⟨.done (.not c), frames⟩
  | .group (some op) members :: frames => some ⟨.done (.group op (members ++ [c])), frames⟩
  | _ => none

def after? (c : Clause Condition) (frames : List Frame) (sign : Sign) : Option Reader :=
  if sign = plain ' ' then some ⟨.blank c, frames⟩
  else if sign = plain ')' then close? c frames
  else none

def wordClause (field : String) (read : List Sign) : Clause Condition :=
  .leaf ⟨field, .pattern (read.map Sign.part)⟩

/-- The reader after one more sign; none if no text goes on like this. -/
def step (r : Reader) (sign : Sign) : Option Reader :=
  match r.place with
  | .start => begin? r.frames sign
  | .opened =>
    if sign = plain '-' then some ⟨.start, .negation :: r.frames⟩
    else begin? (.group none [] :: r.frames) sign
  | .field name =>
    if sign = plain ':' then some ⟨.operand (String.ofList name), r.frames⟩
    else some ⟨.field (name ++ [sign.char]), r.frames⟩
  | .operand field =>
    match Bracket.ofSign? sign with
    | some bracket => some ⟨.inside field bracket [], r.frames⟩
    | none => some ⟨.word field [sign], r.frames⟩
  | .inside field bracket read =>
    if sign = bracket.closing then
      (bracket.operand? read).map fun operand => ⟨.done (.leaf ⟨field, operand⟩), r.frames⟩
    else some ⟨.inside field bracket (read ++ [sign]), r.frames⟩
  | .word field read =>
    if sign = plain ' ' ∨ sign = plain ')' then after? (wordClause field read) r.frames sign
    else some ⟨.word field (read ++ [sign]), r.frames⟩
  | .done c => after? c r.frames sign
  | .blank c =>
    if sign = plain '|' then some ⟨.bar c, r.frames⟩
    else (addMember? .and c r.frames).bind fun frames => begin? frames sign
  | .bar c =>
    if sign = plain ' ' then (addMember? .or c r.frames).map fun frames => ⟨.start, frames⟩
    else none

def run (r : Reader) (read : List Sign) : Option Reader :=
  read.foldlM step r

def finish? (r : Reader) : Option (Clause Condition) :=
  match r.place, r.frames with
  | .done c, [] => some c
  | .word field read, [] => some (wordClause field read)
  | _, _ => none

end Reader

namespace Query

def readClause? (text : String) : Option (Clause Condition) :=
  (Reader.run ⟨.start, []⟩ (signs text.toList)).bind Reader.finish?

/-- What a query text says: nothing for `*`, and otherwise a clause. None if it is no query text. -/
def readText? (text : String) : Option (Option (Clause Condition)) :=
  if text = Predicate.matchAllText then some none else (readClause? text).map some

end Query
end HybridSearch
