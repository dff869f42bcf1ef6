import HybridSearch.Number.Reading
import HybridSearch.Schema.Declaration
import HybridSearch.Text.Blank

/-!
# Inference of fields

Declares fields from a record of metadata, by the values under its keys.

* `Json.inferredKind?`: the kind of field that a value shows.
* `Record.inferFields`: the declared fields of a record.
-/
namespace HybridSearch

/-- The kind of field that a value shows. Numbers, truth values and texts that read as a number are
numeric, other texts are text, lists of texts are tags; the empty text, null, objects and other
lists show no kind. -/
def Json.inferredKind? : Json → Option FieldKind
  | number _ => some .numeric
  | bool _ => some .numeric
  | string s =>
    if s.isEmpty then none
    else if (Number.ofText? (Text.trim s)).isSome then some .numeric
    else some .text
  | array items => if items.all fun item => item.string?.isSome then some .tag else none
  | _ => none

namespace FieldDeclarations

/-- The declarations with one more field of a kind, if that kind can be inferred. -/
def add (d : FieldDeclarations) (kind : FieldKind) (name : String) : FieldDeclarations :=
  match kind with
  | .tag => { d with tag := d.tag ++ [{ name }] }
  | .text => { d with text := d.text ++ [{ name }] }
  | .numeric => { d with numeric := d.numeric ++ [{ name }] }
  | .geo => { d with geo := d.geo ++ [{ name }] }
  | .vector => { d with vector := d.vector ++ [{ name }] }

/-- The declarations with the field that an entry shows. A value that shows no kind is passed over,
or refused if `strict`. -/
def addInferred (strict : Bool) (d : FieldDeclarations) (entry : String × Json) :
    Except SchemaError FieldDeclarations :=
  match entry.2.inferredKind? with
  | some kind => .ok (d.add kind entry.1)
  | none => if strict then .error (.unknownFieldType entry.1) else .ok d

end FieldDeclarations

/-- The fields that a record shows, in the order of its keys. -/
def Record.inferFields (r : Record) (strict : Bool) : Except SchemaError FieldDeclarations :=
  r.entries.foldlM (FieldDeclarations.addInferred strict) {}

end HybridSearch
