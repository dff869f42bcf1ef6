import HybridSearch.Bytes

/-!
# Compiled queries

A query in the form in which the engine takes it: a query text, arguments that shape the result, and
the values of the parameters that the text mentions.
-/
namespace HybridSearch

/-- A query, ready to be sent. -/
structure CompiledQuery where
  text : String
  clauses : List String
  params : List (String × Bytes)
  deriving DecidableEq

namespace CompiledQuery

def command (c : CompiledQuery) : String :=
  " ".intercalate (c.text :: c.clauses)

/-- The parameters as arguments: how many arguments follow, and then names with values. -/
def paramArguments (c : CompiledQuery) : List Bytes :=
  if c.params.isEmpty then []
  else
    Bytes.ofText "PARAMS" :: Bytes.ofText (toString (2 * c.params.length)) ::
      c.params.flatMap fun param => [Bytes.ofText param.1, param.2]

def arguments (c : CompiledQuery) : List Bytes :=
  Bytes.ofText c.text :: c.clauses.map Bytes.ofText ++ c.paramArguments

end CompiledQuery
end HybridSearch
