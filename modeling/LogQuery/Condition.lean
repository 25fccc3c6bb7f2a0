import LogQuery.Query.Parser

/-!
What a query says about fields, read off its tokens. An editor shows it beside the text,
also while the text is not yet a query.
-/

namespace LogQuery

structure Condition where
  /-- The field with dots between its segments, without quotes. -/
  field : String
  operator : String
  value : String
  isContainment : Bool
deriving DecidableEq, Repr

namespace Condition

def ofTokens (key operator value : Token) : Condition :=
  { field := (FieldPath.read key.text).dotted
    operator := operator.text
    value := value.text
    isContainment := operator.text == "~" || operator.text == "!~" }

def all : List Token → List Condition
  | key :: operator :: value :: rest =>
      let others := all (operator :: value :: rest)
      if looksLikeComparison key operator value then
        ofTokens key operator value :: others
      else others
  | _ => []

end Condition

/-! ## Columns -/

def comparedColumns : List Token → List String
  | key :: operator :: rest =>
      let others := comparedColumns (operator :: rest)
      if key.kind = .key ∧ operator.kind = .operator then
        (FieldPath.read key.text).base :: others
      else others
  | _ => []

def addName (names : List String) (name : String) : List String :=
  if name.isEmpty || names.contains name then names else names ++ [name]

/-- The columns that comparisons are about, each once, in the order of their first
appearance. -/
def fieldsUsed (tokens : List Token) : List String :=
  (comparedColumns tokens).foldl addName []

end LogQuery
