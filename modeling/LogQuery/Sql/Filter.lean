import LogQuery.Query
import LogQuery.Schema

/-!
Filters as SQL conditions. Groups leave no trace of their own: every part of a joined
condition stands in parentheses. Identifiers stand in backticks and strings in single
quotes.
-/

namespace LogQuery.Sql

/-! ## Quoting -/

def identifier (name : String) : String :=
  "`" ++
    String.ofList (name.toList.flatMap fun c => if c = '`' then ['`', '`'] else [c]) ++
    "`"

def escapeChar (c : Char) : List Char :=
  match c with
  | '\\' => ['\\', '\\']
  | '\'' => ['\'', '\'']
  | '\x00' => ['\\', '0']
  | '\r' => ['\\', 'r']
  | '\n' => ['\\', 'n']
  | other => [other]

def escape (text : String) : String :=
  String.ofList (text.toList.flatMap escapeChar)

def quote (text : String) : String :=
  "'" ++ escape text ++ "'"

/-! ## Access to fields -/

inductive Access
  | column (name : String)
  | mapValue (column key : String)
  | jsonValue (column : String) (keys : List String)
deriving DecidableEq, Repr

namespace Access

/-- A nested field is a value of its column if the schema knows that column as a map,
under the joined segments. Otherwise, and without a schema, it is extracted from
JSON. -/
def ofField (schema : Option Schema) : FieldPath → Access
  | .name name => column name
  | .nested base path =>
      if schema.bind (·.kind? base) = some .map then
        mapValue base (String.intercalate "." path)
      else jsonValue base path

def render : Access → String
  | column name => identifier name
  | mapValue base key => identifier base ++ "[" ++ quote key ++ "]"
  | jsonValue base keys =>
      "JSONExtractString(" ++ identifier base ++ ", " ++
        String.intercalate ", " (keys.map quote) ++ ")"

end Access

/-! ## Conditions -/

def renderLiteral : Literal → String
  | .text text => quote text
  | .word text => quote text
  | .number value => value.render
  | .boolean value => if value then "1" else "0"
  | .null => "NULL"

def renderCondition (column : String) (operator : Operator) (value : String) : String :=
  match operator with
  | .contains => "positionCaseInsensitive(" ++ column ++ ", " ++ value ++ ") > 0"
  | .notContains => "positionCaseInsensitive(" ++ column ++ ", " ++ value ++ ") = 0"
  | operator => column ++ " " ++ operator.render ++ " " ++ value

def renderComparison (schema : Option Schema) (comparison : Comparison) : String :=
  renderCondition (Access.ofField schema comparison.field).render comparison.operator
    (renderLiteral comparison.literal)

def connectiveText : Connective → String
  | .and => " AND "
  | .or => " OR "

mutual

def renderFilter (schema : Option Schema) : Filter → String
  | .comparison comparison => renderComparison schema comparison
  | .group inner => renderFilter schema inner
  | .logical connective children =>
      String.intercalate (connectiveText connective) (renderOperands schema children)

def renderOperands (schema : Option Schema) : List Filter → List String
  | [] => []
  | child :: rest =>
      ("(" ++ renderFilter schema child ++ ")") :: renderOperands schema rest

end

def renderQuery (schema : Option Schema) (query : Query) : String :=
  (query.filter.map (renderFilter schema)).getD ""

end LogQuery.Sql
