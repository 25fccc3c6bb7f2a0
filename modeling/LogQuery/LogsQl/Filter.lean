import LogQuery.Query

/-!
Filters and projections in LogsQL. Conditions side by side must all hold, so `and` is a
blank; the alternatives of `or` stand in one pair of parentheses. Nested fields go by
their dotted names. Texts stand as they are unless they hold a character that would end
or open something; then they stand in double quotes.
-/

namespace LogQuery.LogsQl

/-! ## Quoting -/

def isSpecial (c : Char) : Bool :=
  " \"'():|\\\n\r\t".toList.contains c

def needsQuotes (text : String) : Bool :=
  text.isEmpty || text.toList.any isSpecial

def escapeChar (c : Char) : List Char :=
  match c with
  | '\\' => ['\\', '\\']
  | '"' => ['\\', '"']
  | '\n' => ['\\', 'n']
  | '\r' => ['\\', 'r']
  | '\t' => ['\\', 't']
  | other => [other]

def escape (text : String) : String :=
  String.ofList (text.toList.flatMap escapeChar)

def renderText (text : String) : String :=
  if needsQuotes text then "\"" ++ escape text ++ "\"" else text

/-! ## Filters -/

def renderLiteral : Literal → String
  | .text text => renderText text
  | .word text => renderText text
  | .number value => value.render
  | .boolean value => if value then "true" else "false"
  | .null => "\"\""

def renderField (field : FieldPath) : String :=
  renderText field.dotted

def renderComparison (comparison : Comparison) : String :=
  renderField comparison.field ++ ":" ++ comparison.operator.render ++
    renderLiteral comparison.literal

mutual

def renderFilter : Filter → String
  | .comparison comparison => renderComparison comparison
  | .group inner => renderFilter inner
  | .logical .and children => String.intercalate " " (renderOperands children)
  | .logical .or children =>
      "(" ++ String.intercalate " or " (renderOperands children) ++ ")"

def renderOperands : List Filter → List String
  | [] => []
  | child :: rest => renderFilter child :: renderOperands rest

end

def renderQuery (query : Query) : String :=
  (query.filter.map renderFilter).getD ""

def renderProjection? (fields : List FieldPath) : Option String :=
  if fields.isEmpty then none
  else some (String.intercalate ", " (fields.map renderField))

end LogQuery.LogsQl
