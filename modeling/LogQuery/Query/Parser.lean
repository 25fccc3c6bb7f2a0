import LogQuery.Query
import LogQuery.Token.Lexer

/-!
From tokens to queries. The tokens of the filter are read one at a time by an automaton
whose state holds the groups that are still open. A token for which the state has no use
is the error; when the tokens run out, the state says what is missing. `and` binds
tighter than `or`.
-/

namespace LogQuery

structure ParseOptions where
  numericWords : Bool := false
deriving DecidableEq, Repr

/-! ## Literals -/

def finiteNumber? (text : String) : Option Double :=
  (Double.read? text).filter Double.isFinite

def Literal.ofToken (options : ParseOptions) (token : Token) : Literal :=
  if token.quoted then .text token.text
  else if token.kind = .number then
    ((finiteNumber? token.text).map .number).getD (.word token.text)
  else if token.text = "true" then .boolean true
  else if token.text = "false" then .boolean false
  else if token.text = "null" then .null
  else if options.numericWords then
    ((finiteNumber? token.text).map .number).getD (.word token.text)
  else .word token.text

namespace Parser

/-! ## States -/

/-- What was read of one level of nesting, latest first: the alternatives of `or` that
are complete, and the terms of the alternative under way. -/
structure Level where
  alternatives : List Filter := []
  terms : List Filter := []

def chain (connective : Connective) (earlier : List Filter) (last : Filter) : Filter :=
  match earlier.reverse with
  | [] => last
  | first :: rest => Filter.combine connective first (rest ++ [last])

def Level.close (level : Level) (term : Filter) : Filter :=
  chain .or level.alternatives (chain .and level.terms term)

inductive Expectation
  /-- A key or an opening parenthesis, after the word given. At the start of a filter
  that is none. -/
  | term (after : String)
  | operator (key : Token)
  | literal (key : Token) (operator : Operator)
  | connective (term : Filter)

structure State where
  /-- The groups that are open, innermost first: where each was opened, and the level
  around it. -/
  groups : List (Position × Level) := []
  level : Level := {}
  expected : Expectation

def State.initial : State :=
  { expected := .term "" }

/-! ## Steps -/

def unexpected (token : Token) : QueryError :=
  .within (.unexpectedToken token.kind token.text) token.position

def stepTerm (state : State) (token : Token) : Except QueryError State :=
  if token.isParen '(' then
    if maxNesting ≤ state.groups.length then
      .error (.within .nestedTooDeep token.position)
    else
      .ok {
        groups := (token.position, state.level) :: state.groups,
        expected := .term "(" }
  else if token.kind = .key then .ok { state with expected := .operator token }
  else .error (unexpected token)

def stepOperator (state : State) (key token : Token) : Except QueryError State :=
  if token.kind = .operator then
    match Operator.read? token.text with
    | some operator => .ok { state with expected := .literal key operator }
    | none => .error (.within (.unknownOperator token.text) token.position)
  else .error (.within (.missingOperator key.text (some token.text)) token.position)

def stepLiteral (options : ParseOptions) (state : State) (key : Token)
    (operator : Operator) (token : Token) : Except QueryError State :=
  if token.kind.isLiteral then
    let comparison :=
      { field := .read key.text, operator, literal := .ofToken options token,
        quoted := token.quoted }
    .ok { state with expected := .connective (.comparison comparison) }
  else .error (.within (.missingValue operator.render (some token.text)) token.position)

def stepConnective (state : State) (term : Filter) (token : Token) :
    Except QueryError State :=
  let { alternatives, terms } := state.level
  if token.kind = .boolean then
    match Connective.ofKeyword? token.text with
    | some .and =>
        .ok { state with
          level := { alternatives, terms := term :: terms },
          expected := .term "and" }
    | some .or =>
        .ok { state with
          level := { alternatives := chain .and terms term :: alternatives },
          expected := .term "or" }
    | none => .error (.within (.unknownConnective token.text) token.position)
  else
    match state.groups with
    | [] => .error (unexpected token)
    | (opened, outer) :: groups =>
        if token.isParen ')' then
          .ok {
            groups, level := outer,
            expected := .connective (.group (state.level.close term)) }
        else
          .error (.within (.unclosedGroup (some (opened, token.text))) token.position)

def step (options : ParseOptions) (state : State) (token : Token) :
    Except QueryError State :=
  match state.expected with
  | .term _ => stepTerm state token
  | .operator key => stepOperator state key token
  | .literal key operator => stepLiteral options state key operator token
  | .connective term => stepConnective state term token

def finish (state : State) (last : Position) : Except QueryError Filter :=
  match state.expected with
  | .term after => .error (.within (.missingTerm after) last)
  | .operator key => .error (.within (.missingOperator key.text none) key.position)
  | .literal _ operator => .error (.within (.missingValue operator.render none) last)
  | .connective term =>
      match state.groups with
      | [] => .ok (state.level.close term)
      | (opened, _) :: _ => .error (.within (.unclosedGroup none) opened)

def run (options : ParseOptions) (state : State) (last : Position) :
    List Token → Except QueryError Filter
  | [] => finish state last
  | token :: rest => do run options (← step options state token) token.position rest

/-! ## Whole queries -/

def parseFilter (options : ParseOptions) (tokens : List Token) :
    Except QueryError (Option Filter) :=
  match tokens with
  | [] => .ok none
  | tokens => (run options .initial .start tokens).map some

def parseField (token : Token) : Except QueryError FieldPath :=
  match token.kind with
  | .key => .ok (.read token.text)
  | .number => .error (.within (.numberAsField token.text) token.position)
  | kind => .error (.within (.unexpectedInProjection kind token.text) token.position)

def parseProjection : List Token → Except QueryError (List FieldPath)
  | [] => .ok []
  | [pipe] => .error (.within .missingFields pipe.position)
  | _ :: fields => fields.mapM parseField

end Parser

def Query.ofTokens (options : ParseOptions) (tokens : List Token) :
    Except QueryError Query := do
  let filter ← Parser.parseFilter options (tokens.takeWhile (·.kind != .pipe))
  let projection ← Parser.parseProjection (tokens.dropWhile (·.kind != .pipe))
  return { filter, projection }

/-! ## Comparisons side by side -/

/-- Whether three tokens look like a comparison. A key in the place of the value
counts. -/
def looksLikeComparison (key operator value : Token) : Bool :=
  key.kind == .key && operator.kind == .operator &&
    (value.kind.isLiteral || value.kind == .key)

def followingKey? (tokens : List Token) : Option Token :=
  (tokens.find? (·.kind != .paren)).filter (·.kind == .key)

def missingConnective? : List Token → Option QueryError
  | key :: operator :: value :: rest =>
      match
        if looksLikeComparison key operator value then followingKey? rest else none
      with
      | some next =>
          some (.within (.missingConnective key.text next.text) next.position)
      | none => missingConnective? (operator :: value :: rest)
  | _ => none

/-! ## Texts -/

def Scan.check (scan : Scan) : Except QueryError (List Token) :=
  match scan.errors, missingConnective? scan.tokens with
  | error :: _, _ => .error error
  | [], some error => .error error
  | [], none => .ok scan.tokens

/-- Reads a text as a query. An open quote is reported first, then comparisons side by
side, then what the grammar has against the tokens. -/
def Query.parseWith (options : ParseOptions) (text : String) :
    Except QueryError Query := do
  Query.ofTokens options (← (Scan.ofText text).check)

def Query.parse (text : String) : Except QueryError Query :=
  parseWith {} text

end LogQuery
