import LogQuery.Answer
import LogQuery.CommandLine.Command
import LogQuery.LogsQl.Statement
import LogQuery.Schema
import LogQuery.Sql.Statement

/-!
What commands print. The texts they work on, the input and the schema file, are handed
to them.
-/

namespace LogQuery.CommandLine

structure Sources where
  input : Option String
  schemaFile : Option String

structure Outcome where
  exitCode : Nat
  output : String
  error : Option String
deriving DecidableEq, Repr

inductive Failure
  | unreadableInput
  | unreadableSchema (path : String)
  | invalidSchema (path : String)
  | missingTable
  | query (error : QueryError)
deriving DecidableEq, Repr

def Failure.message : Failure → String
  | unreadableInput => "failed to read query from stdin"
  | unreadableSchema path => "failed to read schema file " ++ path
  | invalidSchema path => "invalid schema file " ++ path
  | missingTable => "--table is required for clickhouse"
  | query error => error.render

namespace Outcome

def ofFailure (failure : Failure) : Outcome :=
  { exitCode := 1, output := "", error := some ("Error: " ++ failure.message) }

def misused : Outcome :=
  { exitCode := 2, output := "", error := none }

def ofLine (line : String) : Outcome :=
  { exitCode := 0, output := line ++ "\n", error := none }

def ofJson (pretty valid : Bool) (json : Json) : Outcome :=
  { exitCode := if valid then 0 else 1
    output := (if pretty then json.renderPretty else json.render) ++ "\n"
    error := none }

end Outcome

/-! ## Texts from outside -/

/-- A single dash in place of a query stands for the input, without the line ends at its
end. -/
def readsInput (query : String) : Bool :=
  query == "-"

def trimLineEnds (text : String) : String :=
  let isLineEnd (c : Char) : Bool := c == '\n' || c == '\r'
  String.ofList (text.toList.reverse.dropWhile isLineEnd).reverse

def queryText (sources : Sources) (query : String) : Except Failure String :=
  if readsInput query then
    match sources.input with
    | some text => .ok (trimLineEnds text)
    | none => .error .unreadableInput
  else .ok query

def Action.schemaPath? : Action → Option String
  | compile .clickhouse schema => schema
  | build options => if options.dialect = .clickhouse then options.schema else none
  | _ => none

def loadSchema (sources : Sources) (path : Option String) :
    Except Failure (Option Schema) :=
  match path with
  | none => .ok none
  | some path =>
      match sources.schemaFile with
      | none => .error (.unreadableSchema path)
      | some text =>
          match Schema.read? text with
          | none => .error (.invalidSchema path)
          | some schema => .ok (some schema)

/-! ## Commands -/

def buildSql (options : BuildOptions) (schema : Option Schema) (query : String) :
    Except Failure String :=
  match options.table with
  | none => .error .missingTable
  | some table =>
      let request : Sql.Request :=
        { query
          schema
          table
          timestampField := options.timestampField
          startTime := options.startTime
          endTime := options.endTime
          timezone := options.timezone
          limit := options.limit
          columns := [] }
      request.build.mapError .query

def buildLogsQl (options : BuildOptions) (query : String) : Except Failure String :=
  let built : Except QueryError String := do
    let startTime ← Instant.read options.startTime
    let endTime ← Instant.read options.endTime
    let request : LogsQl.Request :=
      { query, startTime, endTime, limit := options.limit }
    request.build
  built.mapError .query

def Action.run (action : Action) (schema : Option Schema) (query : String)
    (pretty : Bool) : Except Failure Outcome :=
  match action with
  | compile dialect _ =>
      let result := Compilation.ofText dialect schema query
      .ok (.ofJson pretty result.isOk (Answer.ofCompilation dialect result none))
  | validate =>
      let result := LogQuery.validate query
      .ok (.ofJson pretty result.isOk (Answer.ofValidation result))
  | detect => .ok (.ofLine (InputLanguage.ofText query).name)
  | format =>
      match Query.parse query with
      | .ok query => .ok (.ofLine query.render)
      | .error error => .error (.query error)
  | build options =>
      match options.dialect with
      | .clickhouse => (buildSql options schema query).map Outcome.ofLine
      | .victorialogs => (buildLogsQl options query).map Outcome.ofLine

def Command.readsInput : Command → Bool
  | act _ query _ => CommandLine.readsInput query
  | _ => false

def Command.schemaPath? : Command → Option String
  | act action _ _ => action.schemaPath?
  | _ => none

def Command.run (command : Command) (sources : Sources) : Outcome :=
  match command with
  | introduce =>
      .ofLine "Logchef CLI v0.1.0\nUse --help for usage information"
  | version => .ofLine "logchef 0.1.0"
  | act action query pretty =>
      let result : Except Failure Outcome := do
        let text ← queryText sources query
        let schema ← loadSchema sources action.schemaPath?
        action.run schema text pretty
      match result with
      | .ok outcome => outcome
      | .error failure => .ofFailure failure

end LogQuery.CommandLine
