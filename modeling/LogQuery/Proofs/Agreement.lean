import LogQuery.Proofs.Derivation
import LogQuery.Proofs.Parameter
import LogQuery.Service

/-!
All ways to ask about a text agree. Compiling, validating, listing conditions and
building a statement each read the text on their own, two of them with a short cut for
blank texts. They accept the same texts as the parser and report the same errors, so the
service never builds a statement for a text that is no query, and a statement for a
query fails only on account of the other parameters.
-/

namespace LogQuery

/-! ## Blank texts -/

theorem lexemes_blank {text : List Char} (blank : text.all Text.isSpace = true)
    (position : Position) (delimited afterOperator : Bool) :
    lexemes position delimited afterOperator text = [] := by
  induction text generalizing position delimited with
  | nil => rw [lexemes]
  | cons c text induction =>
      rw [List.all_cons, Bool.and_eq_true] at blank
      rw [lexemes, if_pos blank.1]
      exact induction blank.2 _ _

theorem Scan.ofText_blank {text : String} (blank : Text.isBlank text = true) :
    ofText text = { tokens := [], errors := [] } := by
  rw [ofText, lexemes_blank blank]
  rfl

theorem Query.parse_blank {text : String} (blank : Text.isBlank text = true) :
    parse text = .ok { filter := none, projection := [] } := by
  rw [parse, parseWith, Scan.ofText_blank blank]
  rfl

/-! ## One reading of a text -/

def Compilation.ofQuery (dialect : Dialect) (schema : Option Schema) (text : String)
    (query : Query) : Compilation :=
  { filter := dialect.renderQuery schema query
    projection := dialect.renderProjection? schema query.projection
    conditions := Condition.all (Scan.ofText text).tokens
    fieldsUsed := LogQuery.fieldsUsed (Scan.ofText text).tokens }

theorem Compilation.ofText_eq (dialect : Dialect) (schema : Option Schema)
    (text : String) :
    ofText dialect schema text =
      (Query.parse text).map (ofQuery dialect schema text) := by
  rw [ofText]
  split
  · next blank =>
      rw [Query.parse_blank blank, Except.map, ofQuery, Scan.ofText_blank blank]
      cases dialect <;> rfl
  · rw [Query.parse, Query.parseWith]
    cases checked : (Scan.ofText text).check with
    | error error => rfl
    | ok tokens =>
        rcases (Scan.check_eq_ok_iff _ _).mp checked with ⟨_, _, rfl⟩
        change (Query.ofTokens {} (Scan.ofText text).tokens >>= fun query =>
          .ok (ofQuery dialect schema text query)) = _
        cases accepted : Query.ofTokens {} (Scan.ofText text).tokens <;>
          simp [bind, Except.bind, Except.map, accepted]

theorem validate_eq (text : String) :
    validate text = (Query.parse text).map fun _ => () := by
  rw [validate]
  split
  · next blank =>
      rw [Query.parse_blank blank]
      rfl
  · rfl

theorem conditionsOf_of_parse {text : String} {query : Query}
    (parsed : Query.parse text = .ok query) :
    conditionsOf text = Condition.all (Scan.ofText text).tokens := by
  have accepted : (Scan.ofText text).check >>= Query.ofTokens {} = .ok query := parsed
  simp only [conditionsOf, accepted]

theorem conditionsOf_of_error {text : String} {error : QueryError}
    (rejected : Query.parse text = .error error) : conditionsOf text = [] := by
  have failed : (Scan.ofText text).check >>= Query.ofTokens {} = .error error :=
    rejected
  simp only [conditionsOf, failed]

theorem Sql.Request.check_code {request : Request} {error : QueryError}
    (failed : request.check = .error error) : error.code ∈ Parameter.faultCodes := by
  rcases bind_eq_error_iff.mp failed with startTime | ⟨_, _, failed⟩
  · simp [Parameter.time_code startTime, Parameter.faultCodes]
  rcases bind_eq_error_iff.mp failed with endTime | ⟨_, _, failed⟩
  · simp [Parameter.time_code endTime, Parameter.faultCodes]
  rcases bind_eq_error_iff.mp failed with timezone | ⟨_, _, failed⟩
  · simp [Parameter.timezone_code timezone, Parameter.faultCodes]
  rcases bind_eq_error_iff.mp failed with table | ⟨_, _, timestampField⟩
  · simp [Parameter.table_code table, Parameter.faultCodes]
  · simp [Parameter.timestampField_code timestampField, Parameter.faultCodes]

/-! ## What is said about a text -/

def Answer.ofError (dialect : Dialect) (error : QueryError) : Json :=
  .object [
    ("valid", .boolean false),
    (filterKey dialect, .string ""),
    ("conditions", .array []),
    ("fields_used", .array []),
    ("error", error.toJson)]

/-- A text is a query, and everything that is made from the text is made from this
query. -/
structure Understood (schema : Option Schema) (text : String) (query : Query) :
    Prop where
  parsed : Query.parse text = .ok query
  validated : validate text = .ok ()
  compiled (dialect : Dialect) : Compilation.ofText dialect schema text = .ok {
    filter := dialect.renderQuery schema query
    projection := dialect.renderProjection? schema query.projection
    conditions := conditionsOf text
    fieldsUsed := LogQuery.fieldsUsed (Scan.ofText text).tokens }
  logsQl (request : LogsQl.Request) : request.query = text →
    request.build = .ok (request.render query)
  sql (request : Sql.Request) : request.query = text →
    request.build = .ok (request.render query) ∨
      ∃ error, request.build = .error error ∧ error.code ∈ Parameter.faultCodes

/-- A text is no query, and everything that is asked about it fails with the same
error. -/
structure Refused (schema : Option Schema) (text : String) (error : QueryError) :
    Prop where
  parsed : Query.parse text = .error error
  validated : validate text = .error error
  compiled (dialect : Dialect) : Compilation.ofText dialect schema text = .error error
  answered (dialect : Dialect) :
    Answer.ofCompilation dialect (Compilation.ofText dialect schema text) none =
      Answer.ofError dialect error
  conditions : conditionsOf text = []
  logsQl (request : LogsQl.Request) :
    request.query = text → request.build = .error error
  sql (request : Sql.Request) : request.query = text → request.build = .error error

theorem understood_of_parse (schema : Option Schema) {text : String} {query : Query}
    (parsed : Query.parse text = .ok query) : Understood schema text query where
  parsed
  validated := by
    rw [validate_eq, parsed]
    rfl
  compiled dialect := by
    rw [Compilation.ofText_eq, parsed, conditionsOf_of_parse parsed]
    rfl
  logsQl request same := by
    rw [LogsQl.Request.build, same, parsed]
    rfl
  sql request same := by
    rw [Sql.Request.build, same, parsed]
    cases checked : request.check with
    | ok => exact .inl rfl
    | error error => exact .inr ⟨error, rfl, Sql.Request.check_code checked⟩

theorem refused_of_parse (schema : Option Schema) {text : String} {error : QueryError}
    (rejected : Query.parse text = .error error) : Refused schema text error where
  parsed := rejected
  validated := by
    rw [validate_eq, rejected]
    rfl
  compiled dialect := by
    rw [Compilation.ofText_eq, rejected]
    rfl
  answered dialect := by
    rw [Compilation.ofText_eq, rejected]
    rfl
  conditions := conditionsOf_of_error rejected
  logsQl request same := by
    rw [LogsQl.Request.build, same, rejected]
    rfl
  sql request same := by
    rw [Sql.Request.build, same, rejected]
    rfl

/-! ## Requests with time bounds -/

namespace Service

def sqlRequest (settings : Settings) (body : CompileBody)
    (table startTime endTime : String) : Sql.Request :=
  { query := body.query
    schema := body.schema
    table
    timestampField := body.timestampField.getD "timestamp"
    startTime
    endTime
    timezone := body.timezone.getD settings.defaultTimezone
    limit := settings.effectiveLimit body.limit
    columns := body.columns.getD [] }

def logsQlRequest (settings : Settings) (body : CompileBody)
    (startTime endTime : Instant) : LogsQl.Request :=
  { query := body.query, startTime, endTime,
    limit := settings.effectiveLimit body.limit }

/-- What becomes of the statement for a text that is a query. None of the refusals has
to do with what the query says. -/
inductive Built (settings : Settings) (body : CompileBody) (startTime endTime : String)
    (query : Query) : Except Refusal String → Prop
  | missingTable (dialect : body.dialect = .clickhouse) (missing : body.table = none) :
      Built settings body startTime endTime query (.error .missingTable)
  | invalidParameter {table : String} {error : QueryError}
      (dialect : body.dialect = .clickhouse) (given : body.table = some table)
      (failed : (sqlRequest settings body table startTime endTime).check = .error error)
      (code : error.code ∈ Parameter.faultCodes) :
      Built settings body startTime endTime query (.error (.invalidParameter error))
  | sql {table : String} (dialect : body.dialect = .clickhouse)
      (given : body.table = some table)
      (checked : (sqlRequest settings body table startTime endTime).check = .ok ()) :
      Built settings body startTime endTime query
        (.ok ((sqlRequest settings body table startTime endTime).render query))
  | invalidBound {error : QueryError} (dialect : body.dialect = .victorialogs)
      (failed : Instant.read startTime = .error error ∨
        Instant.read endTime = .error error) :
      Built settings body startTime endTime query (.error (.invalidParameter error))
  | logsQl {first last : Instant} (dialect : body.dialect = .victorialogs)
      (starts : Instant.read startTime = .ok first)
      (ends : Instant.read endTime = .ok last) :
      Built settings body startTime endTime query
        (.ok ((logsQlRequest settings body first last).render query))

section

variable {settings : Settings} {body : CompileBody} {startTime endTime : String}
  {query : Query}

theorem built_sqlStatement (dialect : body.dialect = .clickhouse)
    (parsed : Query.parse body.query = .ok query) :
    Built settings body startTime endTime query
      (sqlStatement settings body startTime endTime) := by
  rw [sqlStatement]
  split
  · next missing => exact .missingTable dialect missing
  · next table given =>
      change Built _ _ _ _ _
        ((sqlRequest settings body table startTime endTime).build.mapError _)
      have sameQuery :
          (sqlRequest settings body table startTime endTime).query = body.query := rfl
      rw [Sql.Request.build, sameQuery, parsed]
      cases checked : (sqlRequest settings body table startTime endTime).check with
      | ok => exact .sql dialect given checked
      | error error =>
          exact .invalidParameter dialect given checked (Sql.Request.check_code checked)

theorem built_logsQlStatement (dialect : body.dialect = .victorialogs)
    (parsed : Query.parse body.query = .ok query) :
    Built settings body startTime endTime query
      (logsQlStatement settings body startTime endTime) := by
  rw [logsQlStatement]
  cases starts : Instant.read startTime with
  | error error => exact .invalidBound dialect (.inl starts)
  | ok first =>
      cases ends : Instant.read endTime with
      | error error => exact .invalidBound dialect (.inr ends)
      | ok last =>
          change Built _ _ _ _ _
            ((logsQlRequest settings body first last).build.mapError _)
          rw [(understood_of_parse body.schema parsed).logsQl _ rfl]
          exact .logsQl dialect starts ends

theorem built_statement (parsed : Query.parse body.query = .ok query) :
    Built settings body startTime endTime query
      (statement settings body (startTime, endTime)) := by
  rw [statement]
  split
  · next dialect => exact built_sqlStatement dialect parsed
  · next dialect => exact built_logsQlStatement dialect parsed

theorem timeBounds_of_both (starts : body.startTime = some startTime)
    (ends : body.endTime = some endTime) :
    timeBounds body = .ok (some (startTime, endTime)) := by
  rw [timeBounds, starts, ends]

theorem answerCompile_of_ok {compilation : Compilation}
    (short : checkLength body.query = .ok ())
    (bounded : timeBounds body = .ok (some (startTime, endTime)))
    (compiled : Compilation.ofText body.dialect body.schema body.query =
      .ok compilation) :
    answerCompile settings body =
      (statement settings body (startTime, endTime)).map fun statement =>
        Answer.ofCompilation body.dialect (.ok compilation) (some statement) := by
  rw [answerCompile, short, bounded, compiled]
  change ((some <$> statement settings body (startTime, endTime)) >>= fun statement? =>
    .ok (Answer.ofCompilation body.dialect (.ok compilation) statement?)) = _
  cases statement settings body (startTime, endTime) with
  | error refusal => rfl
  | ok statement => rfl

theorem answerCompile_of_error {error : QueryError}
    (short : checkLength body.query = .ok ())
    (bounded : timeBounds body = .ok (some (startTime, endTime)))
    (refused : Compilation.ofText body.dialect body.schema body.query = .error error) :
    answerCompile settings body = .ok (Answer.ofError body.dialect error) := by
  rw [answerCompile, short, bounded, refused]
  rfl

end

/-- All entry points agree on every text: it is one query for all of them, or has one
error for all. A request with time bounds gets the statement of that query, if its other
parameters are right, or that error without any statement. -/
theorem entry_points_agree :
    (∀ schema text, (∃ query, Understood schema text query) ∨
      ∃ error, Refused schema text error) ∧
      ∀ settings body startTime endTime,
        body.startTime = some startTime → body.endTime = some endTime →
          (maxQueryLength < body.query.length ∧
            answerCompile settings body = .error .queryTooLong) ∨
          (∃ query compilation, Understood body.schema body.query query ∧
            Compilation.ofText body.dialect body.schema body.query = .ok compilation ∧
            Built settings body startTime endTime query
              (statement settings body (startTime, endTime)) ∧
            answerCompile settings body =
              (statement settings body (startTime, endTime)).map fun statement =>
                Answer.ofCompilation body.dialect (.ok compilation) (some statement)) ∨
          ∃ error, Refused body.schema body.query error ∧
            answerCompile settings body = .ok (Answer.ofError body.dialect error) := by
  constructor
  · intro schema text
    cases parsed : Query.parse text with
    | ok query => exact .inl ⟨query, understood_of_parse schema parsed⟩
    | error error => exact .inr ⟨error, refused_of_parse schema parsed⟩
  · intro settings body startTime endTime starts ends
    have bounded := timeBounds_of_both starts ends
    by_cases long : maxQueryLength < body.query.length
    · refine .inl ⟨long, ?_⟩
      rw [answerCompile, checkLength, if_pos long]
      rfl
    have short : checkLength body.query = .ok () := if_neg long
    cases parsed : Query.parse body.query with
    | ok query =>
        have understood := understood_of_parse body.schema parsed
        have compiled := understood.compiled body.dialect
        exact .inr (.inl ⟨query, _, understood, compiled, built_statement parsed,
          answerCompile_of_ok short bounded compiled⟩)
    | error error =>
        have refused := refused_of_parse body.schema parsed
        exact .inr (.inr ⟨error, refused,
          answerCompile_of_error short bounded (refused.compiled body.dialect)⟩)

def boundedBody (query : String) : CompileBody :=
  { query
    dialect := .clickhouse
    schema := none
    table := some "default.logs"
    timestampField := none
    startTime := some "2025-01-01 00:00:00"
    endTime := some "2025-01-01 23:59:59"
    timezone := some "Europe/Berlin"
    limit := none
    columns := none }

theorem entry_points_agree_blank :
    (boundedBody "\u3000\n\u00a0").startTime = some "2025-01-01 00:00:00" ∧
      (boundedBody "\u3000\n\u00a0").endTime = some "2025-01-01 23:59:59" ∧
      Understood none "\u3000\n\u00a0" { filter := none, projection := [] } ∧
      Built {} (boundedBody "\u3000\n\u00a0") "2025-01-01 00:00:00"
        "2025-01-01 23:59:59"
        { filter := none, projection := [] }
        (statement {} (boundedBody "\u3000\n\u00a0")
          ("2025-01-01 00:00:00", "2025-01-01 23:59:59")) ∧
      ∃ error, Refused none "level>=" error ∧
        answerCompile {} (boundedBody "level>=") =
          .ok (Answer.ofError .clickhouse error) := by
  refine ⟨rfl, rfl, ?_⟩
  have everything :
      Query.parse "\u3000\n\u00a0" = .ok { filter := none, projection := [] } := by
        decide +kernel
  have unfinished : (Query.parse "level>=").isOk = false := by decide +kernel
  have blank := entry_points_agree.2 {} (boundedBody "\u3000\n\u00a0") _ _ rfl rfl
  have comparison := entry_points_agree.2 {} (boundedBody "level>=") _ _ rfl rfl
  rcases blank with
    ⟨long, _⟩ | ⟨query, _, understood, _, built, _⟩ | ⟨error, refused, _⟩
  · exact absurd long (by decide)
  · cases understood.parsed.symm.trans everything
    refine ⟨understood, built, ?_⟩
    rcases comparison with ⟨long, _⟩ | ⟨query, _, accepted, _⟩ | refused
    · exact absurd long (by decide)
    · have parsed : Query.parse "level>=" = .ok query := accepted.parsed
      rw [parsed] at unfinished
      cases unfinished
    · exact refused
  · cases refused.parsed.symm.trans everything

end Service

end LogQuery
