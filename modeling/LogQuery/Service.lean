import LogQuery.Answer
import LogQuery.LogsQl.Statement
import LogQuery.Service.Body
import LogQuery.Service.MediaType
import LogQuery.Service.Target
import LogQuery.Settings
import LogQuery.Sql.Statement

/-!
The service behind a query editor. A query with an error is answered like any other;
only requests that make no sense are refused.
-/

namespace LogQuery.Service

/-! ## Requests and responses -/

structure Request where
  method : String
  target : String
  contentType : Option String
  body : ByteArray

structure Response where
  status : Nat
  /-- Refusals that are not specific to the service have no body of interest. -/
  body : Option Json

inductive Route
  | health
  | compile
  | validate
  | detect
deriving DecidableEq, Repr

namespace Route

def path : Route → String
  | health => "/health"
  | compile => "/api/v1/logchefql/translate"
  | validate => "/api/v1/logchefql/validate"
  | detect => "/api/v1/logchefql/detect"

def all : List Route := [health, compile, validate, detect]

def ofTarget? (target : String) : Option Route := do
  let path ← Target.path? target.toList
  all.find? fun route => route.path.toList == path

theorem ofTarget?_path (route : Route) : ofTarget? route.path = some route := by
  cases route <;> decide +kernel

end Route

/-! ## Refusals -/

inductive Refusal
  | notFound
  | wrongMethod
  | wrongMediaType
  | bodyTooLarge
  | malformedBody
  | unsuitedBody
  | queryTooLong
  | singleBound
  | missingTable
  | invalidParameter (error : QueryError)
deriving DecidableEq, Repr

namespace Refusal

def status : Refusal → Nat
  | notFound => 404
  | wrongMethod => 405
  | wrongMediaType => 415
  | bodyTooLarge => 413
  | malformedBody => 400
  | unsuitedBody => 422
  | queryTooLong => 400
  | singleBound => 400
  | missingTable => 400
  | invalidParameter _ => 400

def report (kind message : String) (code : Option FaultCode) : Json :=
  .objectOf [
    ("error", some (.string kind)),
    ("message", some (.string message)),
    ("code", code.map fun code => .string code.name)]

def body? : Refusal → Option Json
  | queryTooLong => some (report "validation_failed" "query: Query is too long" none)
  | singleBound =>
      some
        (report "invalid_request" "start_time and end_time must be given together" none)
  | missingTable =>
      some
        (report "invalid_request" "table is required when time bounds are given" none)
  | invalidParameter error =>
      some (report "invalid_parameter" error.render (some error.code))
  | _ => none

def response (refusal : Refusal) : Response :=
  { status := refusal.status, body := refusal.body? }

end Refusal

/-! ## Compilation -/

def maxQueryLength : Nat := 16384

def checkLength (query : String) : Except Refusal Unit :=
  if maxQueryLength < query.length then .error .queryTooLong else .ok ()

def timeBounds (body : CompileBody) : Except Refusal (Option (String × String)) :=
  match body.startTime, body.endTime with
  | some startTime, some endTime => .ok (some (startTime, endTime))
  | none, none => .ok none
  | _, _ => .error .singleBound

def sqlStatement (settings : Settings) (body : CompileBody)
    (startTime endTime : String) : Except Refusal String :=
  match body.table with
  | none => .error .missingTable
  | some table =>
      let request : Sql.Request :=
        { query := body.query
          schema := body.schema
          table
          timestampField := body.timestampField.getD "timestamp"
          startTime
          endTime
          timezone := body.timezone.getD settings.defaultTimezone
          limit := settings.effectiveLimit body.limit
          columns := body.columns.getD [] }
      request.build.mapError .invalidParameter

def logsQlStatement (settings : Settings) (body : CompileBody)
    (startTime endTime : String) : Except Refusal String :=
  let built : Except QueryError String := do
    let startTime ← Instant.read startTime
    let endTime ← Instant.read endTime
    let request : LogsQl.Request :=
      { query := body.query, startTime, endTime,
        limit := settings.effectiveLimit body.limit }
    request.build
  built.mapError .invalidParameter

def statement (settings : Settings) (body : CompileBody) (bounds : String × String) :
    Except Refusal String :=
  match body.dialect with
  | .clickhouse => sqlStatement settings body bounds.1 bounds.2
  | .victorialogs => logsQlStatement settings body bounds.1 bounds.2

def answerCompile (settings : Settings) (body : CompileBody) : Except Refusal Json := do
  checkLength body.query
  let bounds ← timeBounds body
  let result := Compilation.ofText body.dialect body.schema body.query
  let statement? ← match bounds, result with
    | some bounds, .ok _ => some <$> statement settings body bounds
    | _, _ => pure none
  return Answer.ofCompilation body.dialect result statement?

/-! ## Routing -/

def maxBodySize : Nat := 1024 * 1024

/-- Reads the body of a request. Its type comes before its size, and its size before its
contents. -/
def readRequest (decode : Json.Decoder α) (request : Request) : Except Refusal α :=
  if !(request.contentType.bind MediaType.read?).any MediaType.isJson then
    .error .wrongMediaType
  else if maxBodySize < request.body.size then .error .bodyTooLarge
  else
    (readBody decode request.body).mapError fun
      | .malformed => .malformedBody
      | .unsuited => .unsuitedBody

def healthReport : Json :=
  .object [
    ("status", .string "healthy"),
    ("service", .string "logchef-api"),
    ("version", .string "0.1.0")]

def answerQuery (request : Request) (answer : String → Json) : Except Refusal Json := do
  let query ← readRequest decodeQueryText request
  checkLength query
  return answer query

def answerValidate (query : String) : Json :=
  Answer.ofValidation (LogQuery.validate query)

def answerDetect (query : String) : Json :=
  .object [("query_type", .string (InputLanguage.ofText query).name)]

def answer (settings : Settings) (request : Request) (route : Route) :
    Except Refusal Response := do
  match route, request.method with
  | .health, "GET" => return { status := 200, body := some healthReport }
  | .health, "HEAD" => return { status := 200, body := none }
  | .compile, "POST" =>
      let json ← answerCompile settings (← readRequest CompileBody.decode request)
      return { status := 200, body := some json }
  | .validate, "POST" =>
      return { status := 200, body := some (← answerQuery request answerValidate) }
  | .detect, "POST" =>
      return { status := 200, body := some (← answerQuery request answerDetect) }
  | _, _ => throw .wrongMethod

def respond (settings : Settings) (request : Request) : Response :=
  match Route.ofTarget? request.target with
  | none => Refusal.notFound.response
  | some route =>
      match answer settings request route with
      | .ok response => response
      | .error refusal => refusal.response

end LogQuery.Service
