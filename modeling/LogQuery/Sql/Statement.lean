import LogQuery.Parameter
import LogQuery.Query.Parser
import LogQuery.Sql.Projection
import LogQuery.Time.Instant

/-!
Whole SQL statements: a filter within a time range, the latest rows first.
-/

namespace LogQuery.Sql

structure Request where
  query : String
  schema : Option Schema
  table : String
  timestampField : String
  startTime : String
  endTime : String
  timezone : String
  /-- Zero and below mean no limit. -/
  limit : Int
  /-- The columns of a query without a projection; all of them if there are none. -/
  columns : List String

def Request.check (request : Request) : Except QueryError Unit := do
  let _ ← CivilTime.read request.startTime
  let _ ← CivilTime.read request.endTime
  Parameter.checkTimezone request.timezone
  Parameter.checkTable request.table
  Parameter.checkTimestampField request.timestampField

def Request.columnList (request : Request) (fields : List FieldPath) : String :=
  match renderProjection? request.schema fields (some request.timestampField) with
  | some list => list
  | none =>
      if request.columns.isEmpty then "*"
      else String.intercalate ", " (request.columns.map identifier)

def Request.renderBound (request : Request) (time : String) : String :=
  "toDateTime('" ++ time ++ "', '" ++ request.timezone ++ "')"

def Request.render (request : Request) (query : Query) : String :=
  let timestamp := identifier request.timestampField
  let filter := renderQuery request.schema query
  "SELECT " ++ request.columnList query.projection ++
    "\nFROM " ++ request.table ++
    "\nWHERE " ++ timestamp ++ " BETWEEN " ++ request.renderBound request.startTime ++
    " AND " ++ request.renderBound request.endTime ++
    (if filter.isEmpty then "" else "\n  AND (" ++ filter ++ ")") ++
    "\nORDER BY " ++ timestamp ++ " DESC" ++
    (if 0 < request.limit then "\nLIMIT " ++ toString request.limit else "")

/-- The statement of a request. A fault in the query is reported before all others. -/
def Request.build (request : Request) : Except QueryError String := do
  let query ← Query.parse request.query
  request.check
  return request.render query

end LogQuery.Sql
