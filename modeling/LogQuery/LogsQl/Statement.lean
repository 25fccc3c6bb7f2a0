import LogQuery.LogsQl.Filter
import LogQuery.Query.Parser
import LogQuery.Time.Instant

/-!
Whole LogsQL queries: a filter within a time range, the latest entries first.
-/

namespace LogQuery.LogsQl

structure Request where
  query : String
  startTime : Instant
  endTime : Instant
  /-- Zero and below mean no limit. -/
  limit : Int

def timeField : String := "_time"

def renderFields (fields : List FieldPath) : String :=
  match renderProjection? fields with
  | none => ""
  | some list =>
      if fields.contains (.name timeField) then " | fields " ++ list
      else " | fields " ++ timeField ++ ", " ++ list

def Request.render (request : Request) (query : Query) : String :=
  let filter := renderQuery query
  (if filter.isEmpty then "" else filter ++ " ") ++
    timeField ++ ":[" ++ request.startTime.render ++ ", " ++ request.endTime.render ++
    "]" ++ renderFields query.projection ++
    " | sort by (" ++ timeField ++ " desc)" ++
    (if 0 < request.limit then " | limit " ++ toString request.limit else "")

def Request.build (request : Request) : Except QueryError String := do
  let query ← Query.parse request.query
  return request.render query

end LogQuery.LogsQl
