import LogQuery.Compilation
import LogQuery.Detection
import LogQuery.Json

/-!
Results as JSON, for the service and the command line alike.
-/

namespace LogQuery

def Position.toJson (position : Position) : Json :=
  .object [("line", .integer position.line), ("column", .integer position.column)]

def QueryError.toJson (error : QueryError) : Json :=
  .objectOf [
    ("code", some (.string error.code.name)),
    ("message", some (.string error.message)),
    ("position", error.position.map Position.toJson)]

def Condition.toJson (condition : Condition) : Json :=
  .object [
    ("field", .string condition.field),
    ("operator", .string condition.operator),
    ("value", .string condition.value),
    ("is_regex", .boolean condition.isContainment)]

namespace Answer

def error? (result : Except QueryError α) : Option Json :=
  match result with
  | .ok _ => none
  | .error error => some error.toJson

def filterKey : Dialect → String
  | .clickhouse => "sql"
  | .victorialogs => "logsql"

def statementKey : Dialect → String
  | .clickhouse => "full_sql"
  | .victorialogs => "full_logsql"

def ofCompilation (dialect : Dialect) (result : Except QueryError Compilation)
    (statement : Option String) : Json :=
  let compilation := result.toOption.getD {}
  .objectOf [
    ("valid", some (.boolean result.isOk)),
    (filterKey dialect, some (.string compilation.filter)),
    ("select_clause", compilation.projection.map .string),
    ("conditions", some (.array (compilation.conditions.map Condition.toJson))),
    ("fields_used", some (.strings compilation.fieldsUsed)),
    ("error", error? result),
    (statementKey dialect, statement.map .string)]

def ofValidation (result : Except QueryError Unit) : Json :=
  .objectOf [("valid", some (.boolean result.isOk)), ("error", error? result)]

end Answer

end LogQuery
