import LogQuery.Condition
import LogQuery.LogsQl.Filter
import LogQuery.Sql.Projection

/-!
The answers an editor asks for: the compilation of a query with what it says about
fields, or the error. An empty text is a query that asks for everything.
-/

namespace LogQuery

inductive Dialect
  | clickhouse
  | victorialogs
deriving DecidableEq, Repr

namespace Dialect

def name : Dialect → String
  | clickhouse => "clickhouse"
  | victorialogs => "victorialogs"

def all : List Dialect := [clickhouse, victorialogs]

def ofName? (name : String) : Option Dialect :=
  all.find? fun dialect => dialect.name == name

theorem ofName?_name (dialect : Dialect) : ofName? dialect.name = some dialect := by
  cases dialect <;> rfl

def renderQuery (dialect : Dialect) (schema : Option Schema) (query : Query) : String :=
  match dialect with
  | clickhouse => Sql.renderQuery schema query
  | victorialogs => LogsQl.renderQuery query

def renderProjection? (dialect : Dialect) (schema : Option Schema)
    (fields : List FieldPath) : Option String :=
  match dialect with
  | clickhouse => Sql.renderProjection? schema fields none
  | victorialogs => LogsQl.renderProjection? fields

end Dialect

structure Compilation where
  filter : String := ""
  projection : Option String := none
  conditions : List Condition := []
  fieldsUsed : List String := []
deriving DecidableEq, Repr

namespace Compilation

def ofText (dialect : Dialect) (schema : Option Schema) (text : String) :
    Except QueryError Compilation :=
  if Text.isBlank text then .ok {}
  else do
    let tokens ← (Scan.ofText text).check
    let query ← Query.ofTokens {} tokens
    return {
      filter := dialect.renderQuery schema query
      projection := dialect.renderProjection? schema query.projection
      conditions := Condition.all tokens
      fieldsUsed := LogQuery.fieldsUsed tokens }

end Compilation

def validate (text : String) : Except QueryError Unit :=
  if Text.isBlank text then .ok () else (Query.parse text).map fun _ => ()

def sqlConditions (schema : Option Schema) (text : String) : String :=
  match Compilation.ofText .clickhouse schema text with
  | .ok compilation => compilation.filter
  | .error _ => ""

def conditionsOf (text : String) : List Condition :=
  let scan := Scan.ofText text
  match scan.check >>= Query.ofTokens {} with
  | .ok _ => Condition.all scan.tokens
  | .error _ => []

end LogQuery
