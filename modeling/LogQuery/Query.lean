import LogQuery.Filter

/-!
Queries: a filter and a list of fields, either of which may be missing.
-/

namespace LogQuery

structure Query where
  filter : Option Filter
  projection : List FieldPath
deriving DecidableEq, Repr

namespace Query

def isEmpty (query : Query) : Bool :=
  query.filter.isNone && query.projection.isEmpty

def renderProjection (fields : List FieldPath) : String :=
  "|" ++ String.join (fields.map fun field => " " ++ field.render)

def render (query : Query) : String :=
  match query.filter, query.projection with
  | none, [] => ""
  | some filter, [] => filter.render
  | none, fields => renderProjection fields
  | some filter, fields => filter.render ++ " " ++ renderProjection fields

end Query

end LogQuery
