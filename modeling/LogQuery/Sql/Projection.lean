import LogQuery.Sql.Filter

/-!
Projections as SQL column lists.
-/

namespace LogQuery.Sql

structure Entry where
  access : Access
  label : Option String
deriving DecidableEq, Repr

namespace Entry

def render (entry : Entry) : String :=
  match entry.label with
  | none => entry.access.render
  | some name => entry.access.render ++ " AS " ++ identifier name

def ofColumn (name : String) : Entry :=
  { access := .column name, label := none }

/-- The entry of a plain name. A name that the schema does not have is looked up in its
first map. -/
def ofName (schema : Option Schema) (name : String) : Entry :=
  match schema.bind fun schema =>
    if schema.hasColumn name then none else schema.firstMap? with
  | some map => { access := .mapValue map.name name, label := some name }
  | none => ofColumn name

def ofField (schema : Option Schema) : FieldPath → Entry
  | .name name => ofName schema name
  | .nested base path =>
      { access := .ofField schema (.nested base path)
        label := some (base ++ "_" ++ String.intercalate "_" path) }

end Entry

def renderEntries (entries : List Entry) : String :=
  String.intercalate ", " (entries.map Entry.render)

def timestampEntries (fields : List FieldPath) (timestamp : Option String) :
    List Entry :=
  match timestamp with
  | none => []
  | some name =>
      if name.isEmpty || fields.contains (.name name) then [] else [.ofColumn name]

def renderProjection? (schema : Option Schema) (fields : List FieldPath)
    (timestamp : Option String) : Option String :=
  if fields.isEmpty then none
  else some
    (renderEntries
      (timestampEntries fields timestamp ++ fields.map (Entry.ofField schema)))

end LogQuery.Sql
