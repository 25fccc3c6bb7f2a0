import LogQuery.Json.Decoding
import LogQuery.Text.Basic

/-!
Table schemas. They decide how a nested field is reached: as a key of a map, or by
extraction from JSON.
-/

namespace LogQuery

/-! ## Kinds of columns -/

inductive ColumnKind
  | map
  | json
  | string
  | other
deriving DecidableEq, Repr

namespace ColumnKind

def name : ColumnKind → String
  | map => "map"
  | json => "json"
  | string => "string"
  | other => "other"

def unwrap? (opening : String) (type : List Char) : Option (List Char) :=
  let rest := type.drop opening.length
  if opening.toList.isPrefixOf type ∧ rest.getLast? = some ')' then
    some (Text.trim rest.dropLast)
  else none

def unwrapAny? (type : List Char) : Option (List Char) :=
  (unwrap? "nullable(" type).or (unwrap? "lowcardinality(" type)

theorem length_trim_le (text : List Char) : (Text.trim text).length ≤ text.length := by
  have shorter (test : Char → Bool) (text : List Char) :
      (text.dropWhile test).length ≤ text.length :=
    (List.dropWhile_sublist test).length_le
  simp only [Text.trim, List.length_reverse]
  exact Nat.le_trans (shorter _ _) (by simpa using shorter Text.isSpace text)

theorem length_of_unwrap? {opening : String} {type inner : List Char}
    (unwrapped : unwrap? opening type = some inner) : inner.length < type.length := by
  simp only [unwrap?] at unwrapped
  split at unwrapped
  · next wrapped =>
      obtain rfl := Option.some.inj unwrapped
      have trimmed := length_trim_le (type.drop opening.length).dropLast
      have nonempty := List.length_pos_of_mem (List.mem_of_getLast? wrapped.2)
      simp only [List.length_dropLast, List.length_drop] at trimmed nonempty
      omega
  · cases unwrapped

theorem length_of_unwrapAny? {type inner : List Char}
    (unwrapped : unwrapAny? type = some inner) : inner.length < type.length := by
  rcases Option.or_eq_some_iff.mp unwrapped with nullable | ⟨-, lowCardinality⟩
  · exact length_of_unwrap? nullable
  · exact length_of_unwrap? lowCardinality

def stripWrappers (type : List Char) : List Char :=
  match unwrapped : unwrapAny? type with
  | some inner =>
      have := length_of_unwrapAny? unwrapped
      stripWrappers inner
  | none => type
termination_by type.length

def ofBareType (type : List Char) : ColumnKind :=
  let startsWith (opening : String) : Bool := opening.toList.isPrefixOf type
  let is (word : String) : Bool := type == word.toList
  if startsWith "map(" then map
  else if is "json" || is "newjson" || startsWith "json(" || startsWith "object(" then
    json
  else if is "string" || startsWith "string(" || startsWith "fixedstring(" then string
  else other

/-- The kind of a column of the type. Case, surrounding white space and the wrappers
`Nullable` and `LowCardinality` make no difference. -/
def ofType (type : String) : ColumnKind :=
  ofBareType (stripWrappers ((Text.trim type.toList).map Char.toLower))

end ColumnKind

/-! ## Schemas -/

structure Column where
  name : String
  type : String
deriving DecidableEq, Repr

def Column.kind (column : Column) : ColumnKind :=
  .ofType column.type

structure Schema where
  columns : List Column
deriving DecidableEq, Repr

namespace Schema

def column? (schema : Schema) (name : String) : Option Column :=
  schema.columns.find? (·.name == name)

def hasColumn (schema : Schema) (name : String) : Bool :=
  (schema.column? name).isSome

def kind? (schema : Schema) (name : String) : Option ColumnKind :=
  (schema.column? name).map Column.kind

def firstMap? (schema : Schema) : Option Column :=
  schema.columns.find? (·.kind == .map)

end Schema

/-! ## Schemas in JSON

An object with a list of columns, each with its name and type. -/

open Json (Decoder)

def Column.decode : Decoder Column := fun document => do
  let (name, type) ← Decoder.record
    [{ name := "name"
       set := fun (_, type) value => do return (some (← Decoder.text value), type) },
     { name := "type"
       set := fun (name, _) value => do return (name, some (← Decoder.text value)) }]
    ((none, none) : Option String × Option String) document
  return { name := ← Decoder.require name, type := ← Decoder.require type }

def Schema.decode : Decoder Schema := fun document => do
  let columns ← Decoder.record
    [{ name := "columns"
       set := fun _ value => some <$> Decoder.list Column.decode value }]
    (none : Option (List Column)) document
  return { columns := ← Decoder.require columns }

def Schema.read? (text : String) : Option Schema :=
  (Decoder.run Schema.decode (text.toList.map some)).toOption

end LogQuery
