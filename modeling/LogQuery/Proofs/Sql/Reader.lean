import LogQuery.Proofs.Formula
import LogQuery.Proofs.Number
import LogQuery.Proofs.Sql.Words
import LogQuery.Sql.Filter

/-!
A reader of SQL conditions. It takes the words of a text apart into accesses to columns,
values, comparisons, connectives and parentheses, without knowing how the text came
about.
-/

namespace LogQuery

/-! ## Maps of a schema -/

namespace Schema

/-- The column that a name stands for is a map. Of several columns with one name, the
name stands for the first. -/
def NamesMap (schema : Schema) (name : String) : Prop :=
  ∃ before map after, schema.columns = before ++ map :: after ∧
    (∀ column ∈ before, column.name ≠ name) ∧ map.name = name ∧ map.kind = .map

theorem kind?_eq_map_iff (schema : Schema) (name : String) :
    schema.kind? name = some .map ↔ schema.NamesMap name := by
  simp only [kind?, column?, Option.map_eq_some_iff,
    List.find?_eq_some_iff_append, beq_iff_eq, Bool.not_eq_true', beq_eq_false_iff_ne]
  constructor
  · rintro ⟨map, ⟨named, before, after, parts, first⟩, isMap⟩
    exact ⟨before, map, after, parts, first, named, isMap⟩
  · rintro ⟨before, map, after, parts, first, named, isMap⟩
    exact ⟨map, ⟨named, before, after, parts, first⟩, isMap⟩

end Schema

namespace Sql

/-! ## Conditions -/

/-- What a field is compared with, once strings are strings however they were
written. -/
inductive Value
  | text (text : String)
  | number (value : Double)
  | null
deriving DecidableEq, Repr

def Value.ofLiteral : Literal → Value
  | .text contents => .text contents
  | .word contents => .text contents
  | .number value => .number value
  | .boolean value =>
      .number
        (Decimal.toDouble { negative := false, digits := value.toNat, exponent := 0 })
  | .null => .null

structure Condition where
  access : Access
  operator : Operator
  value : Value
deriving DecidableEq, Repr

def Condition.ofComparison (schema : Option Schema) (comparison : Comparison) :
    Condition where
  access := .ofField schema comparison.field
  operator := comparison.operator
  value := .ofLiteral comparison.literal

/-- An access reaches a field: a name is a column, and a nested field is a key of its
column if the schema knows that column as a map, and a path into its JSON otherwise. -/
inductive Access.Reaches (schema : Option Schema) : Access → FieldPath → Prop
  | column {name : String} : Reaches schema (.column name) (.name name)
  | mapValue {table : Schema} {base : String} {path : List String}
      (given : schema = some table) (isMap : table.NamesMap base) :
      Reaches schema (.mapValue base (String.intercalate "." path)) (.nested base path)
  | jsonValue {base : String} {path : List String}
      (noMap : ∀ table, schema = some table → ¬ table.NamesMap base) :
      Reaches schema (.jsonValue base path) (.nested base path)

structure Condition.Asks (schema : Option Schema) (condition : Condition)
    (comparison : Comparison) : Prop where
  access : condition.access.Reaches schema comparison.field
  operator : condition.operator = comparison.operator
  value : condition.value = .ofLiteral comparison.literal

theorem Access.reaches_ofField (schema : Option Schema) (field : FieldPath) :
    (ofField schema field).Reaches schema field := by
  cases field with
  | name name => exact .column
  | nested base path =>
      rw [ofField]
      split
      · next known =>
          rcases Option.bind_eq_some_iff.mp known with ⟨table, given, isMap⟩
          exact .mapValue given ((table.kind?_eq_map_iff base).mp isMap)
      · next unknown =>
          apply Reaches.jsonValue
          rintro table rfl isMap
          exact unknown ((table.kind?_eq_map_iff base).mpr isMap)

theorem Condition.asks_ofComparison (schema : Option Schema) (comparison : Comparison) :
    (ofComparison schema comparison).Asks schema comparison where
  access := Access.reaches_ofField schema comparison.field
  operator := rfl
  value := rfl

/-! ## Reading words -/

def keys? : List Word → Option (List String × List Word)
  | .mark ')' :: rest => some ([], rest)
  | .mark ',' :: .literal key :: rest =>
      (keys? rest).map fun (keys, rest) => (key :: keys, rest)
  | _ => none

def access? : List Word → Option (Access × List Word)
  | .bare function :: .mark '(' :: .name base :: .mark ',' :: .literal key :: rest =>
      if function = "JSONExtractString" then
        (keys? rest).map fun (keys, rest) => (.jsonValue base (key :: keys), rest)
      else none
  | .name base :: .mark '[' :: .literal key :: .mark ']' :: rest =>
      some (.mapValue base key, rest)
  | .name name :: rest => some (.column name, rest)
  | _ => none

def value? : List Word → Option (Value × List Word)
  | .literal text :: rest => some (.text text, rest)
  | .bare text :: rest =>
      if text = "NULL" then some (.null, rest)
      else if Text.isNumeral text.toList then
        (Double.read? text).map fun value => (.number value, rest)
      else none
  | _ => none

def signs : List (String × Operator) :=
  [("=", .equal), ("!=", .notEqual), (">", .greater), ("<", .less),
    (">=", .greaterOrEqual), ("<=", .lessOrEqual)]

def containment? : List Word → Option (Operator × List Word)
  | .mark ')' :: .sign sign :: .bare zero :: rest =>
      if zero = "0" then
        if sign = ">" then some (.contains, rest)
        else if sign = "=" then some (.notContains, rest)
        else none
      else none
  | _ => none

def search? (words : List Word) : Option (Condition × List Word) := do
  let (access, rest) ← access? words
  let .mark ',' :: rest := rest | none
  let (value, rest) ← value? rest
  let (operator, rest) ← containment? rest
  return ({ access, operator, value }, rest)

def compared? (words : List Word) : Option (Condition × List Word) := do
  let (access, rest) ← access? words
  let .sign sign :: rest := rest | none
  let operator ← signs.lookup sign
  let (value, rest) ← value? rest
  return ({ access, operator, value }, rest)

def condition? : List Word → Option (Condition × List Word)
  | .bare "positionCaseInsensitive" :: .mark '(' :: rest => search? rest
  | words => compared? words

def items? (words : List Word) : Option (List (Formula.Item Condition)) :=
  match words with
  | [] => some []
  | .mark '(' :: rest => (items? rest).map (.opening :: ·)
  | .mark ')' :: rest => (items? rest).map (.closing :: ·)
  | .bare "AND" :: rest => (items? rest).map (.connective .and :: ·)
  | .bare "OR" :: rest => (items? rest).map (.connective .or :: ·)
  | words =>
      match condition? words with
      | none => none
      | some (condition, rest) =>
          if rest.length < words.length then (items? rest).map (.atom condition :: ·)
          else none
termination_by words.length

def readFormula? (text : String) : Option (Formula Condition) :=
  (items? (words (pieces text.toList))).bind Formula.ofItems?

/-! ## Written conditions -/

def Access.words : Access → List Word
  | column name => [.name name]
  | mapValue base key => [.name base, .mark '[', .literal key, .mark ']']
  | jsonValue base keys =>
      .bare "JSONExtractString" :: .mark '(' :: .name base ::
        (keys.flatMap (fun key => [.mark ',', .literal key]) ++ [.mark ')'])

theorem keys?_words (keys : List String) (rest : List Word) :
    keys? (keys.flatMap (fun key => [.mark ',', .literal key]) ++ .mark ')' :: rest) =
      some (keys, rest) := by
  induction keys with
  | nil => rfl
  | cons key keys induction =>
      simp only [List.flatMap_cons, List.cons_append, List.nil_append, keys?, induction,
        Option.map_some]

theorem access?_words {access : Access} (keyed : ∀ base, access ≠ .jsonValue base [])
    (rest : List Word) (ends : rest.head? ≠ some (.mark '[')) :
    access? (access.words ++ rest) = some (access, rest) := by
  cases access with
  | column name =>
      change access? (.name name :: rest) = _
      simp only [access?]
      split
      · next same => cases same
      · next same =>
          cases same
          exact absurd rfl ends
      · next same =>
          cases same
          rfl
      · next others => exact absurd rfl (others name rest)
  | mapValue base key => rfl
  | jsonValue base keys =>
      cases keys with
      | nil => exact absurd rfl (keyed base)
      | cons key keys =>
          simp [Access.words, access?, keys?_words]

def literalWord : Literal → Word
  | .text contents => .literal contents
  | .word contents => .literal contents
  | .number value => .bare value.render
  | .boolean value => .bare (if value then "1" else "0")
  | .null => .bare "NULL"

theorem value?_words {literal : Literal}
    (finite : ∀ value, literal = .number value → value.isFinite = true)
    (rest : List Word) :
    value? (literalWord literal :: rest) = some (.ofLiteral literal, rest) := by
  cases literal with
  | text contents => rfl
  | word contents => rfl
  | number value =>
      cases value with
      | finite negative rank =>
          rcases Double.render_finite negative rank with ⟨numeral, readBack⟩
          have notNull : Double.render (.finite negative rank) ≠ "NULL" := by
            intro same
            rw [same] at numeral
            cases numeral
          simp [literalWord, value?, notNull, numeral, readBack, Value.ofLiteral]
      | infinite negative => cases finite _ rfl
      | nan => cases finite _ rfl
  | boolean value =>
      have readBack : Double.read? (if value then "1" else "0") = some (Decimal.toDouble
          { negative := false, digits := value.toNat, exponent := 0 }) := by
        cases value <;> decide +kernel
      have numeral : Text.isNumeral (if value then "1" else "0").toList = true := by
        cases value <;> rfl
      have notNull : (if value then "1" else "0") ≠ "NULL" := by
        cases value <;> decide
      rw [literalWord, value?, if_neg notNull, if_pos numeral, readBack]
      rfl
  | null => rfl

def comparisonWords (schema : Option Schema) (comparison : Comparison) : List Word :=
  let access := (Access.ofField schema comparison.field).words
  let value := literalWord comparison.literal
  match comparison.operator with
  | .contains =>
      [.bare "positionCaseInsensitive", .mark '('] ++ access ++
        [.mark ',', value, .mark ')', .sign ">", .bare "0"]
  | .notContains =>
      [.bare "positionCaseInsensitive", .mark '('] ++ access ++
        [.mark ',', value, .mark ')', .sign "=", .bare "0"]
  | operator => access ++ [.sign operator.render, value]

section Conditions

variable {access : Access} (keyed : ∀ base, access ≠ .jsonValue base [])
  {literal : Literal}
  (finite : ∀ value, literal = .number value → value.isFinite = true)
  {operator : Operator}

include keyed finite

theorem search?_words {words rest : List Word}
    (asked : containment? words = some (operator, rest)) :
    search? (access.words ++ .mark ',' :: literalWord literal :: words) =
      some ({ access, operator, value := .ofLiteral literal }, rest) := by
  have field :=
    access?_words keyed (.mark ',' :: literalWord literal :: words) (by simp)
  simp only [search?, field, value?_words finite, asked, Option.bind_eq_bind,
    Option.bind_some]
  rfl

theorem compared?_words {sign : String} (known : signs.lookup sign = some operator)
    (rest : List Word) :
    condition? (access.words ++ .sign sign :: literalWord literal :: rest) =
      some ({ access, operator, value := .ofLiteral literal }, rest) := by
  have noSearch :
      condition? (access.words ++ .sign sign :: literalWord literal :: rest) =
        compared? (access.words ++ .sign sign :: literalWord literal :: rest) := by
    cases access <;> rfl
  have field :=
    access?_words keyed (.sign sign :: literalWord literal :: rest) (by simp)
  simp only [noSearch, compared?, field, value?_words finite, known,
    Option.bind_eq_bind, Option.bind_some]
  rfl

end Conditions

theorem keyed_ofField (schema : Option Schema) {field : FieldPath}
    (hasPath : ∀ base, field ≠ .nested base []) (base : String) :
    Access.ofField schema field ≠ .jsonValue base [] := by
  cases field with
  | name name => nofun
  | nested column path =>
      simp only [Access.ofField]
      split
      · nofun
      · intro same
        cases same
        exact hasPath base rfl

theorem condition?_words (schema : Option Schema) {comparison : Comparison}
    (regular : comparison.Regular) (rest : List Word) :
    condition? (comparisonWords schema comparison ++ rest) =
      some (.ofComparison schema comparison, rest) := by
  rcases comparison with ⟨field, operator, literal, quoted⟩
  have keyed := keyed_ofField schema regular.1
  simp only [comparisonWords, Condition.ofComparison]
  split
  · rw [List.append_assoc, List.append_assoc]
    exact search?_words keyed regular.2 rfl
  · rw [List.append_assoc, List.append_assoc]
    exact search?_words keyed regular.2 rfl
  · next different notEither =>
      have known : signs.lookup operator.render = some operator := by
        cases operator with
        | contains => exact absurd rfl different
        | notContains => exact absurd rfl notEither
        | _ => rfl
      rw [List.append_assoc]
      exact compared?_words keyed regular.2 known rest

end Sql

end LogQuery
