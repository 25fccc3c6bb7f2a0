import LogQuery.FieldPath
import LogQuery.Number.Shortest
import LogQuery.Text.Basic

/-!
Filters: comparisons joined by `and` and `or`, with the groups that were written.
-/

namespace LogQuery

/-! ## Comparisons -/

inductive Operator
  | equal
  | notEqual
  | contains
  | notContains
  | greater
  | less
  | greaterOrEqual
  | lessOrEqual
deriving DecidableEq, Repr

namespace Operator

def render : Operator → String
  | equal => "="
  | notEqual => "!="
  | contains => "~"
  | notContains => "!~"
  | greater => ">"
  | less => "<"
  | greaterOrEqual => ">="
  | lessOrEqual => "<="

def all : List Operator :=
  [equal, notEqual, contains, notContains, greater, less, greaterOrEqual, lessOrEqual]

def read? (text : String) : Option Operator :=
  all.find? fun operator => operator.render == text

def isContainment (operator : Operator) : Bool :=
  operator == contains || operator == notContains

theorem read?_render (operator : Operator) : read? operator.render = some operator := by
  cases operator <;> rfl

example : read? ">=" = some .greaterOrEqual := rfl
example : read? "==" = none := rfl

end Operator

inductive Literal
  | text (text : String)
  | number (value : Double)
  | boolean (value : Bool)
  | null
  | word (text : String)
deriving DecidableEq, Repr

namespace Literal

def render : Literal → String
  | text contents => Text.quote contents
  | number value => value.render
  | boolean value => if value then "true" else "false"
  | null => "null"
  | word contents => contents

def isText : Literal → Bool
  | text _ => true
  | _ => false

end Literal

structure Comparison where
  field : FieldPath
  operator : Operator
  literal : Literal
  quoted : Bool
deriving DecidableEq, Repr

namespace Comparison

def render (comparison : Comparison) : String :=
  comparison.field.render ++ comparison.operator.render ++ comparison.literal.render

end Comparison

/-! ## Filters -/

inductive Connective
  | and
  | or
deriving DecidableEq, Repr

namespace Connective

def keyword : Connective → String
  | and => "and"
  | or => "or"

def ofKeyword? (word : String) : Option Connective :=
  if Text.sameWord word "and" then some and
  else if Text.sameWord word "or" then some or
  else none

theorem ofKeyword?_keyword (connective : Connective) :
    ofKeyword? connective.keyword = some connective := by
  cases connective <;> decide +kernel

end Connective

/-- A filter. A node that joins others has two or more of them and none that joins with
the same connective, as long as it was made with `combine`. -/
inductive Filter
  | comparison (comparison : Comparison)
  | logical (connective : Connective) (children : List Filter)
  | group (inner : Filter)
deriving Repr

namespace Filter

/-! ### Joining -/

def operands (connective : Connective) : Filter → List Filter
  | logical inner children =>
      if inner = connective then children else [logical inner children]
  | other => [other]

/-- Joins filters. A single filter stays as it is, and filters that already join with
the same connective are spliced in. -/
def combine (connective : Connective) (first : Filter) (rest : List Filter) : Filter :=
  match rest with
  | [] => first
  | _ => logical connective ((first :: rest).flatMap (operands connective))

/-! ### Comparisons in order -/

mutual

def comparisons : Filter → List Comparison
  | comparison leaf => [leaf]
  | logical _ children => comparisonsOf children
  | group inner => inner.comparisons

def comparisonsOf : List Filter → List Comparison
  | [] => []
  | child :: rest => child.comparisons ++ comparisonsOf rest

end

/-! ### Writing -/

def needsParens (connective : Connective) : Filter → Bool
  | logical inner _ => connective == .and && inner == .or
  | _ => false

mutual

def render : Filter → String
  | comparison leaf => leaf.render
  | group inner => "(" ++ inner.render ++ ")"
  | logical connective children =>
      String.intercalate (" " ++ connective.keyword ++ " ")
        (renderChildren connective children)

def renderChildren (connective : Connective) : List Filter → List String
  | [] => []
  | child :: rest =>
      (if needsParens connective child then "(" ++ child.render ++
        ")" else child.render) ::
        renderChildren connective rest

end

/-! ### Equality -/

mutual

def decideEqual (left right : Filter) : Decidable (left = right) :=
  match left, right with
  | comparison left, comparison right =>
      if equal : left = right then isTrue (by rw [equal])
      else isFalse fun same => equal (Filter.comparison.inj same)
  | logical connective children, logical connective' children' =>
      match decEq connective connective', decideEqualAll children children' with
      | isTrue equal, isTrue equal' => isTrue (by rw [equal, equal'])
      | isFalse different, _ =>
          isFalse fun same => different (Filter.logical.inj same).1
      | _, isFalse different =>
          isFalse fun same => different (Filter.logical.inj same).2
  | group inner, group inner' =>
      match decideEqual inner inner' with
      | isTrue equal => isTrue (by rw [equal])
      | isFalse different => isFalse fun same => different (Filter.group.inj same)
  | comparison _, logical _ _ => isFalse nofun
  | comparison _, group _ => isFalse nofun
  | logical _ _, comparison _ => isFalse nofun
  | logical _ _, group _ => isFalse nofun
  | group _, comparison _ => isFalse nofun
  | group _, logical _ _ => isFalse nofun

def decideEqualAll (left right : List Filter) : Decidable (left = right) :=
  match left, right with
  | [], [] => isTrue rfl
  | [], _ :: _ => isFalse nofun
  | _ :: _, [] => isFalse nofun
  | head :: tail, head' :: tail' =>
      match decideEqual head head', decideEqualAll tail tail' with
      | isTrue equal, isTrue equal' => isTrue (by rw [equal, equal'])
      | isFalse different, _ => isFalse fun same => different (List.cons.inj same).1
      | _, isFalse different => isFalse fun same => different (List.cons.inj same).2

end

instance : DecidableEq Filter := decideEqual

end Filter

end LogQuery
