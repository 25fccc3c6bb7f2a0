import LogQuery.Json.Document

/-!
Values of known shapes from JSON documents. Of all that is wrong with a document, what
stands first in the text is reported.
-/

namespace LogQuery.Json

inductive DecodeFault
  | malformed
  /-- The text is JSON so far and says something else than what is asked for. -/
  | unsuited
deriving DecidableEq, Repr

abbrev Decoder (α : Type) := Document → Except DecodeFault α

/-- What is wrong with a value that should be of another kind. The value is read to its
end, except that arrays and objects are not looked into. -/
def Document.mismatch : Document → DecodeFault
  | malformed => .malformed
  | string none => .malformed
  | number numeral => if numeral.overflows then .malformed else .unsuited
  | _ => .unsuited

namespace Decoder

/-! ## Plain values -/

def text : Decoder String
  | .string (some contents) => .ok contents
  | other => .error other.mismatch

def require (value : Option α) : Except DecodeFault α :=
  match value with
  | some value => .ok value
  | none => .error .unsuited

def integer : Decoder Int
  | .number numeral =>
      if numeral.overflows then .error .malformed
      else require (numeral.toInteger?.filter IntegerRange.signed64.contains)
  | other => .error other.mismatch

def optional (decode : Decoder α) : Decoder (Option α)
  | .null => .ok none
  | other => some <$> decode other

def list (decode : Decoder α) : Decoder (List α)
  | .array items closed => do
      let values ← items.mapM decode
      if closed then return values else throw .malformed
  | other => .error other.mismatch

/-! ## Records

A record is an object, or an array of its fields in order. In an object, fields that are
not known are passed over and none comes twice. -/

structure Field (α : Type) where
  name : String
  set : α → Decoder α
  /-- An array may end before the field. -/
  hasDefault : Bool := false

def member (fields : List (Field α)) (record : α) (seen : List String)
    (key : Option String) (value : Document) : Except DecodeFault (α × List String) :=
  match key with
  | none => .error .malformed
  | some name =>
      match fields.find? (·.name == name) with
      | none => if value.isWellFormed then .ok (record, seen) else .error .malformed
      | some field =>
          if seen.contains name then .error .unsuited
          else (field.set record value).map (·, name :: seen)

def members (fields : List (Field α)) :
    α → List String → List (Option String × Document) → Except DecodeFault α
  | record, _, [] => .ok record
  | record, seen, (key, value) :: rest =>
      match member fields record seen key value with
      | .error fault => .error fault
      | .ok (record, seen) => members fields record seen rest

def items (closed : Bool) : List (Field α) → α → List Document → Except DecodeFault α
  | field :: fields, record, value :: rest =>
      match field.set record value with
      | .error fault => .error fault
      | .ok record => items closed fields record rest
  | field :: fields, record, [] =>
      if !closed then .error .malformed
      else if field.hasDefault then items closed fields record []
      else .error .unsuited
  | [], _, _ :: _ => .error .malformed
  | [], record, [] => if closed then .ok record else .error .malformed

def record (fields : List (Field α)) (empty : α) : Decoder α
  | .object entries closed => do
      let record ← members fields empty [] entries
      if closed then return record else throw .malformed
  | .array values closed => items closed fields empty values
  | other => .error other.mismatch

/-! ## Whole texts -/

def run (decode : Decoder α) (source : Source) : Except DecodeFault α := do
  let (document, hasMore) := Document.read source
  let value ← decode document
  if hasMore then throw .malformed else return value

end Decoder

end LogQuery.Json
