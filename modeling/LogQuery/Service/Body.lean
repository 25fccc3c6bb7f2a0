import LogQuery.Compilation
import LogQuery.Schema

/-!
The bodies of requests: bytes, read as characters, as JSON and as what is asked for.
-/

/-! ## Bytes as characters -/

namespace LogQuery.Text

def decodeFrom (bytes : ByteArray) (offset : Nat) (done : List (Option Char)) :
    List (Option Char) :=
  if offset < bytes.size then
    match bytes.utf8DecodeChar? offset with
    | some c =>
        have := c.utf8Size_pos
        decodeFrom bytes (offset + c.utf8Size) (some c :: done)
    | none => decodeFrom bytes (offset + 1) (none :: done)
  else done.reverse
termination_by bytes.size - offset

/-- The characters of a text in UTF-8. A byte that is part of no character stands for
itself as `none`, and decoding goes on right after it. -/
def decodeUtf8 (bytes : ByteArray) : List (Option Char) :=
  decodeFrom bytes 0 []

end LogQuery.Text

namespace LogQuery.Service

open Json (Decoder Document DecodeFault)

/-! ## Dialects -/

def decodeDialectName (name : Option String) : Except DecodeFault Dialect :=
  match name with
  | none => .error .malformed
  | some name => Decoder.require (Dialect.ofName? name)

/-- A dialect is given by its name, or by an object with nothing but its name and
null. -/
def decodeDialect : Decoder Dialect
  | .string name => decodeDialectName name
  | .object ((name, value) :: rest) closed => do
      let dialect ← decodeDialectName name
      match value, rest, closed with
      | .null, [], true => return dialect
      | .null, _, _ => throw .malformed
      | other, _, _ => throw other.mismatch
  | _ => .error .malformed

/-! ## Requests -/

structure CompileBody where
  query : String
  dialect : Dialect
  schema : Option Schema
  table : Option String
  timestampField : Option String
  startTime : Option String
  endTime : Option String
  timezone : Option String
  limit : Option Int
  columns : Option (List String)

structure CompileDraft where
  query : Option String := none
  dialect : Dialect := .clickhouse
  schema : Option Schema := none
  table : Option String := none
  timestampField : Option String := none
  startTime : Option String := none
  endTime : Option String := none
  timezone : Option String := none
  limit : Option Int := none
  columns : Option (List String) := none

namespace CompileBody

def optionalText : Decoder (Option String) :=
  Decoder.optional Decoder.text

def fields : List (Decoder.Field CompileDraft) :=
  [{ name := "query"
     set := fun draft value => do
       return { draft with query := some (← Decoder.text value) } },
   { name := "dialect"
     set := fun draft value => do return { draft with dialect := ← decodeDialect value }
     hasDefault := true },
   { name := "schema"
     set := fun draft value => do
       return { draft with schema := ← Decoder.optional Schema.decode value } },
   { name := "table"
     set := fun draft value => do return { draft with table := ← optionalText value } },
   { name := "timestamp_field"
     set := fun draft value => do
       return { draft with timestampField := ← optionalText value } },
   { name := "start_time"
     set := fun draft value => do
       return { draft with startTime := ← optionalText value } },
   { name := "end_time"
     set := fun draft value => do
       return { draft with endTime := ← optionalText value } },
   { name := "timezone"
     set := fun draft value => do
       return { draft with timezone := ← optionalText value } },
   { name := "limit"
     set := fun draft value => do
       return { draft with limit := ← Decoder.optional Decoder.integer value } },
   { name := "columns"
     set := fun draft value => do
       return { draft with
         columns := ← Decoder.optional (Decoder.list Decoder.text) value } }]

def decode : Decoder CompileBody := fun document => do
  let draft ← Decoder.record fields {} document
  return { draft with query := ← Decoder.require draft.query }

end CompileBody

def decodeQueryText : Decoder String := fun document => do
  let query ← Decoder.record
    [{ name := "query", set := fun _ value => some <$> Decoder.text value }]
    (none : Option String) document
  Decoder.require query

def readBody (decode : Decoder α) (body : ByteArray) : Except DecodeFault α :=
  Decoder.run decode (Text.decodeUtf8 body)

end LogQuery.Service
