import LogQuery.Fault
import LogQuery.Text.Basic
import LogQuery.Text.Numeric

/-!
Names that go into a statement as they are. They are not quoted but held to narrow
forms.
-/

namespace LogQuery

namespace Parameter

/-! ## Tables and columns -/

def reservedWords : List String :=
  ["alter", "and", "attach", "create", "delete", "detach", "drop", "exec", "from",
   "grant", "insert", "into", "kill", "or", "rename", "revoke", "select", "system",
   "truncate", "union", "update", "where"]

def isReserved (name : String) : Bool :=
  (name.toList.splitOnP fun c => c == '.' || c == ':').any fun part =>
    reservedWords.contains (String.ofList (part.map Char.toLower))

def isNameStart (c : Char) : Bool :=
  c.isAlpha || c == '_'

def isNameChar (c : Char) : Bool :=
  c.isAlphanum || c == '_'

def isName : List Char → Bool
  | [] => false
  | first :: rest => isNameStart first && rest.all isNameChar

def isTableName (text : List Char) : Bool :=
  let parts := text.splitOn '.'
  parts.length ≤ 2 && parts.all isName

def checkTable (name : String) : Except QueryError Unit :=
  if isTableName name.toList && !isReserved name then .ok ()
  else .error (.outside .tableName)

def isTimestampField : List Char → Bool
  | [] => false
  | first :: rest =>
      (isNameStart first || first == '@') &&
        rest.all fun c => isNameChar c || c == '.' || c == '@' || c == ':'

def checkTimestampField (name : String) : Except QueryError Unit :=
  if isTimestampField name.toList && !isReserved name then .ok ()
  else .error (.outside .timestampField)

/-! ## Timezones -/

def isZoneChar (c : Char) : Bool :=
  c.isAlphanum || c == '_' || c == '+' || c == '-'

def isZoneName (text : List Char) : Bool :=
  let parts := text.splitOn '/'
  text.head?.any Char.isAlpha && parts.all fun part => !part.isEmpty &&
    part.all isZoneChar

/-- The hours and minutes of an offset, with or without a colon between them. The
minutes may be missing. Digits of any script count. -/
def isOffsetAmount (text : List Char) : Bool :=
  let areDigits (part : List Char) : Bool := part.all Text.isDecimalDigit
  match text.splitOn ':' with
  | [amount] => 1 ≤ amount.length && amount.length ≤ 4 && areDigits amount
  | [hours, minutes] =>
      1 ≤ hours.length && hours.length ≤ 2 && minutes.length == 2 &&
        areDigits (hours ++ minutes)
  | _ => false

def isOffset (text : List Char) : Bool :=
  let zone := text.take 3
  let signed :=
    if zone == "UTC".toList || zone == "GMT".toList then text.drop 3 else text
  match signed with
  | [] => false
  | sign :: amount => (sign == '+' || sign == '-') && isOffsetAmount amount

def maxTimezoneBytes : Nat := 64

def checkTimezone (zone : String) : Except QueryError Unit :=
  if zone.isEmpty then .error (.outside .emptyTimezone)
  else if maxTimezoneBytes < zone.utf8ByteSize then .error (.outside .longTimezone)
  else if isZoneName zone.toList || isOffset zone.toList then .ok ()
  else .error (.outside .timezoneShape)

end Parameter

end LogQuery
