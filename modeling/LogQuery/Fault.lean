import LogQuery.Token

/-!
Everything that can be wrong with a query or with what it is run against, with the
wording of each fault in one place. Codes are what programs compare, messages are what
people read.
-/

namespace LogQuery

inductive FaultCode
  | unterminatedString
  | unexpectedEnd
  | unexpectedToken
  | expectedOperator
  | expectedValue
  | expectedClosingParen
  | unknownOperator
  | unknownBooleanOperator
  | missingBooleanOperator
  | invalidTimeFormat
  | invalidTimezone
  | invalidTableName
  | invalidTimestampField
deriving DecidableEq, Repr

namespace FaultCode

def name : FaultCode → String
  | unterminatedString => "UNTERMINATED_STRING"
  | unexpectedEnd => "UNEXPECTED_END"
  | unexpectedToken => "UNEXPECTED_TOKEN"
  | expectedOperator => "EXPECTED_OPERATOR"
  | expectedValue => "EXPECTED_VALUE"
  | expectedClosingParen => "EXPECTED_CLOSING_PAREN"
  | unknownOperator => "UNKNOWN_OPERATOR"
  | unknownBooleanOperator => "UNKNOWN_BOOLEAN_OPERATOR"
  | missingBooleanOperator => "MISSING_BOOLEAN_OPERATOR"
  | invalidTimeFormat => "INVALID_TIME_FORMAT"
  | invalidTimezone => "INVALID_TIMEZONE"
  | invalidTableName => "INVALID_TABLE_NAME"
  | invalidTimestampField => "INVALID_TIMESTAMP_FIELD"

end FaultCode

def maxNesting : Nat := 128

inductive Fault
  | unterminatedString (delimiter : Char) (contents : String)
  | missingTerm (after : String)
  | missingFields
  | unexpectedToken (kind : TokenKind) (text : String)
  | nestedTooDeep
  | numberAsField (text : String)
  | unexpectedInProjection (kind : TokenKind) (text : String)
  | missingOperator (key : String) (found : Option String)
  | unknownOperator (text : String)
  | missingValue (operator : String) (found : Option String)
  /-- A group is not closed: the filter ends, or another token is found, at some
  distance from where the group was opened. -/
  | unclosedGroup (found : Option (Position × String))
  | unknownConnective (text : String)
  | missingConnective (left right : String)
  | timeShape
  | noSuchTime (text : String)
  | timeBound
  | emptyTimezone
  | longTimezone
  | timezoneShape
  | tableName
  | timestampField
deriving DecidableEq, Repr

namespace Fault

def code : Fault → FaultCode
  | unterminatedString _ _ => .unterminatedString
  | missingTerm _ => .unexpectedEnd
  | missingFields => .unexpectedEnd
  | unexpectedToken _ _ => .unexpectedToken
  | nestedTooDeep => .unexpectedToken
  | numberAsField _ => .unexpectedToken
  | unexpectedInProjection _ _ => .unexpectedToken
  | missingOperator _ _ => .expectedOperator
  | unknownOperator _ => .unknownOperator
  | missingValue _ _ => .expectedValue
  | unclosedGroup _ => .expectedClosingParen
  | unknownConnective _ => .unknownBooleanOperator
  | missingConnective _ _ => .missingBooleanOperator
  | timeShape => .invalidTimeFormat
  | noSuchTime _ => .invalidTimeFormat
  | timeBound => .invalidTimeFormat
  | emptyTimezone => .invalidTimezone
  | longTimezone => .invalidTimezone
  | timezoneShape => .invalidTimezone
  | tableName => .invalidTableName
  | timestampField => .invalidTimestampField

def preview (contents : String) : String :=
  let characters := contents.toList
  String.ofList (characters.take 20) ++ (if 20 < characters.length then "..." else "")

def foundText : Option String → String
  | none => ""
  | some text => s!", found '{text}'"

def message : Fault → String
  | unterminatedString delimiter contents =>
      let opened := delimiter.toString ++ preview contents
      s!"unterminated string literal starting with {opened}" ++
        s!": missing closing {delimiter}"
  | missingTerm after => s!"expected an expression after '{after}'"
  | missingFields => "expected at least one field name after '|'"
  | unexpectedToken kind text => s!"unexpected {kind.name} '{text}'"
  | nestedTooDeep => s!"groups nested too deep, at most {maxNesting} levels are allowed"
  | numberAsField text => s!"'{text}' is not a valid field name after '|'"
  | unexpectedInProjection kind text =>
      s!"unexpected {kind.name} '{text}' after '|', only field names are allowed"
  | missingOperator key found => s!"expected an operator after '{key}'{foundText found}"
  | unknownOperator text =>
      s!"unknown operator '{text}', expected one of =, !=, ~, !~, >, <, >=, <="
  | missingValue operator found =>
      s!"expected a value after '{operator}'{foundText found}"
  | unclosedGroup none => "expected ')' to close the group"
  | unclosedGroup (some (opened, text)) =>
      s!"expected ')' to close the group opened at line {opened.line}" ++
        s!", column {opened.column}, found '{text}'"
  | unknownConnective text =>
      s!"unknown boolean operator '{text}', expected 'and' or 'or'"
  | missingConnective left right =>
      s!"missing boolean operator (and/or) between '{left}' and '{right}'"
  | timeShape => "invalid time format: expected 'YYYY-MM-DD HH:MM:SS'"
  | noSuchTime text => s!"invalid time format: '{text}' is not a valid date and time"
  | timeBound => "invalid time format: expected RFC 3339 or 'YYYY-MM-DD HH:MM:SS'"
  | emptyTimezone => "timezone cannot be empty"
  | longTimezone => "invalid timezone: too long"
  | timezoneShape => "invalid timezone: expected an IANA name or a UTC offset"
  | tableName =>
      "invalid table name: expected 'table' or 'database.table' made of letters, " ++
        "digits and underscores"
  | timestampField =>
      "invalid timestamp field: must start with a letter, '_' or '@' and contain " ++
        "only letters, digits, '_', '.', '@' or ':'"

end Fault

structure QueryError where
  fault : Fault
  position : Option Position
deriving DecidableEq, Repr

namespace QueryError

def within (fault : Fault) (position : Position) : QueryError :=
  { fault, position := some position }

def outside (fault : Fault) : QueryError :=
  { fault, position := none }

def code (error : QueryError) : FaultCode :=
  error.fault.code

def message (error : QueryError) : String :=
  error.fault.message

def render (error : QueryError) : String :=
  match error.position with
  | some position =>
      s!"{error.message} (line {position.line}, column {position.column})"
  | none => error.message

end QueryError

end LogQuery
