import LogQuery.Fault
import LogQuery.Number.Decimal
import LogQuery.Text.Numeric
import LogQuery.Time.Calendar

/-!
Moments in time, and the two notations for them: RFC 3339, and a date and a time of day
with one blank between them, which is taken to be in universal time.
-/

namespace LogQuery

/-- A moment: whole seconds since the start of 1970, and nanoseconds. During a leap
second the seconds stand still and the nanoseconds go on beyond a thousand million. -/
structure Instant where
  seconds : Int
  nanos : Nat
deriving DecidableEq, Repr

namespace Instant

def nanosPerSecond : Nat := 1000000000

def ofCivil (time : CivilTime) (nanos : Nat) : Instant :=
  let day :=
    Calendar.daysBeforeYear time.year + Calendar.daysBeforeMonth time.year time.month +
      time.day - 1
  let second := min time.second 59
  { seconds :=
      (day - Calendar.epochDay) * 86400 + time.hour * 3600 + time.minute * 60 + second
    nanos := if time.second = 60 then nanosPerSecond + nanos else nanos }

def toCivil (instant : Instant) : CivilTime :=
  let day := instant.seconds / 86400 + Calendar.epochDay
  let second := (instant.seconds % 86400).toNat
  let year := Calendar.yearOfDay day
  let (month, dayOfMonth) :=
    Calendar.monthAndDay (Calendar.monthLengths year)
      (day - Calendar.daysBeforeYear year).toNat
  { year
    month
    day := dayOfMonth
    hour := second / 3600
    minute := second / 60 % 60
    second := second % 60 + (if nanosPerSecond ≤ instant.nanos then 1 else 0) }

/-! ## Writing -/

def padded (width number : Nat) : String :=
  let digits := Nat.toDigits 10 number
  String.ofList (List.replicate (width - digits.length) '0' ++ digits)

def renderYear (year : Int) : String :=
  if year < 0 then "-" ++ padded 4 year.natAbs
  else if 9999 < year then "+" ++ padded 4 year.natAbs
  else padded 4 year.natAbs

def renderCivil (separator : String) (time : CivilTime) : String :=
  renderYear time.year ++ "-" ++ padded 2 time.month ++ "-" ++ padded 2 time.day ++
    separator ++
    padded 2 time.hour ++ ":" ++ padded 2 time.minute ++ ":" ++ padded 2 time.second

def render (instant : Instant) : String :=
  renderCivil "T" instant.toCivil ++ "Z"

/-! ## Reading

Each reader takes what it knows off the front of a text and answers the rest. -/

def readNumber? (count : Nat) (text : List Char) : Option (Nat × List Char) :=
  let digits := text.take count
  if digits.length = count ∧ digits.all Char.isDigit then
    some (Decimal.ofDigits digits, text.drop count)
  else none

def readMark? (marks : List Char) : List Char → Option (List Char)
  | [] => none
  | c :: rest => if marks.contains c then some rest else none

def readCivil? (separators : List Char) (text : List Char) :
    Option (CivilTime × List Char) := do
  let (year, text) ← readNumber? 4 text
  let text ← readMark? ['-'] text
  let (month, text) ← readNumber? 2 text
  let text ← readMark? ['-'] text
  let (day, text) ← readNumber? 2 text
  let text ← readMark? separators text
  let (hour, text) ← readNumber? 2 text
  let text ← readMark? [':'] text
  let (minute, text) ← readNumber? 2 text
  let text ← readMark? [':'] text
  let (second, text) ← readNumber? 2 text
  let time : CivilTime := { year, month, day, hour, minute, second }
  if time.isReal then some (time, text) else none

/-- A fraction of a second in nanoseconds. It may be missing, but a point needs a digit
after it; the digits after the ninth are dropped. -/
def readNanos? (text : List Char) : Option (Nat × List Char) :=
  match text with
  | '.' :: rest =>
      let digits := rest.takeWhile Char.isDigit
      let leading := digits.take 9
      if digits = [] then none
      else some
        (Decimal.ofDigits leading * Nat.pow 10 (9 - leading.length),
          rest.drop digits.length)
  | _ => some (0, text)

def readOffset? : List Char → Option (Int × List Char)
  | [] => none
  | c :: text =>
      if c = 'Z' ∨ c = 'z' then some (0, text)
      else if c = '+' ∨ c = '-' ∨ c = '−' then do
        let (hours, text) ← readNumber? 2 text
        let text ← readMark? [':'] text
        let (minutes, text) ← readNumber? 2 text
        if hours < 24 ∧ minutes < 60 then
          let offset : Int := hours * 3600 + minutes * 60
          some (if c = '+' then offset else -offset, text)
        else none
      else none

def readRfc3339? (text : String) : Option Instant := do
  let (time, text) ← readCivil? ['T', 't', ' '] text.toList
  let (nanos, text) ← readNanos? text
  let (offset, text) ← readOffset? text
  let instant := ofCivil time nanos
  if text = [] then some { instant with seconds := instant.seconds - offset } else none

/-- Whether a text has the shape of a template, in which a zero stands for a digit of
any script. -/
def hasShape : List Char → List Char → Bool
  | [], [] => true
  | mark :: template, c :: text =>
      (if mark = '0' then Text.isDecimalDigit c else c == mark) &&
        hasShape template text
  | _, _ => false

end Instant

namespace CivilTime

def read (text : String) : Except QueryError CivilTime :=
  if Instant.hasShape "0000-00-00 00:00:00".toList text.toList then
    match Instant.readCivil? [' '] text.toList with
    | some (time, []) => .ok time
    | _ => .error (.outside (.noSuchTime text))
  else .error (.outside .timeShape)

def render (time : CivilTime) : String :=
  Instant.renderCivil " " time

end CivilTime

def Instant.read (text : String) : Except QueryError Instant :=
  match readRfc3339? text with
  | some instant => .ok instant
  | none =>
      match CivilTime.read text with
      | .ok time => .ok (ofCivil time 0)
      | .error _ => .error (.outside .timeBound)

end LogQuery
