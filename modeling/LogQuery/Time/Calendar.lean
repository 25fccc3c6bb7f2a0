/-!
The Gregorian calendar, carried on before its adoption. There is a year zero, and it is
a leap year.
-/

namespace LogQuery

namespace Calendar

def isLeap (year : Int) : Bool :=
  year % 4 == 0 && (year % 100 != 0 || year % 400 == 0)

/-- The days from the first of January of year zero to that of `year`. -/
def daysBeforeYear (year : Int) : Int :=
  365 * year + (year + 3) / 4 - (year + 99) / 100 + (year + 399) / 400

theorem daysBeforeYear_succ (year : Int) :
    daysBeforeYear (year + 1) =
      daysBeforeYear year + (if isLeap year then 366 else 365) := by
  simp only [daysBeforeYear, isLeap, Bool.and_eq_true, Bool.or_eq_true, beq_iff_eq,
    bne_iff_ne]
  omega

def monthLengths (year : Int) : List Nat :=
  [31, if isLeap year then 29 else 28, 31, 30, 31, 30, 31, 31, 30, 31, 30, 31]

def daysOfMonths (lengths : List Nat) : Nat :=
  lengths.foldl (· + ·) 0

theorem daysOfMonths_monthLengths (year : Int) :
    daysOfMonths (monthLengths year) = if isLeap year then 366 else 365 := by
  unfold monthLengths
  cases isLeap year <;> rfl

def monthLength (year : Int) (month : Nat) : Nat :=
  if month = 0 then 0 else (monthLengths year).getD (month - 1) 0

def daysBeforeMonth (year : Int) (month : Nat) : Nat :=
  daysOfMonths ((monthLengths year).take (month - 1))

def epochDay : Int :=
  daysBeforeYear 1970

/-- The year of a day. The average length of a year gives it to within one. -/
def yearOfDay (day : Int) : Int :=
  let guess := day * 400 / 146097
  if day < daysBeforeYear guess then guess - 1
  else if day < daysBeforeYear (guess + 1) then guess
  else guess + 1

def monthAndDay : List Nat → Nat → Nat × Nat
  | [], day => (1, day + 1)
  | length :: rest, day =>
      if day < length then (1, day + 1)
      else
        let (month, day) := monthAndDay rest (day - length)
        (month + 1, day)

example : yearOfDay 0 = 0 := rfl
example : yearOfDay (-1) = -1 := rfl
example : monthAndDay (monthLengths 2024) 59 = (2, 29) := rfl

end Calendar

/-- A date and a time of day. Second 60 is a leap second. -/
structure CivilTime where
  year : Int
  month : Nat
  day : Nat
  hour : Nat
  minute : Nat
  second : Nat
deriving DecidableEq, Repr

namespace CivilTime

def isReal (time : CivilTime) : Bool :=
  1 ≤ time.day && time.day ≤ Calendar.monthLength time.year time.month &&
    time.hour < 24 && time.minute < 60 && time.second ≤ 60

end CivilTime

end LogQuery
