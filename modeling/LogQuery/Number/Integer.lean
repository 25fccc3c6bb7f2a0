import LogQuery.Number.Decimal

/-!
Integers as texts: numbers in base sixteen, with letters of either case, and decimal
integers within the limits of a word. The latter are read from the left, and the first
digit that is none or that takes the value out of the range decides what is wrong with
the text.
-/

namespace LogQuery

/-! ## Base sixteen -/

namespace Hexadecimal

def digitValue? (c : Char) : Option Nat :=
  if '0' ≤ c ∧ c ≤ '9' then some (c.toNat - '0'.toNat)
  else if 'a' ≤ c ∧ c ≤ 'f' then some (c.toNat - 'a'.toNat + 10)
  else if 'A' ≤ c ∧ c ≤ 'F' then some (c.toNat - 'A'.toNat + 10)
  else none

def isDigit (c : Char) : Bool :=
  (digitValue? c).isSome

def ofDigits (digits : List Char) : Nat :=
  digits.foldl (fun value c => 16 * value + (digitValue? c).getD 0) 0

def render (value : Nat) : String :=
  String.ofList (Nat.toDigits 16 value)

example : ofDigits "2F".toList = 47 := rfl

end Hexadecimal

/-! ## Ranges -/

structure IntegerRange where
  least : Int
  greatest : Int

namespace IntegerRange

def unsigned16 : IntegerRange :=
  { least := 0, greatest := Int.pow 2 16 - 1 }

def signed64 : IntegerRange :=
  { least := -Int.pow 2 63, greatest := Int.pow 2 63 - 1 }

def contains (range : IntegerRange) (value : Int) : Bool :=
  range.least ≤ value && value ≤ range.greatest

end IntegerRange

inductive IntegerFault
  | empty
  | invalidDigit
  | tooLarge
  | tooSmall
deriving DecidableEq, Repr

def IntegerFault.message : IntegerFault → String
  | empty => "cannot parse integer from empty string"
  | invalidDigit => "invalid digit found in string"
  | tooLarge => "number too large to fit in target type"
  | tooSmall => "number too small to fit in target type"

namespace IntegerRange

def readDigits (range : IntegerRange) (negative : Bool) :
    Int → List Char → Except IntegerFault Int
  | value, [] => .ok value
  | value, c :: rest =>
      let digit : Int := Decimal.digitValue c
      let longer := 10 * value + (if negative then -digit else digit)
      if !c.isDigit then .error .invalidDigit
      else if longer < range.least then .error .tooSmall
      else if range.greatest < longer then .error .tooLarge
      else range.readDigits negative longer rest

def readUnsigned (range : IntegerRange) (negative : Bool) (digits : List Char) :
    Except IntegerFault Int :=
  if digits = [] then .error .invalidDigit else range.readDigits negative 0 digits

/-- Reads a whole text as an integer of the range. A minus is a sign only where there
are negative integers. -/
def read (range : IntegerRange) (text : String) : Except IntegerFault Int :=
  match text.toList with
  | [] => .error .empty
  | '+' :: digits => range.readUnsigned false digits
  | '-' :: digits =>
      if range.least < 0 then range.readUnsigned true digits else .error .invalidDigit
  | digits => range.readUnsigned false digits

example : unsigned16.read "+80" = .ok 80 := rfl
example : unsigned16.read "65536x" = .error .tooLarge := rfl
example : unsigned16.read "-0" = .error .invalidDigit := rfl

end IntegerRange

end LogQuery
