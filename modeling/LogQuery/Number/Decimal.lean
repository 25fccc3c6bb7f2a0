import LogQuery.Number.Double

/-!
Decimal numerals: how they are written, what they are worth, and the double nearest to
them.
-/

namespace LogQuery

/-- The number `digits * 10 ^ exponent`, with a sign of its own so that `-0` is told
from `0`. -/
structure Decimal where
  negative : Bool
  digits : Nat
  exponent : Int
deriving DecidableEq, Repr

namespace Decimal

/-! ## The nearest double -/

/-- The rank of the double nearest to a magnitude. Exponents far outside the range of
doubles are answered without raising ten to them: from `10 ^ 400` on there is only
infinity, and below `10 ^ -400` only zero. -/
def nearestRank (digits : Nat) (exponent : Int) : Nat :=
  if digits = 0 then 0
  else if 400 < exponent then finiteDoubles
  else if exponent + digits.log2 + 1 < -400 then 0
  else
    Double.nearestRank (digits * Nat.pow 10 exponent.toNat * Double.unitsPerOne)
      (Nat.pow 10 (-exponent).toNat)

def toDouble (decimal : Decimal) : Double :=
  Double.ofRank decimal.negative (nearestRank decimal.digits decimal.exponent)

/-! ## Reading -/

def digitValue (c : Char) : Nat :=
  c.toNat - '0'.toNat

def ofDigits (digits : List Char) : Nat :=
  digits.foldl (fun value c => 10 * value + digitValue c) 0

def readSign : List Char → Bool × List Char
  | '-' :: rest => (true, rest)
  | '+' :: rest => (false, rest)
  | text => (false, text)

def readExponent? : List Char → Option Int
  | [] => some 0
  | mark :: rest =>
      if mark = 'e' ∨ mark = 'E' then
        let (negative, digits) := readSign rest
        if digits ≠ [] ∧ digits.all Char.isDigit then
          some (if negative then -(ofDigits digits : Int) else ofDigits digits)
        else none
      else none

def readFraction : List Char → List Char × List Char
  | '.' :: rest => (rest.takeWhile Char.isDigit, rest.dropWhile Char.isDigit)
  | text => ([], text)

def read? (text : String) : Option Decimal :=
  let (negative, unsigned) := readSign text.toList
  let whole := unsigned.takeWhile Char.isDigit
  let (fraction, rest) := readFraction (unsigned.dropWhile Char.isDigit)
  if whole = [] ∧ fraction = [] then none
  else
    (readExponent? rest).map fun exponent =>
      { negative, digits := ofDigits (whole ++ fraction),
        exponent := exponent - fraction.length }

/-! ## Writing -/

def render (decimal : Decimal) : String :=
  let digits := Nat.toDigits 10 decimal.digits
  let places := (-decimal.exponent).toNat
  let padded := List.replicate (places + 1 - digits.length) '0' ++ digits
  let whole :=
    padded.take (padded.length - places) ++ List.replicate decimal.exponent.toNat '0'
  let fraction := padded.drop (padded.length - places)
  String.ofList
    ((if decimal.negative then ['-'] else []) ++ whole ++
      (if fraction = [] then [] else '.' :: fraction))

end Decimal

namespace Double

def read? (text : String) : Option Double :=
  let (negative, unsigned) := Decimal.readSign text.toList
  let word := String.ofList (unsigned.map Char.toLower)
  if word = "inf" ∨ word = "infinity" then some (.infinite negative)
  else if word = "nan" then some .nan
  else (Decimal.read? text).map Decimal.toDouble

end Double

end LogQuery
