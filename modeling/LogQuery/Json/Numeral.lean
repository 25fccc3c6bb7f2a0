import LogQuery.Number.Decimal
import LogQuery.Number.Integer

/-!
Numbers as JSON writes them.
-/

namespace LogQuery.Json

structure Numeral where
  negative : Bool
  whole : List Char
  fraction : List Char
  exponentNegative : Bool
  exponent : List Char

namespace Numeral

def toInteger? (numeral : Numeral) : Option Int :=
  let magnitude : Int := Decimal.ofDigits numeral.whole
  if numeral.fraction ≠ [] ∨ numeral.exponent ≠ [] ∨
      (numeral.negative ∧ magnitude = 0) then none
  else some (if numeral.negative then -magnitude else magnitude)

/-! ## Range

A numeral has to stand for a finite double even where nobody asks for its value. The
double is worked out from as many leading digits as fit in a word of 64 bits, times a
power of ten. -/

def fillWord : Nat → List Char → Nat × List Char
  | word, [] => (word, [])
  | word, c :: rest =>
      let longer := 10 * word + Decimal.digitValue c
      if longer < Nat.pow 2 64 then fillWord longer rest else (word, c :: rest)

/-- The exponent, cut short after as many digits as fit in a word; there it is out of
reach anyway. -/
def shift (numeral : Numeral) : Int :=
  let magnitude : Int := (fillWord 0 numeral.exponent).1
  if numeral.exponentNegative then -magnitude else magnitude

def leading (numeral : Numeral) : Nat × Int :=
  let (word, left) := fillWord 0 numeral.whole
  let (word, leftInFraction) := fillWord word numeral.fraction
  let exponent : Int :=
    left.length - (numeral.fraction.length - leftInFraction.length : Int)
  (word, exponent + numeral.shift)

def roundedUnits (value : Nat) : Nat :=
  Double.units (Double.nearestRank (value * Double.unitsPerOne) 1)

/-- Whether the product of the leading digits and the power of ten, both as doubles, is
too large for a double. Beyond `10 ^ 308` the power itself is. -/
def overflows (numeral : Numeral) : Bool :=
  let (word, exponent) := numeral.leading
  word != 0 && 0 ≤ exponent &&
    (308 < exponent ||
      finiteDoubles ≤
        Double.nearestRank
          (roundedUnits word * roundedUnits (Nat.pow 10 exponent.toNat))
          Double.unitsPerOne)

end Numeral

end LogQuery.Json
