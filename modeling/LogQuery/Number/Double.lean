/-!
Double-precision numbers. Every finite double is a whole number of units of 2⁻¹⁰⁷⁴, so
rounding is done in natural numbers and nothing is lost before the one rounding step.
-/

namespace LogQuery

/-- Doubles of one sign are numbered in increasing order from zero. There are
`2047 * 2 ^ 52` finite ones: 2046 exponents of normal numbers, and one more for zero and
the subnormal numbers. -/
def finiteDoubles : Nat :=
  2047 * Nat.pow 2 52

inductive Double
  | finite (negative : Bool) (rank : Fin finiteDoubles)
  | infinite (negative : Bool)
  | nan
deriving DecidableEq, Repr

namespace Double

def unitsPerOne : Nat :=
  Nat.pow 2 1074

/-- The magnitude of the double of a rank, in units. Within a binade the magnitudes are
`2 ^ shift` units apart. -/
def units (rank : Nat) : Nat :=
  let shift := rank / Nat.pow 2 52 - 1
  (rank - shift * Nat.pow 2 52) * Nat.pow 2 shift

def divideToEven (numerator denominator : Nat) : Nat :=
  let floor := numerator / denominator
  let twice := 2 * (numerator % denominator)
  if twice < denominator then floor
  else if denominator < twice then floor + 1
  else floor + floor % 2

/-- The rank whose magnitude is nearest to `numerator / denominator` units; of two
equally near ones the even one. Counted without an upper end: a rank from
`finiteDoubles` on means infinity. -/
def nearestRank (numerator denominator : Nat) : Nat :=
  let shift := (numerator / denominator).log2 - 52
  shift * Nat.pow 2 52 + divideToEven numerator (denominator * Nat.pow 2 shift)

def ofRank (negative : Bool) (rank : Nat) : Double :=
  if fits : rank < finiteDoubles then .finite negative ⟨rank, fits⟩
  else .infinite negative

def isFinite : Double → Bool
  | .finite _ _ => true
  | .infinite _ => false
  | .nan => false

example : nearestRank (units 4607182418800017408) 1 = 4607182418800017408 := by
  decide +kernel

end Double

end LogQuery
