import LogQuery.Number.Decimal

/-!
The text of a double: the fewest digits that read back to the same double, of those the
nearest to it, and of two equally near ones the greater. The digits stand in their
places, never with an exponent.
-/

namespace LogQuery.Double

/-- The multiple of `10 ^ exponent` at or just below a magnitude, and whether the one
above is at least as near. -/
def gridPoint (units : Nat) (exponent : Int) : Nat × Bool :=
  let numerator := units * Nat.pow 10 (-exponent).toNat
  let denominator := unitsPerOne * Nat.pow 10 exponent.toNat
  let below := numerator / denominator
  (below, (2 * below + 1) * denominator ≤ 2 * numerator)

def searchGrids (rank : Nat) (exponent : Int) : Nat → Option Decimal
  | 0 => none
  | steps + 1 =>
      let (below, upward) := gridPoint (units rank) exponent
      let readsBack (digits : Nat) : Bool := Decimal.nearestRank digits exponent = rank
      if readsBack (below + 1) && (upward || !readsBack below) then
        some { negative := false, digits := below + 1, exponent }
      else if readsBack below then
        some { negative := false, digits := below, exponent }
      else searchGrids rank (exponent - 1) steps

/-- A grid on which no magnitude of this rank other than zero could be written. The
ratio 30103 to 100000 stands for the decimal logarithm of two. -/
def coarsestGrid (rank : Nat) : Int :=
  (((units rank).log2 : Int) - 1074) * 30103 / 100000 + 3

/-- The shortest decimal for a rank. Seventeen digits always suffice, so the search is
bounded; the exact value stands by for a rank it would not find. -/
def shortest (rank : Nat) : Decimal :=
  if rank = 0 then { negative := false, digits := 0, exponent := 0 }
  else
    (searchGrids rank (coarsestGrid rank) 24).getD
      { negative := false, digits := units rank * Nat.pow 5 1074, exponent := -1074 }

def render : Double → String
  | .finite negative rank => { shortest rank with negative }.render
  | .infinite negative => if negative then "-inf" else "inf"
  | .nan => "NaN"

end LogQuery.Double
