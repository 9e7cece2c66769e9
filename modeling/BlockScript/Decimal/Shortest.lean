import BlockScript.Decimal.Parts

/-!
# The shortest numeral of a double

The numeral of a positive double is the one with the fewest digits among those to which the double
is nearest, and the closest of them to the double; of two equally close ones, the larger.

* `onGrid?`: a numeral with a given number of places that reads back as the double.
* `shortest`: the numeral on the coarsest grid that has one.
-/

namespace BlockScript.Decimal

/-- The numeral `k / 10 ^ p`, also for negative `p`. -/
def gridPoint (k : Nat) (p : Int) : Numeral :=
  Numeral.shift ⟨k, 0⟩ (-p)

/-- A numeral on the grid of multiples of `1 / 10 ^ p` that reads back as the positive double `x`.
Only the two grid points around `x` are tried: if any reads back, one of them does. -/
def onGrid? (x : Float) (p : Int) : Option Numeral :=
  let (a, b) := magnitude x
  let n := a * Nat.pow 10 p.toNat
  let d := b * Nat.pow 10 (-p).toNat
  let below := gridPoint (n / d) p
  let above := gridPoint (n / d + 1) p
  match decide (below.nearest = x), decide (above.nearest = x) with
  | true, true => if 2 * (n % d) < d then some below else some above
  | true, false => some below
  | false, true => some above
  | false, false => none

/-- A grid on which the positive double `x` has at most one digit. -/
def coarsestGrid (x : Float) : Int :=
  let (a, b) := magnitude x
  let top := Int.fdiv (((a.log2 : Int) - b.log2 + 1) * 30103) 100000
  (-1 - top)

/-- The number of grids that `shortest` tries: seventeen digits tell any two doubles apart. -/
def gridCount : Nat := 20

/-- The shortest numeral of a positive double. -/
def shortest (x : Float) : Numeral :=
  let grids : List Int := (List.range gridCount).map fun (i : Nat) => coarsestGrid x + i
  (grids.findSome? (onGrid? x)).getD (exactNumeral x)

end BlockScript.Decimal
