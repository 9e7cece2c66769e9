import BlockScript.Decimal.Nearest

/-!
# What a double consists of

* `binaryParts`: the mantissa and the exponent of a finite double.
* `magnitude`: its distance from zero, as a quotient of natural numbers.
* `wholePart`: its magnitude without the fraction.
* `exactNumeral`: its magnitude as a decimal numeral.
-/

namespace BlockScript.Decimal

/-- The natural numbers `m` and `e` such that a finite double has the magnitude
`m * 2 ^ (e - 1074)`. -/
def binaryParts (x : Float) : Nat × Nat :=
  let magnitude := x.toBits.toNat % (1 <<< 63)
  let field := magnitude / (1 <<< 52)
  let fraction := magnitude % (1 <<< 52)
  if field = 0 then (fraction, 0) else (fraction + (1 <<< 52), field - 1)

/-- The magnitude of a finite double, as a quotient of natural numbers. -/
def magnitude (x : Float) : Nat × Nat :=
  let (m, e) := binaryParts x
  if 1074 ≤ e then (m <<< (e - 1074), 1) else (m, 1 <<< (1074 - e))

/-- The magnitude of a finite double without its fraction. -/
def wholePart (x : Float) : Nat :=
  (magnitude x).1 / (magnitude x).2

/-- The exact value of a finite double. -/
def exactNumeral (x : Float) : Numeral :=
  let (m, e) := binaryParts x
  if 1074 ≤ e then ⟨m <<< (e - 1074), 0⟩ else ⟨m * Nat.pow 5 (1074 - e), 1074 - e⟩

end BlockScript.Decimal
