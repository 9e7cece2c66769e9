import BlockScript.Decimal.Numeral

/-!
# The double nearest to a decimal

* `roundHalfEven n d`: the natural number nearest to `n / d`, the even one of two.
* `binaryExponent a b`: the exponent of the last bit of the double nearest to `a / b`.
* `nearestBits a b`: the bits of the double nearest to `a / b`, the even one of two.
* `Numeral.nearest`: the double nearest to a numeral.

Magnitudes too large for a finite double go to infinity.
-/

namespace BlockScript.Decimal

/-- The double zero, with a plus sign. -/
def zero : Float := Float.ofBits 0

/-- The double one. -/
def one : Float := Float.ofBits 0x3FF0000000000000

/-- The bits of positive infinity, the largest magnitude. -/
def infinityBits : Nat := 0x7FF0000000000000

/-- Positive infinity. -/
def infinity : Float := Float.ofBits 0x7FF0000000000000

/-- The result that is no number. -/
def notANumber : Float := Float.ofBits 0x7FF8000000000000

/-- The natural number nearest to `n / d`, the even one of two. -/
def roundHalfEven (n d : Nat) : Nat :=
  let q := n / d
  let r := n % d
  if 2 * r < d then q else if d < 2 * r then q + 1 else q + q % 2

/-- `a / (b * 2 ^ e)` as a quotient of natural numbers. -/
def scaled (a b : Nat) (e : Int) : Nat × Nat :=
  (a <<< (-e).toNat, b <<< e.toNat)

/-- The exponent of the last bit: the least `e` with `a / b < 2 ^ (53 + e)`, but never below the
exponent of the least positive double. -/
def binaryExponent (a b : Nat) : Int :=
  let e : Int := (a.log2 : Int) - b.log2 - 53
  let (n, d) := scaled a b e
  max (if n < d <<< 53 then e else e + 1) (-1074)

/-- The bits of the double nearest to `a / b`, the even one of two. The mantissa is added to the
exponent field, so that a carry out of the mantissa raises the exponent. -/
def nearestBits (a b : Nat) : Nat :=
  if a = 0 then 0
  else
    let e := binaryExponent a b
    let (n, d) := scaled a b e
    min (((e + 1074).toNat <<< 52) + roundHalfEven n d) infinityBits

/-- The double nearest to a numeral. -/
def Numeral.nearest (n : Numeral) : Float :=
  Float.ofBits (nearestBits n.mantissa (Nat.pow 10 n.places)).toUInt64

theorem nearestBits_le (a b : Nat) : nearestBits a b ≤ infinityBits := by
  unfold nearestBits
  split
  · decide
  · exact Nat.min_le_right ..

theorem nearestBits_zero (b : Nat) : nearestBits 0 b = 0 := by
  simp [nearestBits]

end BlockScript.Decimal
