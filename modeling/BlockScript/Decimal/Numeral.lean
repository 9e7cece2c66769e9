/-!
# Decimal numerals

* `Numeral`: a natural number of tenths, hundredths, … of one.
* `Numeral.text`: the numeral written with digits and a point, never with an exponent.
* `Numeral.ofText?`: the numeral that a text of digits and at most one point denotes.
-/

namespace BlockScript.Decimal

/-- The number `mantissa / 10 ^ places`. -/
structure Numeral where
  mantissa : Nat
  places : Nat
  deriving DecidableEq, Repr

/-- The value of a decimal digit. -/
def digitValue (c : Char) : Nat :=
  c.toNat - '0'.toNat

/-- The natural number that a list of decimal digits denotes. -/
def ofDigits (ds : List Char) : Nat :=
  ds.foldl (fun n c => 10 * n + digitValue c) 0

namespace Numeral

/-- The digits of the mantissa, with zeros in front so that one stands before the point. -/
def digits (n : Numeral) : List Char :=
  let ds := Nat.toDigits 10 n.mantissa
  List.replicate (n.places + 1 - ds.length) '0' ++ ds

/-- The numeral written out. A point stands in it only if digits follow. -/
def text (n : Numeral) : List Char :=
  if n.places = 0 then n.digits
  else
    let whole := n.digits.length - n.places
    n.digits.take whole ++ '.' :: n.digits.drop whole

/-- The numeral that a text denotes: digits with at most one point, at least one digit. -/
def ofText? (cs : List Char) : Option Numeral :=
  let whole := cs.takeWhile Char.isDigit
  match cs.dropWhile Char.isDigit with
  | [] => if whole.isEmpty then none else some ⟨ofDigits whole, 0⟩
  | c :: fraction =>
    if c == '.' && fraction.all Char.isDigit && !(whole.isEmpty && fraction.isEmpty) then
      some ⟨ofDigits (whole ++ fraction), fraction.length⟩
    else none

/-- The numeral times `10 ^ x`. -/
def shift (n : Numeral) (x : Int) : Numeral :=
  if x ≤ n.places then ⟨n.mantissa, (n.places - x).toNat⟩
  else ⟨n.mantissa * Nat.pow 10 (x - n.places).toNat, 0⟩

end Numeral
end BlockScript.Decimal
