import BlockScript.Decimal.Literal

/-!
# Hexadecimal literals

The digits of a hexadecimal literal are taken up one by one into a double. As soon as a digit no
longer fits without loss, the literal denotes infinity. A fraction and a power of two may follow.

* `hexInteger`: takes up the digits before the point.
* `hexFraction`: takes up the digits behind it.
* `readHex?`: the double that a hexadecimal literal denotes.
-/

namespace BlockScript.Decimal

/-- The value of a hexadecimal digit. -/
def hexValue? (c : Char) : Option Nat :=
  if c.isDigit then some (c.toNat - '0'.toNat)
  else if 'a' ≤ c ∧ c ≤ 'f' then some (c.toNat - 'a'.toNat + 10)
  else if 'A' ≤ c ∧ c ≤ 'F' then some (c.toNat - 'A'.toNat + 10)
  else none

/-- A digit as a double. -/
def digitFloat (n : Nat) : Float :=
  Numeral.nearest ⟨n, 0⟩

/-- The double sixteen. -/
def sixteen : Float := digitFloat 16

/-- The digit `d` does not fit behind the digits that make up `sig`. -/
def overflows (sig d : Float) : Bool :=
  let next := sig * sixteen + d
  sig != zero && (decide (next ≤ sig) || sig != (next - d) / sixteen)

/-- Takes up the digits before the point behind those that make up `sig`. A digit that does not
fit makes the literal infinite, whatever follows. -/
def hexInteger (sig : Float) : List Char → Float × List Char
  | [] => (sig, [])
  | c :: cs =>
    match (hexValue? c).map digitFloat with
    | some d => if overflows sig d then (infinity, []) else hexInteger (sig * sixteen + d) cs
    | none => (sig, c :: cs)

/-- Takes up the digits behind the point; `power` is the worth of the digit before. -/
def hexFraction (sig power : Float) : List Char → Float × List Char
  | [] => (sig, [])
  | c :: cs =>
    match (hexValue? c).map digitFloat with
    | some d => hexFraction (sig + d * (power / sixteen)) (power / sixteen) cs
    | none => (sig, c :: cs)

/-- The power of two with a natural exponent. -/
def powerOfTwo (n : Nat) : Float :=
  if n < 1024 then Float.ofBits ((n + 1023) <<< 52).toUInt64 else infinity

/-- The power of two whose exponent is the 32-bit word with the bits of `n`, in two's
complement. -/
def powerOfTwoWord (n : Nat) : Float :=
  let w := n % (1 <<< 32)
  if w < 1 <<< 31 then powerOfTwo w else one / powerOfTwo ((1 <<< 32) - w)

/-- A natural number of at most 64 bits, possibly with a plus sign. -/
def word64? (cs : List Char) : Option Nat :=
  (natural? (if cs.head? = some '+' then cs.tail else cs)).filter (· < 1 <<< 64)

/-- The factor that the exponent behind the mark `p` stands for. -/
def binaryFactor? : List Char → Option Float
  | '-' :: r => (word64? r).map fun n => one / powerOfTwoWord n
  | '+' :: r => (word64? r).map powerOfTwoWord
  | r => (word64? r).map powerOfTwoWord

/-- The double that the digits read so far and the rest of the literal denote. -/
def withExponent? (sig : Float) : List Char → Option Float
  | [] => some sig
  | c :: r => if c == 'p' || c == 'P' then (binaryFactor? r).map (sig * ·) else none

/-- The double that a hexadecimal literal without sign denotes. -/
def readHexMagnitude? (cs : List Char) : Option Float :=
  match namedValue? cs with
  | some x => some x
  | none =>
    if cs.isEmpty then none
    else
      match hexInteger zero cs with
      | (sig, '.' :: r) =>
        let (sig, rest) := hexFraction sig (one) r
        withExponent? sig rest
      | (sig, rest) => withExponent? sig rest

/-- The double that a hexadecimal literal denotes. -/
def readHex? : List Char → Option Float
  | '-' :: r => (readHexMagnitude? r).map fun x => -x
  | r => readHexMagnitude? r

end BlockScript.Decimal
