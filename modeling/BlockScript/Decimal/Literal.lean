import BlockScript.Decimal.Nearest

/-!
# Number literals

* `readLiteral?`: the double that a decimal literal denotes. A literal is a numeral with an
  optional sign and an optional exponent, or the name of a value that is not finite.
-/

namespace BlockScript.Decimal

/-- The text is the given word, in any letter case. -/
def isWordOf (w : String) (cs : List Char) : Bool :=
  cs.map Char.toLower == w.toList

/-- The double with the given name, if it is one that is not finite. -/
def namedValue? (cs : List Char) : Option Float :=
  if isWordOf "inf" cs || isWordOf "infinity" cs then some infinity
  else if isWordOf "nan" cs then some notANumber
  else none

/-- The natural number that a text of decimal digits denotes. -/
def natural? (cs : List Char) : Option Nat :=
  if !cs.isEmpty && cs.all Char.isDigit then some (ofDigits cs) else none

/-- The exponent that stands behind the mark `e`. -/
def exponent? : List Char → Option Int
  | '-' :: r => (natural? r).map fun n => -(n : Int)
  | '+' :: r => (natural? r).map fun n => (n : Int)
  | r => (natural? r).map fun n => (n : Int)

/-- Bounds an exponent without a change to the nearest double: beyond four hundred powers of ten
more than its own digits a numeral is too large or too small for every positive finite double. -/
def boundExponent (digits : Nat) (x : Int) : Int :=
  max (-((digits : Int) + 400)) (min ((digits : Int) + 400) x)

/-- The double that a literal without sign denotes. -/
def readMagnitude? (cs : List Char) : Option Float :=
  match namedValue? cs with
  | some x => some x
  | none =>
    let isMark : Char → Bool := fun c => c == 'e' || c == 'E'
    let body := cs.takeWhile fun c => !isMark c
    match Numeral.ofText? body, cs.dropWhile fun c => !isMark c with
    | none, _ => none
    | some n, [] => some n.nearest
    | some n, _ :: r => (exponent? r).map fun x => (n.shift (boundExponent body.length x)).nearest

/-- The double that a decimal literal denotes. -/
def readLiteral? : List Char → Option Float
  | '-' :: r => (readMagnitude? r).map fun x => -x
  | '+' :: r => readMagnitude? r
  | r => readMagnitude? r

end BlockScript.Decimal
