import BlockScript.Character.Blank
import BlockScript.Decimal.Shortest

/-!
# Values

A value is a text or a number, and each can be taken for the other.

* `numberText`: a number written out.
* `readNumber?`: the number that a text denotes, if it denotes one.
* `Value.toText`, `Value.toNumber`: the two readings of a value.
* `Value.isTruthy`: how a value counts as a condition.
-/

namespace BlockScript

open Decimal

/-- A value of the language. -/
inductive Value where
  | text (t : String)
  | number (x : Float)
  deriving DecidableEq, Repr

/-! ### Numbers as text -/

/-- A number written out: the fewest digits that read back, without an exponent. Both zeros are
written alike. -/
def numberText (x : Float) : String :=
  if x.isNaN then "NaN"
  else if x == infinity then "Infinity"
  else if x == -infinity then "-Infinity"
  else if x == zero then "0"
  else if x < zero then "-" ++ String.ofList (shortest (-x)).text
  else String.ofList (shortest x).text

/-! ### Text as numbers -/

/-- The number that a text without blanks at its ends denotes. -/
def readTrimmed? (cs : List Char) : Option Float :=
  if cs = "Infinity".toList then some infinity
  else if cs = "-Infinity".toList then some (-infinity)
  else if cs = "NaN".toList then some notANumber
  else
    match cs with
    | '-' :: r => (Numeral.ofText? r).map fun n => -n.nearest
    | '+' :: r => (Numeral.ofText? r).map Numeral.nearest
    | r => (Numeral.ofText? r).map Numeral.nearest

/-- The number that a text denotes: a numeral with an optional sign, or the text of a number that
is not finite, between blanks. -/
def readNumber? (t : String) : Option Float :=
  readTrimmed? (Character.trimBlank t.toList)

namespace Value

/-- The value of a condition. -/
def ofBool (b : Bool) : Value :=
  .number (if b then one else zero)

/-- The value as a number. A text that denotes none counts as zero. -/
def toNumber : Value → Float
  | .number x => x
  | .text t => (readNumber? t).getD zero

/-- The value as a text. -/
def toText : Value → String
  | .text t => t
  | .number x => numberText x

/-- The value counts as a condition that holds. -/
def isTruthy (v : Value) : Bool :=
  v.toNumber != zero

/-- The value is a text. -/
def isText : Value → Bool
  | .text _ => true
  | .number _ => false

end Value
end BlockScript
