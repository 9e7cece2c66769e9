import BlockScript.Run.Fault
import BlockScript.Run.Store

/-!
# The value of an expression

The left operand decides: behind a text, `*` repeats it, every other operator of arithmetic joins
texts, and comparisons go by the order of characters; behind a number, everything goes by numbers.
All operands of an expression are evaluated, from the left.

* `repeatText`: a text repeated, up to `repeatLimit` bytes.
* `Expr.eval`: the value of an expression, or the first fault.
-/

namespace BlockScript

open Decimal

/-- The largest number of bytes that a repeated text may have. -/
def repeatLimit : Nat := 1 <<< 28

/-- Counts of repetitions are smaller than this. -/
def countLimit : Nat := 1 <<< 64

/-- `n` copies of the text `t`. -/
def copies (t : String) (n : Nat) : String :=
  if t.isEmpty then t else n.repeat (· ++ t) ""

/-- The text `t` repeated as often as the whole part of `count` says. -/
def repeatText (t : String) (count : Float) : Except Fault Value :=
  if one ≤ count then
    if count == infinity then .error (.repeatTooLarge count)
    else
      let n := wholePart count
      if n < countLimit ∧ t.utf8ByteSize * n ≤ repeatLimit then .ok (.text (copies t n))
      else .error (.repeatTooLarge (Numeral.nearest ⟨n, 0⟩))
  else .ok (.text "")

/-- The operator on numbers. -/
def ArithOp.apply : ArithOp → Float → Float → Float
  | .add, x, y => x + y
  | .sub, x, y => x - y
  | .mul, x, y => x * y
  | .div, x, y => x / y

/-- The value of an operation of arithmetic. -/
def arithmetic (op : ArithOp) (l r : Value) : Except Fault Value :=
  match l, op with
  | .text t, .mul => repeatText t r.toNumber
  | .text t, _ => .ok (.text (t ++ r.toText))
  | .number x, op => .ok (.number (op.apply x r.toNumber))

/-- The order of two numbers; a result that is no number has no place in it. -/
def compareNumbers (x y : Float) : Option Ordering :=
  if x < y then some .lt
  else if x == y then some .eq
  else if y < x then some .gt
  else none

/-- The order of two texts, by the code points of their characters. -/
def compareTexts (s t : String) : Ordering :=
  if s < t then .lt else if s = t then .eq else .gt

/-- The order of two values, by the kind of the left one. -/
def compareValues (l r : Value) : Option Ordering :=
  match l with
  | .text t => some (compareTexts t r.toText)
  | .number x => compareNumbers x r.toNumber

/-- The comparison holds of two values in the given order. Of values without an order, only
`<>` holds. -/
def RelOp.holds (op : RelOp) (o : Option Ordering) : Bool :=
  match op, o with
  | .notEqual, o => o != some .eq
  | .equal, o => o == some .eq
  | .less, o => o == some .lt
  | .lessEqual, o => o == some .lt || o == some .eq
  | .greater, o => o == some .gt
  | .greaterEqual, o => o == some .gt || o == some .eq

/-- The operator on conditions. -/
def LogicOp.apply : LogicOp → Bool → Bool → Bool
  | .conj, a, b => a && b
  | .disj, a, b => a || b

/-- The value of an expression, or the first fault. -/
def Expr.eval (σ : Store) : Expr → Except Fault Value
  | .literal v => .ok v
  | .var x => if σ.isDefined x then .ok (σ.getOrZero x) else .error (.undefined x)
  | .signed .plus x => x.eval σ
  | .signed .minus x => do
    let v ← x.eval σ
    return .number (-v.toNumber)
  | .arith op x y => do
    let l ← x.eval σ
    let r ← y.eval σ
    arithmetic op l r
  | .rel op x y => do
    let l ← x.eval σ
    let r ← y.eval σ
    return .ofBool (op.holds (compareValues l r))
  | .logic op x y => do
    let l ← x.eval σ
    let r ← y.eval σ
    return .ofBool (op.apply l.isTruthy r.isTruthy)

/-- How an expression counts as a condition, or the first fault. -/
def Expr.test (σ : Store) (e : Expr) : Except Fault Bool :=
  (e.eval σ).map Value.isTruthy

end BlockScript
