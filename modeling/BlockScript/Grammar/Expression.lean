import BlockScript.Decimal.Hexadecimal
import BlockScript.Grammar.Reading
import BlockScript.Tree.Expr

/-!
# Reading expressions

Operators bind in ranks. An expression of rank `n + 1` is a chain of expressions of rank `n`
between operators of rank `n + 1`, read from the left:

* rank 6: `or`
* rank 5: `and`
* rank 4: `==`, `<>`, at most one of them
* rank 3: `<`, `<=`, `>`, `>=`
* rank 2: `+`, `-`
* rank 1: `*`, `/`
* rank 0: a primary, possibly behind one sign

A reader takes an operator whenever one of its rank comes next. The closing parenthesis behind an
expression in parentheses may be missing.
-/

namespace BlockScript.Grammar

open Decimal

/-- The rank of any expression. -/
def topRank : Nat := 6

/-- The rank whose operators are not chained. -/
def equalityRank : Nat := 4

/-- The operation that a lexeme stands for between expressions, if it has the given rank. -/
def binary? : Nat → Lexeme → Option (Expr → Expr → Expr)
  | 1, .symbol .star => some (.arith .mul)
  | 1, .symbol .slash => some (.arith .div)
  | 2, .symbol .plus => some (.arith .add)
  | 2, .symbol .minus => some (.arith .sub)
  | 3, .symbol .less => some (.rel .less)
  | 3, .symbol .lessEqual => some (.rel .lessEqual)
  | 3, .symbol .greater => some (.rel .greater)
  | 3, .symbol .greaterEqual => some (.rel .greaterEqual)
  | 4, .symbol .equal => some (.rel .equal)
  | 4, .symbol .notEqual => some (.rel .notEqual)
  | 5, .connective .conj => some (.logic .conj)
  | 6, .connective .disj => some (.logic .disj)
  | _, _ => none

/-- The sign that a lexeme stands for before a primary. -/
def sign? : Lexeme → Option Sign
  | .symbol .plus => some .plus
  | .symbol .minus => some .minus
  | _ => none

/-- The number that the payload of a hexadecimal number denotes. -/
def hexPayload? (digits : String) : Option Float :=
  readHex? digits.toList

/-- The number that the payload of a decimal number denotes. -/
def numberPayload? (digits : String) : Option Float :=
  readLiteral? digits.toList

/-- What a single token says as an expression, or why it says nothing. -/
def atom (l : Lexeme) : Except ParseFault Expr :=
  match l with
  | .number ds => (numberPayload? ds).elim (.error .malformedNumber) fun x =>
      .ok (.literal (.number x))
  | .hex ds => (hexPayload? ds).elim (.error .malformedNumber) fun x =>
      .ok (.literal (.number x))
  | .word w => .ok (.var w)
  | .text t => .ok (.literal (.text t))
  | _ => .error .unknownExpression

/-- The tokens behind a closing parenthesis, if one comes first, or else all of them. -/
def skipRightParen : List Token → List Token
  | [] => []
  | t :: r => if t.lexeme = .symbol .rightParen then r else t :: r

theorem length_skipRightParen_le (ts : List Token) : (skipRightParen ts).length ≤ ts.length := by
  cases ts with
  | nil => simp [skipRightParen]
  | cons t r => simp only [skipRightParen]; split <;> simp

mutual

/-- Reads an expression of rank `n`. -/
def readRank (n : Nat) (ts : List Token) : Reading Expr ts :=
  match n with
  | 0 => readSigned ts
  | n + 1 =>
    match readRank n ts with
    | .error s => .error s
    | .ok x =>
      match readChain n x.value x.rest with
      | .error s => .error s
      | .ok y => .ok (y.widen y.value x.rest_lt)
  termination_by (ts.length, n + 2)
  decreasing_by
    · exact Prod.Lex.right _ (by omega)
    · exact Prod.Lex.right _ (by omega)
    · exact Prod.Lex.left _ _ x.rest_lt

/-- Reads operators of rank `n + 1` and their right operands behind the expression `x`. -/
def readChain (n : Nat) (x : Expr) (ts : List Token) : Except Stop (Found Expr (ts.length + 1)) :=
  match ts with
  | [] => .ok ⟨x, [], Nat.lt_succ_self _⟩
  | t :: r =>
    match binary? (n + 1) t.lexeme with
    | none => .ok ⟨x, t :: r, Nat.lt_succ_self _⟩
    | some op =>
      match readRank n r with
      | .error s => .error s
      | .ok y =>
        if n + 1 = equalityRank then .ok (y.widen (op x y.value) (by simp; omega))
        else
          match readChain n (op x y.value) y.rest with
          | .error s => .error s
          | .ok z => .ok (z.widen z.value (by have := y.rest_lt; simp; omega))
  termination_by (ts.length, 0)
  decreasing_by
    · exact Prod.Lex.left _ _ (by simp)
    · exact Prod.Lex.left _ _ (by have := y.rest_lt; simp; omega)

/-- Reads a primary, possibly behind one sign. -/
def readSigned (ts : List Token) : Reading Expr ts :=
  match ts with
  | [] => .error ⟨.unknownExpression, []⟩
  | t :: r =>
    match sign? t.lexeme with
    | some s =>
      match readPrimary r with
      | .error e => .error e
      | .ok x => .ok (x.widen (.signed s x.value) (length_le_length_cons t r))
    | none => readPrimary (t :: r)
  termination_by (ts.length, 1)
  decreasing_by
    · exact Prod.Lex.left _ _ (by simp)
    · exact Prod.Lex.right _ (by omega)

/-- Reads a single token or an expression in parentheses. -/
def readPrimary (ts : List Token) : Reading Expr ts :=
  match ts with
  | [] => .error ⟨.unknownExpression, []⟩
  | t :: r =>
    if t.lexeme = .symbol .leftParen then
      match readRank topRank r with
      | .error s => .error s
      | .ok x => .ok ⟨x.value, skipRightParen x.rest, by
          have := x.rest_lt
          have := length_skipRightParen_le x.rest
          simp
          omega⟩
    else
      match atom t.lexeme with
      | .error f => .error ⟨f, t :: r⟩
      | .ok e => .ok ⟨e, r, length_lt_length_cons t r⟩
  termination_by (ts.length, 0)
  decreasing_by
    · exact Prod.Lex.left _ _ (by simp)

end

/-- Reads an expression. -/
def readExpr (ts : List Token) : Reading Expr ts :=
  readRank topRank ts

end BlockScript.Grammar
