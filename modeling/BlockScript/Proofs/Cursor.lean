import BlockScript.Grammar.Statement

/-!
# A parser with a cursor

The readers take tokens from a list. A parser can also leave the tokens where they are and move a
cursor over them: it looks at the token under the cursor and the one behind it, and steps over
those that it takes. Nothing then stops it from running past the last token, where it sees the end
of input again and again. Such a parser is run with fuel, since its loops and calls have no measure.

* `Outcome`: what becomes of a parser with a cursor; `Walk`: such a parser.
* `peekAt`, `advance`, `previous`, `matchNext`, `matchOp`, `consume`: how it sees and moves.
* `rankWalk`, `chainWalk`, `primaryWalk`: expressions.
* `statementWalk`, `branchWalk`, `blockWalk`, `bodyWalk`: statements.
* `parseWalk`: programs.
-/

namespace BlockScript.Cursor

open Grammar

variable {α β : Type}

/-- What becomes of a parser with a cursor. -/
inductive Outcome (α : Type) where
  /-- It found a value and left the cursor there. -/
  | done (value : α) (index : Nat)
  /-- It found an error and left the cursor there. -/
  | failed (e : ParseError) (index : Nat)
  /-- It asked for the token in front of the cursor where there is none. -/
  | outside
  /-- Its fuel is used up. -/
  | running

/-- A parser, by the position of its cursor. -/
def Walk (α : Type) : Type :=
  Nat → Outcome α

namespace Walk

/-- Goes on behind a value. -/
def andThen (m : Walk α) (k : α → Walk β) : Walk β := fun i =>
  match m i with
  | .done v j => k v j
  | .failed e j => .failed e j
  | .outside => .outside
  | .running => .running

instance : Monad Walk where
  pure v := fun i => .done v i
  bind := andThen

/-- Ends with an error. -/
def fail (f : ParseFault) (t : Token) : Walk α := fun i =>
  .failed ⟨f, t⟩ i

/-- Moves the cursor over `k` tokens. -/
def skip (k : Nat) : Walk Unit := fun i =>
  .done () (i + k)

/-- The parser that is out of fuel. -/
def exhausted : Walk α := fun _ =>
  .running

end Walk

open Walk

/-! ### Looking and moving -/

section

variable (ts : List Token)

/-- Whether the cursor stands on a token. -/
def hasNext : Walk Bool := fun i =>
  .done (decide (i < ts.length)) i

/-- The token `k` places behind the cursor, or the end of input. -/
def peekAt (k : Nat) : Walk Token := fun i =>
  .done (ts.getD (i + k) (endToken ts)) i

/-- The token under the cursor, which moves on, even past the end of input. -/
def advance : Walk Token := do
  let t ← peekAt ts 0
  skip 1
  return t

/-- The token in front of the cursor. There has to be one. -/
def previous : Walk Token := fun i =>
  if h : 0 < i ∧ i ≤ ts.length then .done (ts.get ⟨i - 1, by omega⟩) i else .outside

/-- Whether the token under the cursor has the lexeme `l`. -/
def check (l : Lexeme) : Walk Bool := do
  let t ← peekAt ts 0
  return decide (t.lexeme = l)

/-- Steps over the lexeme `l` if it comes next. -/
def matchNext (l : Lexeme) : Walk Bool := do
  if ← check ts l then
    skip 1
    return true
  else
    return false

/-- Steps over the next lexeme if it stands for an operator. -/
def matchOp (op? : Lexeme → Option β) : Walk (Option β) := do
  let t ← peekAt ts 0
  match op? t.lexeme with
  | some op =>
    skip 1
    return some op
  | none => return none

/-- Steps over the lexeme `l`, which has to come next. -/
def consume (l : Lexeme) : Walk Token := do
  if ← check ts l then
    skip 1
    previous ts
  else
    let t ← peekAt ts 0
    fail (.expected l) t

/-! ### Expressions -/

mutual

/-- Parses an expression of rank `n`. -/
def rankWalk : Nat → Nat → Walk Expr
  | 0, _ => exhausted
  | fuel + 1, 0 => do
    match ← matchOp ts sign? with
    | some s =>
      let x ← primaryWalk fuel
      return .signed s x
    | none => primaryWalk fuel
  | fuel + 1, n + 1 => do
    let x ← rankWalk fuel n
    if n + 1 = equalityRank then
      match ← matchOp ts (binary? (n + 1)) with
      | some op =>
        let y ← rankWalk fuel n
        return op x y
      | none => return x
    else
      chainWalk fuel n x

/-- Parses operators of rank `n + 1` and their right operands behind the expression `x`. -/
def chainWalk : Nat → Nat → Expr → Walk Expr
  | 0, _, _ => exhausted
  | fuel + 1, n, x => do
    match ← matchOp ts (binary? (n + 1)) with
    | some op =>
      let y ← rankWalk fuel n
      chainWalk fuel n (op x y)
    | none => return x

/-- Parses a single token or an expression in parentheses. -/
def primaryWalk : Nat → Walk Expr
  | 0 => exhausted
  | fuel + 1 => do
    let t ← advance ts
    if t.lexeme = .symbol .leftParen then
      let x ← rankWalk fuel topRank
      let _ ← matchNext ts (.symbol .rightParen)
      return x
    else
      match atom t.lexeme with
      | .ok x => return x
      | .error f => fail f t

end

/-! ### Statements -/

/-- Parses a condition and the keyword `k` behind it. -/
def conditionWalk (fuel : Nat) (k : Keyword) : Walk Expr := do
  let c ← rankWalk ts fuel topRank
  let _ ← consume ts (.keyword k)
  return c

/-- Parses an assignment, which nothing but the second token tells. -/
def assignmentWalk (fuel : Nat) : Walk Stmt := do
  let target ← peekAt ts 0
  let next ← peekAt ts 1
  match target.lexeme, decide (next.lexeme = .symbol .assign) with
  | .word name, true =>
    skip 2
    let x ← rankWalk ts fuel topRank
    return .assign name x
  | .word _, false => fail (.expected (.symbol .assign)) next
  | _, true => fail .notAssignable target
  | _, false => fail .unknownStatement target

/-- Parses what a statement writes. -/
def writeWalk (fuel : Nat) (newline : Bool) : Walk Stmt := do
  let x ← rankWalk ts fuel topRank
  return .write x newline

/-- Parses a conditional statement behind its first keyword. -/
def ifWalk (fuel : Nat) (branch : Walk Stmt) : Walk Stmt := do
  let c ← conditionWalk ts fuel .thenKw
  let s ← branch
  if ← matchNext ts (.keyword .elseKw) then
    let o ← branch
    return .ifElse c s o
  else
    return .ifThen c s

/-- Parses a loop behind `while`. -/
def whileWalk (fuel : Nat) (branch : Walk Stmt) : Walk Stmt := do
  let c ← conditionWalk ts fuel .doKw
  let s ← branch
  return .whileDo c s

/-- Parses a loop behind `repeat`. -/
def repeatWalk (fuel : Nat) (branch : Walk Stmt) : Walk Stmt := do
  let s ← branch
  let _ ← consume ts (.keyword .untilKw)
  let c ← rankWalk ts fuel topRank
  return .repeatUntil s c

mutual

/-- Parses one statement. -/
def statementWalk : Nat → Walk Stmt
  | 0 => exhausted
  | fuel + 1 => do
    if ← matchNext ts (.keyword .writelnKw) then
      writeWalk ts fuel true
    else if ← matchNext ts (.keyword .writeKw) then
      writeWalk ts fuel false
    else if ← matchNext ts (.keyword .ifKw) then
      ifWalk ts fuel (branchWalk fuel)
    else if ← matchNext ts (.keyword .breakKw) then
      return .jump .leave
    else if ← matchNext ts (.keyword .continueKw) then
      return .jump .next
    else if ← matchNext ts (.keyword .whileKw) then
      whileWalk ts fuel (branchWalk fuel)
    else if ← matchNext ts (.keyword .repeatKw) then
      repeatWalk ts fuel (branchWalk fuel)
    else
      assignmentWalk ts fuel

/-- Parses a statement or a block. -/
def branchWalk : Nat → Walk Stmt
  | 0 => exhausted
  | fuel + 1 => do
    if ← check ts (.keyword .beginKw) then blockWalk fuel else statementWalk fuel

/-- Parses a block. -/
def blockWalk : Nat → Walk Stmt
  | 0 => exhausted
  | fuel + 1 => do
    let _ ← consume ts (.keyword .beginKw)
    let ss ← bodyWalk fuel
    return .block ss

/-- Parses the statements of a block and its end. -/
def bodyWalk : Nat → Walk (List Stmt)
  | 0 => exhausted
  | fuel + 1 => do
    if ← matchNext ts (.keyword .endKw) then
      return []
    else if ← hasNext ts then
      let s ← statementWalk fuel
      let ss ← bodyWalk fuel
      return s :: ss
    else
      let t ← peekAt ts 0
      fail (.expected (.keyword .endKw)) t

end

/-- Parses statements up to the end of input. -/
def programWalk : Nat → Walk (List Stmt)
  | 0 => exhausted
  | fuel + 1 => do
    if ← hasNext ts then
      let s ← statementWalk ts fuel
      let ss ← programWalk fuel
      return s :: ss
    else
      return []

/-- Parses a program. -/
def parseWalk (fuel : Nat) : Walk Stmt := do
  let ss ← programWalk ts fuel
  return .block ss

end

end BlockScript.Cursor
