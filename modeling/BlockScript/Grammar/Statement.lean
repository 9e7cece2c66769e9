import BlockScript.Grammar.Expression
import BlockScript.Tree.Stmt

/-!
# Reading statements

Nothing separates two statements: where one ends is told by the token behind it.

* `readStatement`: reads one statement.
* `readBranch`: reads a statement or a block, as the branches and the bodies of loops are.
* `readBlock`: reads the statements of a block and its end.
* `readProgram`: reads statements up to the end of input.
* `parse`: the program that a list of tokens makes up.
-/

namespace BlockScript.Grammar

/-- Takes the one lexeme `l`. -/
def take (l : Lexeme) (ts : List Token) : Reading Unit ts :=
  match ts with
  | [] => .error ⟨.expected l, []⟩
  | t :: r => if t.lexeme = l then .ok ⟨(), r, length_lt_length_cons t r⟩ else .error ⟨.expected l, t :: r⟩

/-- The next token has the lexeme `l`. -/
def nextIs (l : Lexeme) : List Token → Bool
  | [] => false
  | t :: _ => decide (t.lexeme = l)

/-- Reads the rest of an assignment to `name`. -/
def readAssignment (name : String) (ts : List Token) : Reading Stmt ts :=
  match take (.symbol .assign) ts with
  | .error s => .error s
  | .ok a =>
    match readExpr a.rest with
    | .error s => .error s
    | .ok e => .ok (e.widen (.assign name e.value) (Nat.le_of_lt a.rest_lt))

/-- Reads the value that a statement writes. -/
def readWrite (newline : Bool) (ts : List Token) : Reading Stmt ts :=
  match readExpr ts with
  | .error s => .error s
  | .ok e => .ok (e.widen (.write e.value newline) (Nat.le_refl _))

/-- Reads a condition and the keyword `k` behind it. -/
def readCondition (k : Keyword) (ts : List Token) : Reading Expr ts :=
  match readExpr ts with
  | .error s => .error s
  | .ok c =>
    match take (.keyword k) c.rest with
    | .error s => .error s
    | .ok u => .ok (u.widen c.value (Nat.le_of_lt c.rest_lt))

/-- The fault of a token that starts no statement, by the tokens behind it. -/
def statementFault (behind : List Token) : ParseFault :=
  if nextIs (.symbol .assign) behind then .notAssignable else .unknownStatement

mutual

/-- Reads one statement. -/
def readStatement (ts : List Token) : Reading Stmt ts :=
  match ts with
  | [] => .error ⟨.unknownStatement, []⟩
  | t :: r =>
    match t.lexeme with
    | .keyword .writelnKw => (readWrite true r).map fun s => s.widen s.value (length_le_length_cons t r)
    | .keyword .writeKw => (readWrite false r).map fun s => s.widen s.value (length_le_length_cons t r)
    | .keyword .breakKw => .ok ⟨.jump .leave, r, length_lt_length_cons t r⟩
    | .keyword .continueKw => .ok ⟨.jump .next, r, length_lt_length_cons t r⟩
    | .keyword .ifKw =>
      match readCondition .thenKw r with
      | .error s => .error s
      | .ok c =>
        match readBranch c.rest with
        | .error s => .error s
        | .ok s =>
          match take (.keyword .elseKw) s.rest with
          | .error _ => .ok (s.widen (.ifThen c.value s.value) (by
              have := c.rest_lt; simp; omega))
          | .ok u =>
            match readBranch u.rest with
            | .error e => .error e
            | .ok o => .ok (o.widen (.ifElse c.value s.value o.value) (by
                have := c.rest_lt; have := s.rest_lt; have := u.rest_lt; simp; omega))
    | .keyword .whileKw =>
      match readCondition .doKw r with
      | .error s => .error s
      | .ok c =>
        match readBranch c.rest with
        | .error s => .error s
        | .ok s => .ok (s.widen (.whileDo c.value s.value) (by
            have := c.rest_lt; simp; omega))
    | .keyword .repeatKw =>
      match readBranch r with
      | .error s => .error s
      | .ok s =>
        match take (.keyword .untilKw) s.rest with
        | .error e => .error e
        | .ok u =>
          match readExpr u.rest with
          | .error e => .error e
          | .ok c => .ok (c.widen (.repeatUntil s.value c.value) (by
              have := s.rest_lt; have := u.rest_lt; simp; omega))
    | .word name => (readAssignment name r).map fun s => s.widen s.value (length_le_length_cons t r)
    | _ => .error ⟨statementFault r, t :: r⟩
  termination_by 3 * ts.length + 1
  decreasing_by
    · have := c.rest_lt; simp; omega
    · have := c.rest_lt; have := s.rest_lt; have := u.rest_lt; simp; omega
    · have := c.rest_lt; simp; omega
    · simp; omega

/-- Reads a statement or a block. -/
def readBranch (ts : List Token) : Reading Stmt ts :=
  match take (.keyword .beginKw) ts with
  | .error _ => readStatement ts
  | .ok u =>
    match readBlock u.rest with
    | .error s => .error s
    | .ok b => .ok (b.widen (.block b.value) (Nat.le_of_lt u.rest_lt))
  termination_by 3 * ts.length + 2
  decreasing_by
    · omega
    · have := u.rest_lt; omega

/-- Reads the statements of a block and its end. -/
def readBlock (ts : List Token) : Reading (List Stmt) ts :=
  match ts with
  | [] => .error ⟨.expected (.keyword .endKw), []⟩
  | t :: r =>
    if t.lexeme = .keyword .endKw then .ok ⟨[], r, length_lt_length_cons t r⟩
    else
      match readStatement (t :: r) with
      | .error s => .error s
      | .ok s =>
        match readBlock s.rest with
        | .error e => .error e
        | .ok b => .ok (b.widen (s.value :: b.value) (Nat.le_of_lt s.rest_lt))
  termination_by 3 * ts.length + 2
  decreasing_by
    · simp
    · have := s.rest_lt; omega

end

/-- Reads statements up to the end of input. -/
def readProgram (ts : List Token) : Except Stop (List Stmt) :=
  match ts with
  | [] => .ok []
  | t :: r =>
    match readStatement (t :: r) with
    | .error s => .error s
    | .ok s =>
      match readProgram s.rest with
      | .error e => .error e
      | .ok ss => .ok (s.value :: ss)
  termination_by ts.length
  decreasing_by exact s.rest_lt

end BlockScript.Grammar

namespace BlockScript

/-- The program that a list of tokens makes up. -/
def parse (ts : List Token) : Except ParseError Stmt :=
  match Grammar.readProgram ts with
  | .error s => .error (s.toError ts)
  | .ok ss => .ok (.block ss)

end BlockScript
