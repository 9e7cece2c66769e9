import BlockScript.Tree.Expr

/-!
# Statements

* `Jump`: the two ways out of the body of a loop.
* `Stmt`: statements, with their `induction`.
* `Stmt.render`: a statement, one simple statement of a block to a line.
-/

namespace BlockScript

/-- The two ways out of the body of a loop. -/
inductive Jump where
  /-- Out of the loop. -/
  | leave
  /-- On to the next round. -/
  | next
  deriving DecidableEq, Repr

/-- The word for the jump. -/
def Jump.render : Jump → String
  | .leave => "break"
  | .next => "continue"

/-- A statement. A whole program is a block. -/
inductive Stmt where
  | assign (name : String) (e : Expr)
  /-- Writes a value, and ends the line if `newline`. -/
  | write (e : Expr) (newline : Bool)
  | ifThen (cond : Expr) (body : Stmt)
  | ifElse (cond : Expr) (body other : Stmt)
  | whileDo (cond : Expr) (body : Stmt)
  | repeatUntil (body : Stmt) (cond : Expr)
  | block (body : List Stmt)
  | jump (j : Jump)

/-- What holds of every statement if it holds of each that is built from statements of which it
holds. -/
@[elab_as_elim, induction_eliminator]
theorem Stmt.induction {P : Stmt → Prop}
    (assign : ∀ name e, P (.assign name e)) (write : ∀ e newline, P (.write e newline))
    (ifThen : ∀ cond body, P body → P (.ifThen cond body))
    (ifElse : ∀ cond body other, P body → P other → P (.ifElse cond body other))
    (whileDo : ∀ cond body, P body → P (.whileDo cond body))
    (repeatUntil : ∀ body cond, P body → P (.repeatUntil body cond))
    (block : ∀ body, (∀ s ∈ body, P s) → P (.block body)) (jump : ∀ j, P (.jump j))
    (s : Stmt) : P s :=
  Stmt.rec assign write ifThen ifElse whileDo repeatUntil block jump (by simp)
    (fun _ _ hs hss => by simpa using ⟨hs, hss⟩) s

mutual

/-- The statement, one statement of a block to a line. -/
def Stmt.render : Stmt → String
  | .assign name e => name ++ " := " ++ e.render
  | .write e true => "writeln " ++ e.render
  | .write e false => "write " ++ e.render
  | .ifThen c s => "if " ++ c.render ++ " then " ++ s.render
  | .ifElse c s t => "if " ++ c.render ++ " then " ++ s.render ++ "\nelse " ++ t.render
  | .whileDo c s => "while " ++ c.render ++ " do " ++ s.render
  | .repeatUntil s c => "repeat " ++ s.render ++ " until " ++ c.render
  | .block ss => "begin\n" ++ Stmt.renderLines ss ++ "end"
  | .jump j => j.render

/-- The statements, a line each. -/
def Stmt.renderLines : List Stmt → String
  | [] => ""
  | s :: ss => s.render ++ "\n" ++ Stmt.renderLines ss

end

/-- The statements directly inside a block; none for any other statement. -/
def Stmt.parts : Stmt → List Stmt
  | .block ss => ss
  | _ => []

end BlockScript
