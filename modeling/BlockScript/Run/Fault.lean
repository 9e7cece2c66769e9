import BlockScript.Run.Sink
import BlockScript.Tree.Stmt

/-!
# What stops a running program

* `Fault`: the reasons, each with its `message`.
-/

namespace BlockScript

/-- Why a running program stops. -/
inductive Fault where
  /-- A variable without a value is read. -/
  | undefined (name : String)
  /-- A jump is not inside a loop. -/
  | misplacedJump (j : Jump)
  /-- A text is to be repeated too many times. -/
  | repeatTooLarge (count : Float)
  /-- Output cannot be written. -/
  | output (e : SinkError)
  deriving DecidableEq, Repr

/-- The fault as it is reported. -/
def Fault.message : Fault → String
  | .undefined x => "Undefined identifier '" ++ x ++ "'."
  | .misplacedJump j => "`" ++ j.render ++ "` outside of a loop."
  | .repeatTooLarge n => "Cannot repeat text " ++ numberText n ++ " times."
  | .output e => "Failed to write output: " ++ e.message

end BlockScript
