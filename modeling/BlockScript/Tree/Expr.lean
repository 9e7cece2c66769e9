import BlockScript.Text.Quoted
import BlockScript.Value

/-!
# Expressions

* `Sign`, `ArithOp`, `RelOp`, `LogicOp`: the operators.
* `Expr`: expressions.
* `Expr.render`: an expression with every operation in brackets.
-/

namespace BlockScript

/-- The operators with one operand. -/
inductive Sign where
  | plus | minus
  deriving DecidableEq, Repr

/-- The operators of arithmetic. -/
inductive ArithOp where
  | add | sub | mul | div
  deriving DecidableEq, Repr

/-- The comparisons. -/
inductive RelOp where
  | less | lessEqual | greater | greaterEqual | equal | notEqual
  deriving DecidableEq, Repr

/-- The operators on conditions. -/
inductive LogicOp where
  | conj | disj
  deriving DecidableEq, Repr

/-- The operator as it is shown. -/
def Sign.render : Sign → String
  | .plus => "+"
  | .minus => "-"

/-- The operator as it is shown. -/
def ArithOp.render : ArithOp → String
  | .add => "+"
  | .sub => "-"
  | .mul => "*"
  | .div => "/"

/-- The operator as it is shown. -/
def RelOp.render : RelOp → String
  | .less => "<"
  | .lessEqual => "<="
  | .greater => ">"
  | .greaterEqual => ">="
  | .equal => "=="
  | .notEqual => "<>"

/-- The operator as it is shown. -/
def LogicOp.render : LogicOp → String
  | .conj => "and"
  | .disj => "or"

/-- An expression. -/
inductive Expr where
  | literal (v : Value)
  | var (name : String)
  | signed (op : Sign) (x : Expr)
  | arith (op : ArithOp) (x y : Expr)
  | rel (op : RelOp) (x y : Expr)
  | logic (op : LogicOp) (x y : Expr)
  deriving DecidableEq, Repr

/-- An operation with two operands as it is shown. -/
def renderBinary (x op y : String) : String :=
  "[" ++ x ++ " " ++ op ++ " " ++ y ++ "]"

/-- A literal as it is shown: a text stands in quotes. -/
def Value.renderLiteral : Value → String
  | .text t => Text.quoted t
  | .number x => numberText x

/-- The expression with every operation in brackets. -/
def Expr.render : Expr → String
  | .literal v => v.renderLiteral
  | .var name => name
  | .signed op x => "[" ++ op.render ++ " " ++ x.render ++ "]"
  | .arith op x y => renderBinary x.render op.render y.render
  | .rel op x y => renderBinary x.render op.render y.render
  | .logic op x y => renderBinary x.render op.render y.render

end BlockScript
