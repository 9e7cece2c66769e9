import BlockScript.Source.Scan
import BlockScript.Text.Quoted

/-!
# Reading tokens

A reader takes tokens from the front of a list and returns a value and the tokens it left.

* `ParseFault`: why a reader stops.
* `Stop`: a fault and the tokens it left unread, the blamed one first.
* `Found`: a value and the unread tokens, which are fewer than a bound.
* `ParseError`: a fault and the blamed token, with its `message`.
-/

namespace BlockScript

/-- Why a reader stops. -/
inductive ParseFault where
  /-- Another lexeme has to stand here. -/
  | expected (l : Lexeme)
  /-- Only a name can be assigned to. -/
  | notAssignable
  /-- No statement starts so. -/
  | unknownStatement
  /-- No expression starts so. -/
  | unknownExpression
  /-- The payload of a number denotes none. -/
  | malformedNumber
  deriving DecidableEq, Repr

/-- Why and where a reader stops. The unread tokens start with the blamed one; where there are
none, the end of input is to blame. -/
structure Stop where
  fault : ParseFault
  unread : List Token
  deriving DecidableEq, Repr

/-- A value and the tokens behind it, fewer than `bound`. -/
structure Found (α : Type) (bound : Nat) where
  value : α
  rest : List Token
  rest_lt : rest.length < bound

/-- What a reader makes of `ts` when it takes at least one token. -/
abbrev Reading (α : Type) (ts : List Token) : Type :=
  Except Stop (Found α ts.length)

namespace Found

variable {α β : Type} {m n : Nat}

/-- The same finding under a larger bound, with another value. -/
def widen (x : Found α m) (v : β) (h : m ≤ n) : Found β n :=
  ⟨v, x.rest, Nat.lt_of_lt_of_le x.rest_lt h⟩

end Found

/-- Behind its first token a list is shorter. -/
theorem length_lt_length_cons (t : Token) (r : List Token) : r.length < (t :: r).length :=
  Nat.lt_succ_self _

/-- Behind its first token a list is no longer. -/
theorem length_le_length_cons (t : Token) (r : List Token) : r.length ≤ (t :: r).length :=
  Nat.le_succ _

/-! ### Errors -/

/-- A fault and the blamed token. -/
structure ParseError where
  fault : ParseFault
  source : Token
  deriving DecidableEq, Repr

/-- The end of input behind the tokens `ts`, on the line of the last of them. -/
def endToken (ts : List Token) : Token :=
  ⟨.eof, (ts.getLast?.map Token.line).getD 1⟩

/-- The error of a reader that was given `ts` and stopped. -/
def Stop.toError (s : Stop) (ts : List Token) : ParseError :=
  ⟨s.fault, s.unread.headD (endToken ts)⟩

/-- A token as messages mention it. -/
def Token.mention (t : Token) : String :=
  match t.lexeme with
  | .eof => "end of input"
  | .text s => t.lexeme.name ++ " " ++ Text.quoted s
  | .number s | .hex s | .word s => t.lexeme.name ++ " '" ++ s ++ "'"
  | .keyword _ | .symbol _ | .connective _ => t.lexeme.name

/-- What is wrong with a token that messages mention as `got`. -/
def ParseFault.message (got : String) : ParseFault → String
  | .expected l => "Expected " ++ l.name ++ " but got " ++ got ++ "."
  | .notAssignable => "Cannot assign to " ++ got ++ "."
  | .unknownStatement => "Unknown statement starting with " ++ got ++ "."
  | .unknownExpression => "Unknown expression " ++ got ++ "."
  | .malformedNumber => "Malformed number " ++ got ++ "."

/-- The error as it is reported. -/
def ParseError.message (e : ParseError) : String :=
  lineMark e.source.line ++ e.fault.message e.source.mention

end BlockScript
