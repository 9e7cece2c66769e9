import BlockScript.Grammar.Statement
import BlockScript.Run.Exec

/-!
# Running programs

* `Failure`: why a program does not run to its end, each with its `message`.
* `compile`: the tree of a program, from its source text.
* `State.interpret`: runs a tree against the variables and the output of a state.
* `State.run`: runs source text, which is compiled first.
-/

namespace BlockScript

/-- Why a program does not run to its end. -/
inductive Failure where
  | scan (e : ScanError)
  | parse (e : ParseError)
  | run (f : Fault)
  deriving DecidableEq, Repr

/-- The failure as it is reported. -/
def Failure.message : Failure → String
  | .scan e => e.message
  | .parse e => e.message
  | .run f => f.message

/-- The tree of a program. -/
def compile (code : String) : Except Failure Stmt :=
  match scan code with
  | .error e => .error (.scan e)
  | .ok s =>
    match parse s.tokens with
    | .error e => .error (.parse e)
    | .ok p => .ok p

namespace State

/-- Notes what came of cutting source text into tokens. -/
def noteScan (σ : State) : Except ScanError Scanned → State
  | .error _ => σ
  | .ok s => σ.note (.scanned s.tokens.length s.lines)

/-- Notes what came of reading a program. -/
def noteParse (σ : State) : Except ParseError Stmt → State
  | .error _ => σ
  | .ok p => σ.note (.parsed p.parts.length)

/-- Notes what came of the two steps of compiling source text. -/
def noteCompile (σ : State) (code : String) : State :=
  let scanned := scan code
  match scanned with
  | .error _ => σ
  | .ok s => (σ.noteScan scanned).noteParse (parse s.tokens)

/-- Runs a tree, where each loop is allowed `n` rounds. Output is passed on before the ending is
looked at, so a sink that fails to do so hides a fault of the program. -/
def interpret (n : Nat) (p : Stmt) (σ : State) : Ending Fault Unit × State :=
  match p.exec n σ with
  | (.exhausted, τ) => (.exhausted, τ)
  | (.ok flow, τ) =>
    match τ.out.flush, flow with
    | some e, _ => (.fault (.output e), τ)
    | none, .normal => (.ok (), τ)
    | none, .jump j => (.fault (.misplacedJump j), τ)
  | (.fault f, τ) =>
    match τ.out.flush with
    | some e => (.fault (.output e), τ)
    | none => (.fault f, τ)

/-- The ending of a program whose tree ended so. -/
def failing : Ending Fault Unit × State → Ending Failure Unit × State
  | (.ok (), τ) => (.ok (), τ)
  | (.fault f, τ) => (.fault (.run f), τ)
  | (.exhausted, τ) => (.exhausted, τ)

/-- Runs source text, where each loop is allowed `n` rounds. -/
def run (n : Nat) (code : String) (σ : State) : Ending Failure Unit × State :=
  match compile code with
  | .error f => (.fault f, σ.noteCompile code)
  | .ok p => failing ((σ.noteCompile code).interpret n p)

end State
end BlockScript
