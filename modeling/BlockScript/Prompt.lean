import BlockScript.CommandLine

/-!
# The prompt

Entries are typed line by line and run one after another against the same variables. An entry goes
on with the next line as long as a comment or a block is open in it.

* `isIncomplete`: the entry goes on.
* `Prompt`: the state and the lines of an unfinished entry.
* `Prompt.feed`: takes one line.
* `Prompt.report`: the report on everything typed.
-/

namespace BlockScript

/-- How many blocks more are opened than closed. -/
def blockDepth (ts : List Token) : Int :=
  ts.foldl (fun depth t =>
    match t.lexeme with
    | .keyword .beginKw => depth + 1
    | .keyword .endKw => depth - 1
    | _ => depth) 0

/-- The entry goes on with the next line: a comment or a block is open in it. -/
def isIncomplete (entry : String) : Bool :=
  match scan entry with
  | .error e => e.fault = .unterminatedComment
  | .ok s => decide (0 < blockDepth s.tokens)

/-- The state of a prompt and the lines of an unfinished entry. -/
structure Prompt where
  state : State
  entry : String := ""

/-- What the prompt shows before an entry. -/
def Prompt.mark : String := "> "

/-- The two ways a line ends, the longer first. -/
def Prompt.lineEndings : List (List Char) := [['\r', '\n'], ['\n']]

/-- A typed line and how it ends. -/
def Prompt.splitEnding (line : String) : String × String :=
  let cs := line.toList
  match lineEndings.find? fun e => e.isSuffixOf cs with
  | some e => (String.ofList (cs.take (cs.length - e.length)), String.ofList e)
  | none => (line, "")

namespace Prompt

/-- A prompt before its first entry. -/
def start (phases : Phases) : Prompt :=
  { state := State.print { trace := { phases := phases } } mark }

/-- Takes one typed line, where each loop is allowed `n` rounds; none if some loop needs more. -/
def feed (o : Options) (n : Nat) (p : Prompt) (line : String) : Option Prompt :=
  let (body, ending) := splitEnding line
  let entry := p.entry ++ body
  let σ := p.state.noteScan (scan entry)
  if isIncomplete entry then some ⟨σ, entry ++ ending⟩
  else
    match σ.runListed o n entry with
    | (.ok (), τ) => some { state := τ.print mark }
    | (.fault f, τ) => some { state := (τ.print (errorLine f.message)).print mark }
    | (.exhausted, _) => none

/-- Text cut into lines, each with its newline. -/
def typedLines : List Char → List (List Char)
  | [] => []
  | c :: cs =>
    if c = '\n' then ['\n'] :: typedLines cs
    else
      match typedLines cs with
      | [] => [[c]]
      | l :: ls => (c :: l) :: ls

/-- The report on everything typed, where each loop is allowed `n` rounds; none if some loop needs
more. An entry that is unfinished at the end is dropped. -/
def report (o : Options) (phases : Phases) (typed : String) (n : Nat) : Option Report :=
  let lines := (typedLines typed.toList).map String.ofList
  (lines.foldlM (feed o n) (start phases)).map fun p =>
    ⟨0, p.state.out.text, p.state.trace.text⟩

end Prompt
end BlockScript
