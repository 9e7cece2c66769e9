import BlockScript.Prompt

/-!
# The program

Runs the file that is named, or else standard input; a terminal gets a prompt.
-/

namespace BlockScript.Main

/-- The first answer of `f` for growing allowances. -/
partial def settle {α : Type} (f : Nat → Option α) (n : Nat) : IO α :=
  match f n with
  | some a => pure a
  | none => settle f (2 * n)

/-- The allowance of rounds to start with. -/
def firstAllowance : Nat := 1000000

/-- Options and the name of a file from the arguments. -/
def readArguments (args : List String) : Options × Option String :=
  ({ tokens := args.contains "--tokens", ast := args.contains "--ast" },
    args.find? fun a => !a.startsWith "--")

/-- Writes a report and gives its exit code. -/
def deliver (r : Report) : IO UInt32 := do
  (← IO.getStdout).putStr r.stdout
  (← IO.getStderr).putStr r.stderr
  return r.exit.toUInt32

/-- The program in a file. -/
def readInput (name : String) : IO Input := do
  try
    return .file name (← IO.FS.readBinFile name)
  catch
    | .noFileOrDirectory .. => return .unreadable name .notFound
    | .permissionDenied .. => return .unreadable name .denied
    | _ => return .unreadable name .isDirectory

/-- Takes lines from a terminal until the end of input. -/
partial def converse (o : Options) (p : Prompt) (shown told : Nat) : IO Unit := do
  let out ← IO.getStdout
  let err ← IO.getStderr
  err.putStr (String.join ((p.state.trace.events.reverse.drop told).map (·.line ++ "\n")))
  out.putStr (p.state.out.textFrom shown)
  out.flush
  let line ← (← IO.getStdin).getLine
  unless line.isEmpty do
    let q ← settle (fun n => p.feed o n line) firstAllowance
    converse o q p.state.out.written.size p.state.trace.events.length

end BlockScript.Main

open BlockScript BlockScript.Main

/-- Runs the file that is named, or else standard input. -/
def main (args : List String) : IO UInt32 := do
  let (o, file) := readArguments args
  let phases := Phases.ofChoice ((← IO.getEnv "PASTEL_TRACE").getD "")
  match file with
  | some name =>
    let input ← readInput name
    deliver (← settle (CommandLine.run o phases input) firstAllowance)
  | none =>
    let stdin ← IO.getStdin
    if ← stdin.isTty then
      converse o (Prompt.start phases) 0 0
      return 0
    else
      let bytes ← stdin.readBinToEnd
      deliver (← settle (CommandLine.run o phases (.piped bytes)) firstAllowance)
