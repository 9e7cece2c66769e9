import BlockScript.Session
import BlockScript.Text.Fields

/-!
# The command line

A program comes from a file or from standard input. On request its tokens and its tree are listed
before it runs.

* `Options`: what is listed.
* `Input`: where the program comes from; `Input.source` is its text or an `InputError`.
* `Report`: what is written and the exit code.
* `CommandLine.run`: the report on a program.
-/

namespace BlockScript

/-- What is listed before a program runs. -/
structure Options where
  tokens : Bool := false
  ast : Bool := false

/-- What is written to the two streams, and the exit code. -/
structure Report where
  exit : Nat
  stdout : String
  stderr : String
  deriving DecidableEq, Repr

/-! ### Where programs come from -/

/-- Why a program cannot be read. -/
inductive ReadError where
  | notText
  | notFound
  | isDirectory
  | denied
  deriving DecidableEq, Repr

/-- The error as it is reported. -/
def ReadError.message : ReadError → String
  | .notText => "stream did not contain valid UTF-8"
  | .notFound => "No such file or directory (os error 2)"
  | .isDirectory => "Is a directory (os error 21)"
  | .denied => "Permission denied (os error 13)"

/-- Why a program cannot be read, and the file it was looked for in, if it is one. -/
structure InputError where
  file? : Option String
  error : ReadError
  deriving DecidableEq, Repr

/-- The error as it is reported. -/
def InputError.message (e : InputError) : String :=
  match e.file? with
  | none => e.error.message
  | some name => "could not read " ++ name ++ ": " ++ e.error.message

/-- Where a program comes from. -/
inductive Input where
  /-- Bytes on standard input. -/
  | piped (bytes : ByteArray)
  /-- The bytes of a file. -/
  | file (name : String) (bytes : ByteArray)
  /-- A name that no file has. -/
  | unreadable (name : String) (e : ReadError)

namespace Input

/-- A path that names no file of its directory: one of dots alone leads to a directory, any other
to nothing. -/
def absent (path : String) : Input :=
  let isDots (part : List Char) : Bool := part.all (· == '.') && part.length ≤ 2
  if (Text.fields '/' path.toList).all isDots then .unreadable path .isDirectory
  else .unreadable path .notFound

/-- The text that bytes encode, or the error that they encode none. -/
def decode (file? : Option String) (bytes : ByteArray) : Except InputError String :=
  match String.fromUTF8? bytes with
  | some code => .ok code
  | none => .error ⟨file?, .notText⟩

/-- The text of the program, or why there is none. -/
def source : Input → Except InputError String
  | .piped bytes => decode none bytes
  | .file name bytes => decode (some name) bytes
  | .unreadable name e => .error ⟨some name, e⟩

end Input

/-! ### Running with listings -/

namespace State

/-- Writes a text to a stream that takes everything. -/
def print (σ : State) (t : String) : State :=
  (σ.write t).2

/-- Prints the listings that are asked for, and gives the tree. -/
def list (o : Options) (code : String) (σ : State) : Except Failure Stmt × State :=
  match scan code with
  | .error e => (.error (.scan e), σ)
  | .ok s =>
    let σ := if o.tokens then
        s.tokens.foldl (fun σ t => σ.print (t.listing ++ "\n")) (σ.noteScan (.ok s))
      else σ
    let σ := σ.noteCompile code
    match parse s.tokens with
    | .error e => (.error (.parse e), σ)
    | .ok p => (.ok p, if o.ast then σ.print (p.render ++ "\n") else σ)

/-- Runs source text behind the listings that are asked for. -/
def runListed (o : Options) (n : Nat) (code : String) (σ : State) :
    Ending Failure Unit × State :=
  match σ.list o code with
  | (.error f, τ) => (.fault f, τ)
  | (.ok p, τ) => failing (τ.interpret n p)

end State

/-- An error as it is reported. -/
def errorLine (message : String) : String :=
  "error: " ++ message ++ "\n"

namespace CommandLine

/-- The report on a program, where each loop is allowed `n` rounds; none if some loop needs
more. -/
def run (o : Options) (phases : Phases) (input : Input) (n : Nat) : Option Report :=
  match input.source with
  | .error e => some ⟨1, "", errorLine e.message⟩
  | .ok code =>
    match State.runListed o n code { trace := { phases := phases } } with
    | (.ok (), σ) => some ⟨0, σ.out.text, σ.trace.text⟩
    | (.fault f, σ) => some ⟨1, σ.out.text, σ.trace.text ++ errorLine f.message⟩
    | (.exhausted, _) => none

end CommandLine
end BlockScript
