import BlockScript.Source.Piece

/-!
# From source text to tokens

* `ScanError`: a fault and the line it stands on, with its `message`.
* `scanFrom`: cuts a text into pieces and collects the tokens they spell, counting lines.
* `scan`: the tokens of a program and its number of lines.
-/

namespace BlockScript

/-- A fault of the source text and the line it stands on. -/
structure ScanError where
  fault : ScanFault
  line : Nat
  deriving DecidableEq, Repr

namespace ScanFault

/-- The piece of text that the fault is about; empty for a comment. -/
def text : ScanFault → String
  | .malformedNumber t => t
  | .unterminatedComment => ""
  | .unknownOperator op => op

/-- What the fault is, without its line. -/
def message : ScanFault → String
  | .malformedNumber t => "Malformed real number '" ++ t ++ "'."
  | .unterminatedComment => "Missing closing tag '\x7d' for comment."
  | .unknownOperator op => "Unknown operator '" ++ op ++ "'."

end ScanFault

/-- The mark of a line in front of a message. -/
def lineMark (line : Nat) : String :=
  "[line " ++ toString line ++ "] "

/-- The error as it is reported. -/
def ScanError.message (e : ScanError) : String :=
  lineMark e.line ++ e.fault.message

/-- What a program is cut into. -/
structure Scanned where
  tokens : List Token
  /-- The number of lines of the program. -/
  lines : Nat
  deriving DecidableEq, Repr

/-- The token that a piece spells on a given line, if it spells one. -/
def Piece.token? (p : Piece) (line : Nat) : Option Token :=
  p.lexeme?.map fun l => ⟨l, line⟩

/-- The line behind a piece that starts on the given line. -/
def Piece.lineAfter (p : Piece) (line : Nat) : Nat :=
  line + p.text.count '\n'

/-- Cuts the text `cs`, which starts on the given line, into pieces. The tokens found earlier are
in `found`, the latest first. -/
def scanFrom (line : Nat) (found : List Token) : List Char → Except ScanError Scanned
  | [] => .ok ⟨found.reverse, line⟩
  | c :: cs =>
    match _h : Piece.first c cs with
    | .error f => .error ⟨f, line⟩
    | .ok p => scanFrom (p.lineAfter line) ((p.token? line).toList ++ found) p.rest
  termination_by cs => cs.length
  decreasing_by exact Piece.first_rest_length_lt _h

/-- The tokens of a program and its number of lines, or the first fault. -/
def scan (code : String) : Except ScanError Scanned :=
  scanFrom 1 [] code.toList

@[simp] theorem scanFrom_nil (line : Nat) (found : List Token) :
    scanFrom line found [] = .ok ⟨found.reverse, line⟩ := by
  rw [scanFrom]

theorem scanFrom_cons_error {line : Nat} {found : List Token} {c : Char} {cs : List Char}
    {f : ScanFault} (h : Piece.first c cs = .error f) :
    scanFrom line found (c :: cs) = .error ⟨f, line⟩ := by
  rw [scanFrom]
  split <;> simp_all

theorem scanFrom_cons_ok {line : Nat} {found : List Token} {c : Char} {cs : List Char}
    {p : Piece} (h : Piece.first c cs = .ok p) :
    scanFrom line found (c :: cs) =
      scanFrom (p.lineAfter line) ((p.token? line).toList ++ found) p.rest := by
  rw [scanFrom]
  split <;> simp_all

end BlockScript
