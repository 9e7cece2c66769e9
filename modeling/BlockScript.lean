import BlockScript.Character.Alphabetic
import BlockScript.Character.Blank
import BlockScript.Character.Extending
import BlockScript.Character.Numeric
import BlockScript.Character.Printable
import BlockScript.Character.Range
import BlockScript.CommandLine
import BlockScript.Decimal.Hexadecimal
import BlockScript.Decimal.Literal
import BlockScript.Decimal.Nearest
import BlockScript.Decimal.Numeral
import BlockScript.Decimal.Parts
import BlockScript.Decimal.Shortest
import BlockScript.Grammar.Expression
import BlockScript.Grammar.Reading
import BlockScript.Grammar.Statement
import BlockScript.Main
import BlockScript.Prompt
import BlockScript.Proofs.Derivation
import BlockScript.Proofs.Readers
import BlockScript.Run.Eval
import BlockScript.Run.Exec
import BlockScript.Run.Fault
import BlockScript.Run.Sink
import BlockScript.Run.Store
import BlockScript.Run.Trace
import BlockScript.Session
import BlockScript.Source.Lexeme
import BlockScript.Source.Piece
import BlockScript.Source.Scan
import BlockScript.Text.Fields
import BlockScript.Text.Quoted
import BlockScript.Tree.Expr
import BlockScript.Tree.Stmt
import BlockScript.Value
import BlockScript.Proofs.Recognition
import BlockScript.Proofs.LineBreak
import BlockScript.Proofs.Lockstep
import BlockScript.Proofs.Blame
import BlockScript.Proofs.Canonical
import BlockScript.Proofs.Incremental
import BlockScript.Proofs.Printing
import BlockScript.Proofs.LexicalGrammar
import BlockScript.Proofs.FirstPiece
import BlockScript.Proofs.Decomposition
import BlockScript.Proofs.Layout
import BlockScript.Proofs.Spelling
import BlockScript.Proofs.Payload
import BlockScript.Proofs.ParsedTrees
import BlockScript.Proofs.OpenBlocks
import BlockScript.Proofs.Steps
import BlockScript.Proofs.LimitedOutput
import BlockScript.Proofs.Names
import BlockScript.Proofs.Frame
import BlockScript.Proofs.Jumps
import BlockScript.Proofs.Independence
import BlockScript.Proofs.Doubles
import BlockScript.Proofs.NumberText
import BlockScript.Proofs.QuotedText
import BlockScript.Proofs.SourceTrees
import BlockScript.Proofs.ShownExpressions
import BlockScript.Proofs.ShownPrograms
import BlockScript.Proofs.LexicalFaults
import BlockScript.Proofs.Complements
import BlockScript.Proofs.Equivalence
import BlockScript.Proofs.LoopLaws
import BlockScript.Proofs.CanonicalForm
import BlockScript.Proofs.FirstFault
import BlockScript.Proofs.NumberValue
import BlockScript.Proofs.Repetition
import BlockScript.Proofs.NumberGrammar
import BlockScript.Proofs.NumberRoundTrip
import BlockScript.Proofs.CorrectRounding
import BlockScript.Proofs.WholeNumbers
import BlockScript.Proofs.HexLiterals
import BlockScript.Proofs.Cursor
import BlockScript.Proofs.CursorProgress
