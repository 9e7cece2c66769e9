/-!
# Lexemes and tokens

The words and signs of the language.

* `Keyword`, `Symbol`, `Connective`: the lexemes with one fixed spelling each.
* `Lexeme`: these, the lexemes that carry a text of their own, and the end of input.
* `Token`: a lexeme and the line it starts on.

Every lexeme has a `name`, which messages use, and a `payload`, which is empty for the lexemes of
fixed spelling.
-/

namespace BlockScript

/-! ### Lexemes of fixed spelling -/

/-- The reserved words. -/
inductive Keyword where
  | writelnKw | writeKw | ifKw | thenKw | elseKw | beginKw | endKw | whileKw | forKw | doKw
  | repeatKw | untilKw | breakKw | continueKw
  deriving DecidableEq, Repr

/-- The signs, parentheses included. -/
inductive Symbol where
  | plus | minus | star | slash | assign | equal | notEqual | less | lessEqual | greater
  | greaterEqual | leftParen | rightParen
  deriving DecidableEq, Repr

/-- The words that connect conditions. They are no reserved words: only a space after one of them
tells it from a name. -/
inductive Connective where
  | conj | disj | neg
  deriving DecidableEq, Repr

namespace Keyword

/-- Every reserved word. -/
def all : List Keyword :=
  [.writelnKw, .writeKw, .ifKw, .thenKw, .elseKw, .beginKw, .endKw, .whileKw, .forKw, .doKw,
   .repeatKw, .untilKw, .breakKw, .continueKw]

/-- The word as it stands in a program. -/
def spelling : Keyword → String
  | .writelnKw => "writeln"
  | .writeKw => "write"
  | .ifKw => "if"
  | .thenKw => "then"
  | .elseKw => "else"
  | .beginKw => "begin"
  | .endKw => "end"
  | .whileKw => "while"
  | .forKw => "for"
  | .doKw => "do"
  | .repeatKw => "repeat"
  | .untilKw => "until"
  | .breakKw => "break"
  | .continueKw => "continue"

/-- The keyword a word spells, if it is reserved. -/
def ofWord? (w : String) : Option Keyword :=
  all.find? fun k => k.spelling == w

theorem mem_all (k : Keyword) : k ∈ all := by
  cases k <;> decide

theorem spelling_of_ofWord? {w : String} {k : Keyword} (h : ofWord? w = some k) :
    k.spelling = w := by
  simpa using List.find?_some h

theorem ofWord?_eq_none_iff {w : String} : ofWord? w = none ↔ ∀ k : Keyword, k.spelling ≠ w := by
  simp [ofWord?, mem_all]

end Keyword

namespace Symbol

/-- Every symbol, those of two characters first: the first that fits is the longest that fits. -/
def all : List Symbol :=
  [.assign, .equal, .notEqual, .lessEqual, .greaterEqual, .less, .greater, .plus, .minus, .star,
   .slash, .leftParen, .rightParen]

/-- The symbol as it stands in a program. -/
def spelling : Symbol → String
  | .plus => "+"
  | .minus => "-"
  | .star => "*"
  | .slash => "/"
  | .assign => ":="
  | .equal => "=="
  | .notEqual => "<>"
  | .less => "<"
  | .lessEqual => "<="
  | .greater => ">"
  | .greaterEqual => ">="
  | .leftParen => "("
  | .rightParen => ")"

/-- The name of the symbol in messages. -/
def name : Symbol → String
  | .plus => "PLUS"
  | .minus => "MINUS"
  | .star => "STAR"
  | .slash => "SLASH"
  | .assign => "ASSIGN"
  | .equal => "EQUALEQUAL"
  | .notEqual => "NOTEQUAL"
  | .less => "LESS"
  | .lessEqual => "LESSEQUAL"
  | .greater => "GREATER"
  | .greaterEqual => "GREATEREQUAL"
  | .leftParen => "LPAREN"
  | .rightParen => "RPAREN"

theorem mem_all (s : Symbol) : s ∈ all := by
  cases s <;> decide

end Symbol

namespace Connective

/-- Every connective. -/
def all : List Connective := [.conj, .neg, .disj]

/-- The connective as it stands in a program. -/
def spelling : Connective → String
  | .conj => "and"
  | .disj => "or"
  | .neg => "not"

theorem mem_all (c : Connective) : c ∈ all := by
  cases c <;> decide

end Connective

/-! ### All lexemes -/

/-- What a token says. -/
inductive Lexeme where
  /-- A decimal number, by its digits. -/
  | number (digits : String)
  /-- A hexadecimal number, by its digits. -/
  | hex (digits : String)
  /-- A name. -/
  | word (name : String)
  /-- A text literal, by what it denotes. -/
  | text (content : String)
  | keyword (k : Keyword)
  | symbol (s : Symbol)
  | connective (c : Connective)
  /-- The end of input. -/
  | eof
  deriving DecidableEq, Repr

namespace Lexeme

/-- The name of the lexeme's kind in messages. -/
def name : Lexeme → String
  | .number _ => "NUM"
  | .hex _ => "HEX_NUM"
  | .word _ => "WORD"
  | .text _ => "TEXT"
  | .keyword k => k.spelling.toUpper
  | .symbol s => s.name
  | .connective c => c.spelling.toUpper
  | .eof => "EOF"

/-- The text the lexeme carries, empty for lexemes of fixed spelling. -/
def payload : Lexeme → String
  | .number t | .hex t | .word t | .text t => t
  | .keyword _ | .symbol _ | .connective _ | .eof => ""

/-- One lexeme of every kind, with the given payload where the kind takes one. -/
def withPayload (t : String) : List Lexeme :=
  [.number t, .hex t, .word t, .text t] ++ Keyword.all.map .keyword ++ Symbol.all.map .symbol ++
    Connective.all.map .connective ++ [.eof]

/-- The lexeme of the named kind, with the given payload where the kind takes one. -/
def ofName? (kind t : String) : Option Lexeme :=
  (withPayload t).find? fun l => l.name == kind

end Lexeme

/-- A lexeme and the line it starts on. -/
structure Token where
  lexeme : Lexeme
  line : Nat
  deriving DecidableEq, Repr

/-- The token as a line of a token listing: its name, a space and its payload. -/
def Token.listing (t : Token) : String :=
  t.lexeme.name ++ " " ++ t.lexeme.payload

end BlockScript
