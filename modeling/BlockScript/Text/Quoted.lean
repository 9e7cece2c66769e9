import BlockScript.Character.Extending
import BlockScript.Character.Printable

/-!
# Quoted text

A text is shown between double quotes, on one line and in printable characters.

* `escaped`: how one character is shown inside the quotes.
* `quotedBody`: how a text is shown inside the quotes.
* `quoted`: the same with the quotes.

An extending character would attach to the opening quote, so it is escaped where it comes first.
-/

namespace BlockScript.Text

open Character

/-- A character by its code point. -/
def codePointEscape (c : Char) : List Char :=
  ['\\', 'u', '{'] ++ Nat.toDigits 16 c.toNat ++ ['}']

/-- A character as it is shown inside the quotes; `isFirst` if nothing is shown before it. -/
def escaped (isFirst : Bool) (c : Char) : List Char :=
  match c with
  | '\x00' => ['\\', '0']
  | '\t' => ['\\', 't']
  | '\r' => ['\\', 'r']
  | '\n' => ['\\', 'n']
  | '\\' => ['\\', '\\']
  | '"' => ['\\', '"']
  | '\'' => ['\\', '\'']
  | c =>
    if isFirst && isExtending c then codePointEscape c
    else if isPrintable c then [c]
    else codePointEscape c

/-- A text as it is shown inside the quotes. -/
def quotedBody : List Char → List Char
  | [] => []
  | c :: cs => escaped true c ++ cs.flatMap (escaped false)

/-- A text as it is shown, with its quotes. -/
def quoted (t : String) : String :=
  "\"" ++ String.ofList (quotedBody t.toList) ++ "\""

end BlockScript.Text
