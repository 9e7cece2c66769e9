import BlockScript.Character.Numeric
import BlockScript.Source.Lexeme

/-!
# Pieces of source text

Source text falls into pieces: lexemes, comments, and single characters that mean nothing.

* `Piece`: the characters of a piece, what they spell, and the text behind them.
* `Piece.first`: the piece at the head of a text, or the fault there.
* `Piece.first_text_append_rest`: a piece and the text behind it make up the text read.
* `Piece.first_text_ne_nil`: a piece is never empty, so cutting a text into pieces ends.
-/

namespace BlockScript

/-- A piece at the head of a text. -/
structure Piece where
  /-- The lexeme that the piece spells; comments and skipped characters spell none. -/
  lexeme? : Option Lexeme
  /-- The characters of the piece. -/
  text : List Char
  /-- The characters behind the piece. -/
  rest : List Char

/-- What can be wrong at the head of a text. -/
inductive ScanFault where
  /-- A second point follows the digits of a number. -/
  | malformedNumber (text : String)
  /-- A comment is never closed. -/
  | unterminatedComment
  /-- A character starts some symbol, but none that fits. -/
  | unknownOperator (op : String)
  deriving DecidableEq, Repr

namespace Piece

open Character

/-- A number: digits, then possibly a point and more digits. -/
def number (cs : List Char) : Except ScanFault Piece :=
  let whole := cs.takeWhile Char.isDigit
  match cs.dropWhile Char.isDigit with
  | '.' :: r =>
    let text := whole ++ '.' :: r.takeWhile Char.isDigit
    match r.dropWhile Char.isDigit with
    | '.' :: _ => .error (.malformedNumber (String.ofList (text ++ ['.'])))
    | rest => .ok ⟨some (.number (String.ofList text)), text, rest⟩
  | rest => .ok ⟨some (.number (String.ofList whole)), whole, rest⟩

/-- The character is a hexadecimal digit. -/
def isHexDigit (c : Char) : Bool :=
  c.isDigit || ('a' ≤ c && c ≤ 'f') || ('A' ≤ c && c ≤ 'F')

/-- A hexadecimal number, from the text behind its mark. -/
def hexNumber (cs : List Char) : Piece :=
  let digits := cs.takeWhile isHexDigit
  ⟨some (.hex (String.ofList digits)), '#' :: digits, cs.dropWhile isHexDigit⟩

/-- The body of a text literal, from the text behind its opening quote: what it denotes, its
characters with the closing quote, and the text behind it. A literal that is never closed takes
all of the text. -/
def textBody : List Char → List Char × List Char × List Char
  | [] => ([], [], [])
  | '"' :: r => ([], ['"'], r)
  | '\\' :: '"' :: r =>
    let (content, text, rest) := textBody r
    ('"' :: content, '\\' :: '"' :: text, rest)
  | '\\' :: 'n' :: r =>
    let (content, text, rest) := textBody r
    ('\n' :: content, '\\' :: 'n' :: text, rest)
  | '\\' :: 't' :: r =>
    let (content, text, rest) := textBody r
    ('\t' :: content, '\\' :: 't' :: text, rest)
  | c :: r =>
    let (content, text, rest) := textBody r
    (c :: content, c :: text, rest)

/-- A text literal, from the text behind its opening quote. -/
def textLiteral (cs : List Char) : Piece :=
  let (content, text, rest) := textBody cs
  ⟨some (.text (String.ofList content)), '"' :: text, rest⟩

/-- The character does not end a line comment. -/
def inLine (c : Char) : Bool :=
  c != '\n' && c != '\r'

/-- A comment that runs to the end of its line. -/
def lineComment (cs : List Char) : Piece :=
  ⟨none, cs.takeWhile inLine, cs.dropWhile inLine⟩

/-- A comment between braces, from the text behind the opening brace. -/
def blockComment (cs : List Char) : Except ScanFault Piece :=
  match cs.dropWhile (· != '}') with
  | [] => .error .unterminatedComment
  | c :: rest => .ok ⟨none, '{' :: cs.takeWhile (· != '}') ++ [c], rest⟩

/-- The lexemes that a space behind their spelling sets apart from longer words. -/
def spacedWords : List (String × Lexeme) :=
  Connective.all.map (fun c => (c.spelling, .connective c)) ++
    [Keyword.beginKw, Keyword.endKw].map (fun k => (k.spelling, .keyword k))

/-- The character may stand inside a word. -/
def inWord (c : Char) : Bool :=
  isAlphanumeric c || c == '_' || c == '$'

/-- The lexeme that a whole word spells. -/
def wordLexeme (w : String) : Lexeme :=
  match Keyword.ofWord? w with
  | some k => .keyword k
  | none => .word w

/-- A word: one of `spacedWords` before a space, or else the longest run of word characters. -/
def word (cs : List Char) : Piece :=
  match spacedWords.find? fun w => (w.1.toList ++ [' ']).isPrefixOf cs with
  | some w => ⟨some w.2, w.1.toList, cs.drop w.1.toList.length⟩
  | none =>
    let text := cs.takeWhile inWord
    ⟨some (wordLexeme (String.ofList text)), text, cs.dropWhile inWord⟩

/-- The longest symbol that fits, or else the one skipped character `c`. -/
def symbolOrSkipped (c : Char) (cs : List Char) : Except ScanFault Piece :=
  match Symbol.all.find? fun s => s.spelling.toList.isPrefixOf (c :: cs) with
  | some s =>
    .ok ⟨some (.symbol s), s.spelling.toList, (c :: cs).drop s.spelling.toList.length⟩
  | none =>
    if Symbol.all.any fun s => s.spelling.toList.head? == some c then
      .error (.unknownOperator (String.ofList [c]))
    else
      .ok ⟨none, [c], cs⟩

/-- The piece at the head of the text `c :: cs`. -/
def first (c : Char) (cs : List Char) : Except ScanFault Piece :=
  if c.isDigit then number (c :: cs)
  else if c = '#' then .ok (hexNumber cs)
  else if c = '"' then .ok (textLiteral cs)
  else if c = '/' ∧ cs.head? = some '/' then .ok (lineComment (c :: cs))
  else if c = '{' then blockComment cs
  else if isAlphabetic c then .ok (word (c :: cs))
  else symbolOrSkipped c cs

/-! ### A piece and the text behind it make up the text read -/

theorem number_text_append_rest {cs : List Char} {p : Piece} (h : number cs = .ok p) :
    p.text ++ p.rest = cs := by
  have hd := List.takeWhile_append_dropWhile (p := Char.isDigit) (l := cs)
  simp only [number] at h
  split at h
  · next r hr =>
    have hf := List.takeWhile_append_dropWhile (p := Char.isDigit) (l := r)
    split at h
    · cases h
    · injection h with h
      subst h
      rw [hr] at hd
      simpa [hf] using hd
  · injection h with h
    subst h
    exact hd

theorem textBody_text_append_rest (cs : List Char) :
    (textBody cs).2.1 ++ (textBody cs).2.2 = cs := by
  fun_induction textBody cs <;> simp_all

theorem blockComment_text_append_rest {cs : List Char} {p : Piece} (h : blockComment cs = .ok p) :
    p.text ++ p.rest = '{' :: cs := by
  have hd := List.takeWhile_append_dropWhile (p := (· != '}')) (l := cs)
  simp only [blockComment] at h
  split at h
  · cases h
  · next c rest hr =>
    injection h with h
    subst h
    rw [hr] at hd
    simpa using hd

theorem append_drop_of_isPrefixOf {w cs : List Char} (h : w.isPrefixOf cs = true) :
    w ++ cs.drop w.length = cs := by
  obtain ⟨t, rfl⟩ := List.isPrefixOf_iff_prefix.1 h
  simp

theorem word_text_append_rest (cs : List Char) : (word cs).text ++ (word cs).rest = cs := by
  simp only [word]
  split
  · next w hw =>
    have hp : (w.1.toList ++ [' ']).isPrefixOf cs = true := by simpa using List.find?_some hw
    obtain ⟨t, ht⟩ := List.isPrefixOf_iff_prefix.1 hp
    exact append_drop_of_isPrefixOf
      (List.isPrefixOf_iff_prefix.2 ⟨' ' :: t, by simpa using ht⟩)
  · exact List.takeWhile_append_dropWhile

theorem symbolOrSkipped_text_append_rest {c : Char} {cs : List Char} {p : Piece}
    (h : symbolOrSkipped c cs = .ok p) : p.text ++ p.rest = c :: cs := by
  simp only [symbolOrSkipped] at h
  split at h
  · next s hs =>
    injection h with h
    subst h
    have hp : s.spelling.toList.isPrefixOf (c :: cs) = true := by simpa using List.find?_some hs
    exact append_drop_of_isPrefixOf hp
  · split at h
    · cases h
    · injection h with h
      subst h
      rfl

/-- A piece and the text behind it make up the text read. -/
theorem first_text_append_rest {c : Char} {cs : List Char} {p : Piece}
    (h : first c cs = .ok p) : p.text ++ p.rest = c :: cs := by
  simp only [first] at h
  split at h
  · exact number_text_append_rest h
  split at h
  · next hc =>
    injection h with h
    subst h hc
    simp [hexNumber, List.takeWhile_append_dropWhile]
  split at h
  · next hc =>
    injection h with h
    subst h hc
    simp [textLiteral, textBody_text_append_rest]
  split at h
  · injection h with h
    subst h
    exact List.takeWhile_append_dropWhile
  split at h
  · next hc =>
    subst hc
    exact blockComment_text_append_rest h
  split at h
  · injection h with h
    subst h
    exact word_text_append_rest _
  · exact symbolOrSkipped_text_append_rest h

/-! ### A piece is never empty -/

theorem word_text_ne_nil {c : Char} (hc : isAlphabetic c = true) (cs : List Char) :
    (word (c :: cs)).text ≠ [] := by
  simp only [word]
  split
  · next w hw =>
    have hm := List.mem_of_find?_eq_some hw
    simp only [spacedWords, Connective.all, List.map_cons, List.map_nil, List.cons_append,
      List.nil_append, List.mem_cons, List.not_mem_nil, or_false] at hm
    rcases hm with rfl | rfl | rfl | rfl | rfl <;> simp [Connective.spelling, Keyword.spelling]
  · simp [inWord, isAlphanumeric_of_isAlphabetic hc]

theorem symbolOrSkipped_text_ne_nil {c : Char} {cs : List Char} {p : Piece}
    (h : symbolOrSkipped c cs = .ok p) : p.text ≠ [] := by
  simp only [symbolOrSkipped] at h
  split at h
  · next s _ =>
    injection h with h
    subst h
    cases s <;> simp [Symbol.spelling]
  · split at h
    · cases h
    · injection h with h
      subst h
      simp

/-- A piece is never empty. -/
theorem first_text_ne_nil {c : Char} {cs : List Char} {p : Piece} (h : first c cs = .ok p) :
    p.text ≠ [] := by
  simp only [first] at h
  split at h
  · next hc =>
    simp only [number, List.takeWhile_cons, hc, if_true] at h
    split at h
    · split at h
      · cases h
      · injection h with h
        subst h
        simp
    · injection h with h
      subst h
      simp
  split at h
  · injection h with h
    subst h
    simp [hexNumber]
  split at h
  · injection h with h
    subst h
    simp [textLiteral]
  split at h
  · next hc =>
    injection h with h
    subst h
    simp [lineComment, hc.1, inLine]
  split at h
  · simp only [blockComment] at h
    split at h
    · cases h
    · injection h with h
      subst h
      simp
  split at h
  · next hc =>
    injection h with h
    subst h
    exact word_text_ne_nil hc cs
  · exact symbolOrSkipped_text_ne_nil h

/-- Less text is left behind a piece than was read. -/
theorem first_rest_length_lt {c : Char} {cs : List Char} {p : Piece} (h : first c cs = .ok p) :
    p.rest.length < (c :: cs).length := by
  have hl := List.length_pos_iff.2 (first_text_ne_nil h)
  rw [← first_text_append_rest h, List.length_append]
  omega

end Piece
end BlockScript
