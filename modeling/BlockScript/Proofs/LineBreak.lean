import BlockScript.Source.Scan
import Mathlib.Data.List.Find
import Mathlib.Data.List.TakeWhile
import Mathlib.Tactic

/-!
# Scanning at line breaks

No piece reaches over a line break, apart from an open text literal and an open comment. So a text
in front of a line break is cut into pieces as it is alone, and the text behind it as it is alone,
on later lines.

* `Piece.body_induction`: the body of a text literal, character by character.
* `Piece.first_append_newline`: the first piece is the same with a line break behind the text.
* `EndsInText`: the text ends inside a text literal that is not closed.
* `scanFrom_later`: how the tokens of a text depend on the line it starts on.
* `scan_append_newline`: the tokens of two texts with a line break between them.
* `not_endsInText_iff`: a line break behind a text leaves its tokens alone exactly if the text does
  not end inside a literal.
-/

namespace BlockScript

namespace Piece

/-! ### Text literals -/

/-- The character that a backslash and the given one stand for in a text literal. -/
def escape? : Char → Option Char
  | '"' => some '"'
  | 'n' => some '\n'
  | 't' => some '\t'
  | _ => none

/-- The character `c`, before `r`, is a backslash that changes the meaning of the next one. -/
def IsEscape (c : Char) (r : List Char) : Prop :=
  c = '\\' ∧ ∃ d ∈ r.head?, (escape? d).isSome

/-- The text literal whose body starts the text is closed in it. -/
def closes : List Char → Bool
  | [] => false
  | '"' :: _ => true
  | '\\' :: '"' :: r => closes r
  | _ :: r => closes r

theorem textBody_escape {d x : Char} (h : escape? d = some x) (r : List Char) :
    textBody ('\\' :: d :: r) =
      (x :: (textBody r).1, '\\' :: d :: (textBody r).2.1, (textBody r).2.2) := by
  unfold escape? at h
  split at h <;> cases h <;> rfl

theorem textBody_cons {c : Char} {r : List Char} (hc : c ≠ '"') (hesc : ¬ IsEscape c r) :
    textBody (c :: r) = (c :: (textBody r).1, c :: (textBody r).2.1, (textBody r).2.2) := by
  rw [textBody]
  · exact hc
  all_goals
    rintro r' rfl rfl
    exact hesc ⟨rfl, by simp [escape?]⟩

theorem closes_escape {d x : Char} (h : escape? d = some x) (r : List Char) :
    closes ('\\' :: d :: r) = closes r := by
  unfold escape? at h
  split at h <;> cases h <;> simp [closes]

theorem closes_cons {c : Char} {r : List Char} (hc : c ≠ '"') (hesc : ¬ IsEscape c r) :
    closes (c :: r) = closes r := by
  rw [closes]
  · exact hc
  · rintro r' rfl rfl
    exact hesc ⟨rfl, by simp [escape?]⟩

/-- The body of a text literal starts with its closing quote, an escape or any other
character. -/
theorem body_induction {P : List Char → Prop} (nil : P []) (quote : ∀ r, P ('"' :: r))
    (escape : ∀ d x r, escape? d = some x → P r → P ('\\' :: d :: r))
    (other : ∀ c r, c ≠ '"' → ¬ IsEscape c r → P r → P (c :: r)) : ∀ cs, P cs := by
  intro cs
  induction hk : cs.length using Nat.strong_induction_on generalizing cs with
  | _ k ih =>
    subst hk
    cases cs with
    | nil => exact nil
    | cons c r =>
      by_cases hc : c = '"'
      · exact hc ▸ quote r
      by_cases hesc : IsEscape c r
      · obtain ⟨rfl, d, hd, hx⟩ := hesc
        obtain ⟨x, hx⟩ := Option.isSome_iff_exists.1 hx
        cases r with
        | nil => simp at hd
        | cons d' r' =>
          obtain rfl : d' = d := by simpa using hd
          exact escape d' x r' hx (ih r'.length (by simp) r' rfl)
      · exact other c r hc hesc (ih r.length (by simp) r rfl)

/-- What stands behind a closed literal is not part of it. -/
theorem textBody_append_of_closes {cs : List Char} (h : closes cs = true) (b : List Char) :
    textBody (cs ++ b) = ((textBody cs).1, (textBody cs).2.1, (textBody cs).2.2 ++ b) := by
  induction cs using body_induction with
  | nil => simp [closes] at h
  | quote r => simp [textBody]
  | escape d x r hx ih =>
    rw [closes_escape hx] at h
    simp [textBody_escape hx, ih h]
  | other c r hc hesc ih =>
    rw [closes_cons hc hesc] at h
    have hr : ¬ IsEscape c (r ++ b) := by
      cases r with
      | nil => simp [closes] at h
      | cons d r => exact hesc
    simp [textBody_cons hc hesc, textBody_cons hc hr, ih h]

/-- A literal that is not closed takes all of the text, a line break behind it included. -/
theorem textBody_append_of_not_closes {cs : List Char} (h : closes cs = false) :
    (textBody cs).2.2 = [] ∧
      textBody (cs ++ ['\n']) = ((textBody cs).1 ++ ['\n'], (textBody cs).2.1 ++ ['\n'], []) := by
  induction cs using body_induction with
  | nil => simp [textBody]
  | quote r => simp [closes] at h
  | escape d x r hx ih =>
    rw [closes_escape hx] at h
    simp [textBody_escape hx, ih h]
  | other c r hc hesc ih =>
    rw [closes_cons hc hesc] at h
    have hr : ¬ IsEscape c (r ++ ['\n']) := by
      cases r with
      | nil => rintro ⟨-, d, hd, hx⟩; simp at hd; subst hd; simp [escape?] at hx
      | cons d r => exact hesc
    simp [textBody_cons hc hesc, textBody_cons hc hr, ih h]

/-! ### Pieces with a line break behind the text -/

/-- The piece with more text behind it. -/
def extend (b : List Char) (p : Piece) : Piece :=
  { p with rest := p.rest ++ b }

section Newline

variable (cs b : List Char)

theorem takeWhile_append_newline {q : Char → Bool} (hq : q '\n' = false) :
    (cs ++ '\n' :: b).takeWhile q = cs.takeWhile q := by
  induction cs with
  | nil => simp [hq]
  | cons c cs ih => by_cases hc : q c = true <;> simp [hc, ih]

theorem dropWhile_append_newline {q : Char → Bool} (hq : q '\n' = false) :
    (cs ++ '\n' :: b).dropWhile q = cs.dropWhile q ++ '\n' :: b := by
  induction cs with
  | nil => simp [hq]
  | cons c cs ih => by_cases hc : q c = true <;> simp [hc, ih]

/-- What contains no line break is not found across one. -/
theorem isPrefixOf_append_newline {w : List Char} (hw : '\n' ∉ w) :
    w.isPrefixOf (cs ++ '\n' :: b) = w.isPrefixOf cs := by
  induction w generalizing cs with
  | nil => simp
  | cons d w ih =>
    simp only [List.mem_cons, not_or] at hw
    cases cs with
    | nil => simp [List.isPrefixOf, Ne.symm hw.1]
    | cons c cs => simp [List.isPrefixOf, ih cs hw.2]

/-- A line break is no point, so it neither continues a number nor spoils it. -/
theorem number_append_newline :
    number (cs ++ '\n' :: b) = (number cs).map (extend ('\n' :: b)) := by
  have hd : Char.isDigit '\n' = false := by decide
  unfold number
  simp only [takeWhile_append_newline _ _ hd, dropWhile_append_newline _ _ hd]
  generalize cs.takeWhile Char.isDigit = whole
  generalize cs.dropWhile Char.isDigit = ds
  cases ds with
  | nil => rfl
  | cons d r =>
    by_cases hdot : d = '.'
    · subst hdot
      simp only [List.cons_append, takeWhile_append_newline _ _ hd, dropWhile_append_newline _ _ hd]
      generalize r.dropWhile Char.isDigit = es
      cases es with
      | nil => rfl
      | cons e r' =>
        by_cases he : e = '.'
        · subst he
          rfl
        · simp [he, Except.map, extend]
    · simp [hdot, Except.map, extend]

theorem hexNumber_append_newline :
    hexNumber (cs ++ '\n' :: b) = extend ('\n' :: b) (hexNumber cs) := by
  have hd : isHexDigit '\n' = false := by decide
  simp [hexNumber, takeWhile_append_newline _ _ hd, dropWhile_append_newline _ _ hd, extend]

theorem lineComment_append_newline :
    lineComment (cs ++ '\n' :: b) = extend ('\n' :: b) (lineComment cs) := by
  have hl : inLine '\n' = false := by decide
  simp [lineComment, takeWhile_append_newline _ _ hl, dropWhile_append_newline _ _ hl, extend]

/-- What stands behind a closed comment is not part of it. -/
theorem blockComment_append (hcs : '}' ∈ cs) :
    blockComment (cs ++ b) = (blockComment cs).map (extend b) := by
  obtain ⟨u, v, rfl, hu⟩ := List.eq_append_cons_of_mem hcs
  have hne : ∀ c ∈ u, (c != '}') = true := by
    rintro c hc
    simp only [bne_iff_ne, ne_eq]
    rintro rfl
    exact hu hc
  simp [blockComment, List.takeWhile_append_of_pos hne, List.dropWhile_append_of_pos hne,
    Except.map, extend]

theorem inWord_newline : inWord '\n' = false := by
  decide +kernel

/-- A line break is no space, so it makes no connective of the word in front of it. -/
theorem word_append_newline : word (cs ++ '\n' :: b) = extend ('\n' :: b) (word cs) := by
  have hw : ∀ w ∈ spacedWords, '\n' ∉ w.1.toList ++ [' '] := by decide
  have hfind : (spacedWords.find? fun w => (w.1.toList ++ [' ']).isPrefixOf (cs ++ '\n' :: b)) =
      spacedWords.find? fun w => (w.1.toList ++ [' ']).isPrefixOf cs :=
    List.find?_congr fun w hmem => isPrefixOf_append_newline cs b (hw w hmem)
  unfold word
  rw [hfind]
  split
  · next w hsome =>
    have hp : (w.1.toList ++ [' ']).isPrefixOf cs = true := by simpa using List.find?_some hsome
    have hlen := (List.isPrefixOf_iff_prefix.1 hp).length_le
    rw [List.length_append] at hlen
    rw [List.drop_append_of_le_length (by omega)]
    rfl
  · simp [takeWhile_append_newline _ _ inWord_newline, dropWhile_append_newline _ _ inWord_newline,
      extend]

theorem symbolOrSkipped_append_newline (c : Char) :
    symbolOrSkipped c (cs ++ '\n' :: b) =
      (symbolOrSkipped c cs).map (extend ('\n' :: b)) := by
  have hs : ∀ s ∈ Symbol.all, '\n' ∉ s.spelling.toList := by decide
  have hfind : (Symbol.all.find? fun s => s.spelling.toList.isPrefixOf (c :: cs ++ '\n' :: b)) =
      Symbol.all.find? fun s => s.spelling.toList.isPrefixOf (c :: cs) :=
    List.find?_congr fun s hmem => isPrefixOf_append_newline (c :: cs) b (hs s hmem)
  unfold symbolOrSkipped
  rw [← List.cons_append, hfind]
  split
  · next s hsome =>
    have hp : s.spelling.toList.isPrefixOf (c :: cs) = true := by simpa using List.find?_some hsome
    have hlen := (List.isPrefixOf_iff_prefix.1 hp).length_le
    rw [List.drop_append_of_le_length hlen]
    rfl
  · split <;> rfl

/-- The first piece of a text with a line break behind it, unless it is a literal or a comment that
is not closed. -/
theorem first_append_newline {c : Char} (htext : c = '"' → closes cs = true)
    (hcomment : c = '{' → '}' ∈ cs) :
    first c (cs ++ '\n' :: b) = (first c cs).map (extend ('\n' :: b)) := by
  have hhead : (c = '/' ∧ (cs ++ '\n' :: b).head? = some '/') ↔
      (c = '/' ∧ cs.head? = some '/') := by
    cases cs <;> simp
  -- no test that chooses the kind of piece sees the line break
  unfold first
  simp only [hhead]
  split
  · exact number_append_newline (c :: cs) b
  split
  · rw [hexNumber_append_newline]
    rfl
  split
  · next hc =>
    simp [textLiteral, textBody_append_of_closes (htext hc), Except.map, extend]
  split
  · rw [← List.cons_append, lineComment_append_newline]
    rfl
  split
  · next hc => exact blockComment_append cs _ (hcomment hc)
  split
  · rw [← List.cons_append, word_append_newline]
    rfl
  · exact symbolOrSkipped_append_newline cs b c

end Newline

/-- A comment that is never closed is a fault. -/
theorem first_brace_of_not_mem {cs : List Char} (h : '}' ∉ cs) :
    first '{' cs = .error .unterminatedComment := by
  have hall : cs.dropWhile (· != '}') = [] := by
    rw [List.dropWhile_eq_nil_iff]
    intro c hc
    simp only [bne_iff_ne, ne_eq]
    rintro rfl
    exact h hc
  show blockComment cs = _
  simp [blockComment, hall]

/-- A comment that makes a piece is closed. -/
theorem mem_of_first_ok {cs : List Char} {p : Piece} (h : first '{' cs = .ok p) : '}' ∈ cs := by
  by_contra hmem
  rw [first_brace_of_not_mem hmem] at h
  cases h

/-- Behind a literal that is not closed there is no text. -/
theorem closes_of_first_ok {cs : List Char} {p : Piece} (h : first '"' cs = .ok p)
    (hrest : p.rest ≠ []) : closes cs = true := by
  by_contra hcl
  simp only [Bool.not_eq_true] at hcl
  have hp : p = textLiteral cs := by
    have ht : first '"' cs = .ok (textLiteral cs) := rfl
    rw [ht] at h
    cases h
    rfl
  exact hrest (hp ▸ (textBody_append_of_not_closes hcl).1)

theorem isAlphabetic_newline : Character.isAlphabetic '\n' = false := by
  decide +kernel

/-- A line break is skipped. -/
theorem first_newline (cs : List Char) : first '\n' cs = .ok ⟨none, ['\n'], cs⟩ := by
  have hs : symbolOrSkipped '\n' cs = .ok ⟨none, ['\n'], cs⟩ := rfl
  simp [first, isAlphabetic_newline, hs]

end Piece

/-! ### Cutting a text at a line break -/

/-- The text ends inside a text literal that is not closed. -/
inductive EndsInText : List Char → Prop
  | here {cs : List Char} (h : Piece.closes cs = false) : EndsInText ('"' :: cs)
  | behind {c : Char} {cs : List Char} {p : Piece} (h : Piece.first c cs = .ok p)
      (hrest : EndsInText p.rest) : EndsInText (c :: cs)

theorem not_endsInText_nil : ¬ EndsInText [] := by
  rintro (_ | _)

/-- The token on a later line. -/
def Token.later (d : Nat) (t : Token) : Token :=
  { t with line := t.line + d }

@[simp] theorem Token.later_lexeme (d : Nat) (t : Token) : (t.later d).lexeme = t.lexeme := rfl

/-- What is found in a text that starts `d` lines later, behind the tokens `found`. -/
def scannedLater (d : Nat) (found : List Token) :
    Except ScanError Scanned → Except ScanError Scanned
  | .error e => .error ⟨e.fault, e.line + d⟩
  | .ok s => .ok ⟨found ++ s.tokens.map (Token.later d), s.lines + d⟩

/-- The line a text starts on is added to all lines in it. -/
theorem scanFrom_later (line d : Nat) (found before : List Token) (cs : List Char) :
    scanFrom (line + d) (found.map (Token.later d) ++ before.reverse) cs =
      scannedLater d before (scanFrom line found cs) := by
  induction hk : cs.length using Nat.strong_induction_on generalizing line found cs with
  | _ k ih =>
    subst hk
    cases cs with
    | nil => simp [scannedLater]
    | cons c cs =>
      cases hp : Piece.first c cs with
      | error f => rw [scanFrom_cons_error hp, scanFrom_cons_error hp]; rfl
      | ok p =>
        have hline : p.lineAfter (line + d) = p.lineAfter line + d := by
          unfold Piece.lineAfter
          omega
        have hfound :
            (p.token? (line + d)).toList ++ (found.map (Token.later d) ++ before.reverse) =
            ((p.token? line).toList ++ found).map (Token.later d) ++ before.reverse := by
          unfold Piece.token?
          cases p.lexeme? <;> simp [Token.later]
        rw [scanFrom_cons_ok hp, scanFrom_cons_ok hp, hline, hfound]
        exact ih _ (Piece.first_rest_length_lt hp) _ _ _ rfl

/-- Up to a line break a text is cut as if it ended there. -/
theorem scanFrom_append_newline {line : Nat} {found : List Token} {cs : List Char} {s : Scanned}
    (h : scanFrom line found cs = .ok s) (hopen : ¬ EndsInText cs) (b : List Char) :
    scanFrom line found (cs ++ '\n' :: b) = scanFrom s.lines s.tokens.reverse ('\n' :: b) := by
  induction hk : cs.length using Nat.strong_induction_on generalizing line found cs with
  | _ k ih =>
    subst hk
    cases cs with
    | nil =>
      rw [scanFrom_nil] at h
      cases h
      simp
    | cons c cs =>
      cases hp : Piece.first c cs with
      | error f => simp [scanFrom_cons_error hp] at h
      | ok p =>
        rw [scanFrom_cons_ok hp] at h
        have htext : c = '"' → Piece.closes cs = true := by
          rintro rfl
          by_contra hcl
          exact hopen (.here (by simpa using hcl))
        have hp' := Piece.first_append_newline cs b htext fun hc => Piece.mem_of_first_ok (hc ▸ hp)
        rw [hp] at hp'
        rw [List.cons_append, scanFrom_cons_ok hp']
        exact ih _ (Piece.first_rest_length_lt hp) h (fun hr => hopen (.behind hp hr)) rfl

/-- **The tokens of two texts with a line break between them** are those of the first and those of
the second, on later lines. -/
theorem scan_append_newline {a : String} {s : Scanned} (h : scan a = .ok s)
    (hopen : ¬ EndsInText a.toList) (b : String) :
    scan (a ++ "\n" ++ b) = scannedLater s.lines s.tokens (scan b) := by
  have hlist : (a ++ "\n" ++ b).toList = a.toList ++ '\n' :: b.toList := by simp
  have hlater := scanFrom_later 1 s.lines [] s.tokens b.toList
  unfold scan at h ⊢
  rw [hlist, scanFrom_append_newline h hopen, scanFrom_cons_ok (Piece.first_newline _)]
  simpa [Piece.lineAfter, Piece.token?, Nat.add_comm] using hlater

/-- A literal that is not closed takes a line break behind the text. -/
theorem scanFrom_newline_of_endsInText {cs : List Char} (hopen : EndsInText cs) {line : Nat}
    {found : List Token} {s : Scanned} (h : scanFrom line found cs = .ok s) :
    ∃ s', scanFrom line found (cs ++ ['\n']) = .ok s' ∧ s'.tokens ≠ s.tokens := by
  induction hopen generalizing line found with
  | @here cs hcl =>
    obtain ⟨hrest, hbody⟩ := Piece.textBody_append_of_not_closes hcl
    have hf : ∀ r, Piece.first '"' r = .ok (Piece.textLiteral r) := fun _ => rfl
    rw [scanFrom_cons_ok (hf cs)] at h
    simp only [Piece.textLiteral, hrest, scanFrom_nil, Except.ok.injEq] at h
    rw [List.cons_append, scanFrom_cons_ok (hf _)]
    simp only [Piece.textLiteral, hbody, scanFrom_nil, Except.ok.injEq, exists_eq_left']
    subst h
    simp [Piece.token?]
  | @behind c cs p hp hrest ih =>
    have hne : p.rest ≠ [] := by
      intro hnil
      rw [hnil] at hrest
      exact not_endsInText_nil hrest
    have hp' := Piece.first_append_newline cs []
      (fun hc => Piece.closes_of_first_ok (hc ▸ hp) hne) fun hc => Piece.mem_of_first_ok (hc ▸ hp)
    rw [hp] at hp'
    rw [scanFrom_cons_ok hp] at h
    rw [List.cons_append, scanFrom_cons_ok hp']
    exact ih h

/-- A line break behind a text leaves its tokens alone exactly if the text does not end inside a
text literal. -/
theorem not_endsInText_iff {a : String} {s : Scanned} (h : scan a = .ok s) :
    ¬ EndsInText a.toList ↔ (scan (a ++ "\n")).map Scanned.tokens = .ok s.tokens := by
  have hlist : (a ++ "\n").toList = a.toList ++ ['\n'] := by simp
  unfold scan at h ⊢
  rw [hlist]
  constructor
  · intro hopen
    rw [scanFrom_append_newline h hopen, scanFrom_cons_ok (Piece.first_newline _)]
    simp [Piece.token?, Except.map]
  · intro htokens hopen
    obtain ⟨s', hs', hne⟩ := scanFrom_newline_of_endsInText hopen h
    rw [hs'] at htokens
    exact hne (by simpa [Except.map] using htokens)

end BlockScript
