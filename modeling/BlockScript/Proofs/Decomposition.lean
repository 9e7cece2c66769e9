import BlockScript.Proofs.FirstPiece

/-!
# Cutting a program into lexemes

Scanning a text is cutting it into the pieces of the lexical grammar, one behind the other, and
counting the line breaks in them.

* `Cut`: a text is cut into pieces, which have given tokens.
* `Cut.scanFrom_append`: the scanner goes through a text that is cut.
* `exists_cut`: every text is cut up to its end or to a fault.
* `Slot`, `joined`: a lexeme with the skipped text in front of it, and the text they make up.
* `Decomposition`: a program as lexemes with gaps between them; `scan_eq_ok_iff`: the tokens of a
  program are those of its decomposition.
-/

namespace BlockScript

open Piece

/-! ### Single pieces -/

theorem IsWord.ne_nil {t : List Char} (h : IsWord t) : t ≠ [] := by
  obtain ⟨c, cs, rfl, -⟩ := h
  simp

theorem Lexeme.Written.ne_nil {l : Lexeme} {t b : List Char} (h : l.Written t b) : t ≠ [] := by
  cases h with
  | number h =>
    obtain ⟨c, cs, rfl, -⟩ := h.1.exists_eq_cons
    simp
  | hex h => simp
  | text hb hlast => simp
  | openText hb => simp
  | keyword k h => exact h.1.ne_nil
  | connective c h => exact h.1.ne_nil
  | word h => exact h.1.ne_nil
  | symbol s h =>
    obtain ⟨c, cs, hs⟩ := s.exists_spelling_eq_cons
    simp [hs]

theorem Skipped.ne_nil {t b : List Char} (h : Skipped t b) : t ≠ [] := by
  cases h <;> simp

/-- A piece of the lexical grammar is what is taken first where it stands. -/
theorem Piece.Valid.exists_first {p : Piece} (h : p.Valid) :
    ∃ c cs, p.text ++ p.rest = c :: cs ∧ Piece.first c cs = .ok p := by
  have hne : p.text ≠ [] := by
    obtain ⟨l?, t, b⟩ := p
    cases l? with
    | none => exact Skipped.ne_nil h
    | some l => exact Lexeme.Written.ne_nil h
  obtain ⟨c, cs, hcons⟩ := List.exists_cons_of_ne_nil (List.append_ne_nil_of_left_ne_nil hne p.rest)
  exact ⟨c, cs, hcons, Piece.first_eq_ok_iff.2 ⟨h, hcons⟩⟩

/-- The scanner goes through one piece and takes up its token. -/
theorem Piece.Valid.scanFrom_append {p : Piece} (h : p.Valid) (line : Nat) (found : List Token) :
    scanFrom line found (p.text ++ p.rest) =
      scanFrom (line + p.text.count '\n') ((p.token? line).toList ++ found) p.rest := by
  obtain ⟨c, cs, hcons, hfirst⟩ := h.exists_first
  rw [hcons, scanFrom_cons_ok hfirst]
  rfl

theorem Lexeme.Written.scanFrom_append {l : Lexeme} {t b : List Char} (h : l.Written t b)
    (line : Nat) (found : List Token) :
    scanFrom line found (t ++ b) = scanFrom (line + t.count '\n') (⟨l, line⟩ :: found) b :=
  Piece.Valid.scanFrom_append (p := ⟨some l, t, b⟩) h line found

theorem Skipped.scanFrom_append {t b : List Char} (h : Skipped t b) (line : Nat)
    (found : List Token) :
    scanFrom line found (t ++ b) = scanFrom (line + t.count '\n') found b :=
  Piece.Valid.scanFrom_append (p := ⟨none, t, b⟩) h line found

/-! ### Cutting a text -/

/-- The text, which starts on the given line and stands in front of `behind`, is cut into lexemes
with these tokens and skipped text. -/
inductive Cut (behind : List Char) : Nat → List Char → List Token → Prop
  | nil {line : Nat} : Cut behind line [] []
  | skipped {line : Nat} {t cs : List Char} {ts : List Token} (h : Skipped t (cs ++ behind))
      (hcs : Cut behind (line + t.count '\n') cs ts) : Cut behind line (t ++ cs) ts
  | lexeme {line : Nat} {l : Lexeme} {t cs : List Char} {ts : List Token}
      (h : l.Written t (cs ++ behind)) (hcs : Cut behind (line + t.count '\n') cs ts) :
      Cut behind line (t ++ cs) (⟨l, line⟩ :: ts)

/-- The scanner goes through a text that is cut. -/
theorem Cut.scanFrom_append {behind : List Char} {line : Nat} {cs : List Char} {ts : List Token}
    (h : Cut behind line cs ts) (found : List Token) :
    scanFrom line found (cs ++ behind) =
      scanFrom (line + cs.count '\n') (ts.reverse ++ found) behind := by
  induction h generalizing found with
  | nil => simp
  | skipped h hcs ih =>
    rw [List.append_assoc, h.scanFrom_append, ih, List.count_append, Nat.add_assoc]
  | lexeme h hcs ih =>
    rw [List.append_assoc, h.scanFrom_append, ih, List.count_append, Nat.add_assoc]
    simp

/-- Every text is cut up to its end, or to a place where the scanner finds a fault. -/
theorem exists_cut (line : Nat) (cs : List Char) :
    ∃ u r ts, cs = u ++ r ∧ Cut r line u ts ∧
      ∀ c r', r = c :: r' → ∃ f, Piece.first c r' = .error f := by
  induction hk : cs.length using Nat.strong_induction_on generalizing line cs with
  | _ k ih =>
    subst hk
    cases cs with
    | nil => exact ⟨[], [], [], rfl, .nil, by simp⟩
    | cons c cs =>
      cases hp : Piece.first c cs with
      | error f =>
        refine ⟨[], c :: cs, [], rfl, .nil, fun d r' hr => ?_⟩
        obtain ⟨rfl, rfl⟩ := List.cons.inj hr
        exact ⟨f, hp⟩
      | ok p =>
        obtain ⟨hvalid, htext⟩ := Piece.first_eq_ok_iff.1 hp
        obtain ⟨u, r, ts, hrest, hcut, hstuck⟩ :=
          ih _ (first_rest_length_lt hp) (line + p.text.count '\n') p.rest rfl
        obtain ⟨l?, t, b⟩ := p
        dsimp only at hrest hcut htext
        subst hrest
        rw [← htext, ← List.append_assoc]
        cases l? with
        | none => exact ⟨t ++ u, r, ts, rfl, .skipped hvalid hcut, hstuck⟩
        | some l => exact ⟨t ++ u, r, _, rfl, .lexeme hvalid hcut, hstuck⟩

/-- A text is scanned exactly if it is cut as a whole. -/
theorem scanFrom_eq_ok_iff {line : Nat} {found : List Token} {cs : List Char} {s : Scanned} :
    scanFrom line found cs = .ok s ↔
      ∃ ts, Cut [] line cs ts ∧ s = ⟨found.reverse ++ ts, line + cs.count '\n'⟩ := by
  have hwhole : ∀ {ts : List Token}, Cut [] line cs ts →
      scanFrom line found cs = .ok ⟨found.reverse ++ ts, line + cs.count '\n'⟩ := by
    intro ts hcut
    have h := hcut.scanFrom_append found
    rw [List.append_nil] at h
    simp [h]
  constructor
  · intro h
    obtain ⟨u, r, ts, rfl, hcut, hstuck⟩ := exists_cut line cs
    cases r with
    | nil =>
      rw [List.append_nil] at hwhole h ⊢
      rw [hwhole hcut] at h
      exact ⟨ts, hcut, (Except.ok.inj h).symm⟩
    | cons c r =>
      obtain ⟨f, hf⟩ := hstuck c r rfl
      rw [hcut.scanFrom_append, scanFrom_cons_error hf] at h
      cases h
  · rintro ⟨ts, hcut, rfl⟩
    exact hwhole hcut

/-! ### Lexemes and gaps -/

/-- Skipped text in front of `behind`. -/
inductive Gap (behind : List Char) : List Char → Prop
  | nil : Gap behind []
  | cons {t g : List Char} (h : Skipped t (g ++ behind)) (hg : Gap behind g) : Gap behind (t ++ g)

theorem Gap.cut_append {behind g cs : List Char} (hg : Gap (cs ++ behind) g) {line : Nat}
    {ts : List Token} (hcs : Cut behind (line + g.count '\n') cs ts) :
    Cut behind line (g ++ cs) ts := by
  induction hg generalizing line with
  | nil => simpa using hcs
  | cons h hg ih =>
    rw [List.append_assoc]
    refine .skipped (by simpa using h) (ih ?_)
    rwa [List.count_append, ← Nat.add_assoc] at hcs

/-- A lexeme of a program and the skipped text in front of it. -/
structure Slot where
  gap : List Char
  /-- The characters of the lexeme. -/
  text : List Char
  token : Token

/-- The text of the slots, one behind the other, with `last` behind them. -/
def joined : List Slot → List Char → List Char
  | [], last => last
  | x :: xs, last => x.gap ++ x.text ++ joined xs last

/-- The slot stands right with the text `before` in front of its lexeme and `behind` behind it. -/
structure Slot.Fits (x : Slot) (before behind : List Char) : Prop where
  gap : Gap (x.text ++ behind) x.gap
  text_ne_nil : x.text ≠ []
  written : x.token.lexeme.Written x.text behind
  longest : Longest x.token.lexeme.Class x.text behind
  line_eq : x.token.line = 1 + before.count '\n'

/-- The program is made up of the slots and the skipped text `last`. -/
structure Decomposition (code : List Char) (slots : List Slot) (last : List Char) : Prop where
  joined_eq : joined slots last = code
  fits : ∀ before x after, slots = before ++ x :: after →
    x.Fits (joined before x.gap) (joined after last)
  gap_last : Gap [] last

/-- The slots stand right one behind the other, from the given line on. -/
def Aligned (line : Nat) : List Slot → List Char → Prop
  | [], last => Gap [] last
  | x :: xs, last =>
    Gap (x.text ++ joined xs last) x.gap ∧ x.token.lexeme.Written x.text (joined xs last) ∧
      x.token.line = line + x.gap.count '\n' ∧ Aligned (line + (x.gap ++ x.text).count '\n') xs last

theorem Aligned.cut {slots : List Slot} {last : List Char} {line : Nat}
    (h : Aligned line slots last) : Cut [] line (joined slots last) (slots.map Slot.token) := by
  induction slots generalizing line with
  | nil =>
    have hgap : Gap ([] ++ []) last := h
    have hend : Cut [] (line + last.count '\n') [] [] := .nil
    have hcut := hgap.cut_append hend
    rwa [List.append_nil] at hcut
  | cons x xs ih =>
    obtain ⟨hgap, hwritten, hline, hxs⟩ := h
    obtain ⟨gap, text, l, n⟩ := x
    dsimp only at hgap hwritten hline hxs
    subst hline
    show Cut [] line (gap ++ text ++ joined xs last) (⟨l, _⟩ :: xs.map Slot.token)
    rw [List.append_assoc]
    refine Gap.cut_append (by simpa using hgap) (.lexeme (by simpa using hwritten) ?_)
    rw [List.count_append, ← Nat.add_assoc] at hxs
    exact ih hxs

theorem Cut.exists_aligned {line : Nat} {cs : List Char} {ts : List Token} (h : Cut [] line cs ts) :
    ∃ slots last, joined slots last = cs ∧ slots.map Slot.token = ts ∧
      Aligned line slots last := by
  induction h with
  | nil => exact ⟨[], [], rfl, rfl, .nil⟩
  | @skipped line t cs ts h hcs ih =>
    obtain ⟨slots, last, rfl, rfl, haligned⟩ := ih
    rw [List.append_nil] at h
    -- the skipped text goes in front of the next gap
    cases slots with
    | nil => exact ⟨[], t ++ last, rfl, rfl, .cons (by simpa [joined] using h) haligned⟩
    | cons x xs =>
      obtain ⟨hgap, hwritten, hline, hxs⟩ := haligned
      refine ⟨{ x with gap := t ++ x.gap } :: xs, last, by simp [joined], rfl, ?_⟩
      refine ⟨.cons (by simpa [joined] using h) hgap, hwritten, ?_, ?_⟩
      · simp [hline, Nat.add_assoc]
      · simpa [Nat.add_assoc] using hxs
  | @lexeme line l t cs ts h hcs ih =>
    obtain ⟨slots, last, rfl, rfl, haligned⟩ := ih
    rw [List.append_nil] at h
    exact ⟨⟨[], t, ⟨l, line⟩⟩ :: slots, last, by simp [joined], rfl, .nil, h, by simp, haligned⟩

/-- What stands right one behind the other stands right everywhere. -/
theorem aligned_iff {slots : List Slot} {last : List Char} {line : Nat} :
    Aligned line slots last ↔
      (∀ before x after, slots = before ++ x :: after →
        Gap (x.text ++ joined after last) x.gap ∧
          x.token.lexeme.Written x.text (joined after last) ∧
          x.token.line = line + (joined before x.gap).count '\n') ∧ Gap [] last := by
  induction slots generalizing line with
  | nil => simp [Aligned]
  | cons y ys ih =>
    unfold Aligned
    rw [ih]
    constructor
    · rintro ⟨hgap, hwritten, hline, hys, hlast⟩
      refine ⟨fun before x after heq => ?_, hlast⟩
      cases before with
      | nil =>
        obtain ⟨rfl, rfl⟩ := List.cons.inj heq
        exact ⟨hgap, hwritten, hline⟩
      | cons z zs =>
        obtain ⟨rfl, rfl⟩ := List.cons.inj heq
        obtain ⟨hgap', hwritten', hline'⟩ := hys zs x after rfl
        refine ⟨hgap', hwritten', ?_⟩
        simp only [hline', joined, List.count_append]
        omega
    · rintro ⟨h, hlast⟩
      obtain ⟨hgap, hwritten, hline⟩ := h [] y ys rfl
      refine ⟨hgap, hwritten, hline, fun before x after heq => ?_, hlast⟩
      obtain ⟨hgap', hwritten', hline'⟩ := h (y :: before) x after (by rw [heq]; rfl)
      refine ⟨hgap', hwritten', ?_⟩
      simp only [joined, List.count_append] at hline' ⊢
      omega

theorem decomposition_iff {code : List Char} {slots : List Slot} {last : List Char} :
    Decomposition code slots last ↔ joined slots last = code ∧ Aligned 1 slots last := by
  rw [aligned_iff]
  constructor
  · intro h
    refine ⟨h.joined_eq, fun before x after heq => ?_, h.gap_last⟩
    have hfits := h.fits before x after heq
    exact ⟨hfits.gap, hfits.written, hfits.line_eq⟩
  · rintro ⟨hjoined, hfits, hlast⟩
    refine ⟨hjoined, fun before x after heq => ?_, hlast⟩
    obtain ⟨hgap, hwritten, hline⟩ := hfits before x after heq
    exact ⟨hgap, hwritten.ne_nil, hwritten, hwritten.longest, hline⟩

/-- **The tokens of a program** are those of the lexemes that it is made up of, each on the line
that the line breaks in front of it give, and its number of lines counts all its line breaks. -/
theorem scan_eq_ok_iff {code : String} {s : Scanned} :
    scan code = .ok s ↔
      (∃ slots last, Decomposition code.toList slots last ∧ slots.map Slot.token = s.tokens) ∧
        s.lines = 1 + code.toList.count '\n' := by
  unfold scan
  rw [scanFrom_eq_ok_iff]
  constructor
  · rintro ⟨ts, hcut, rfl⟩
    obtain ⟨slots, last, hjoined, htokens, haligned⟩ := hcut.exists_aligned
    exact ⟨⟨slots, last, decomposition_iff.2 ⟨hjoined, haligned⟩, by simpa using htokens⟩, rfl⟩
  · rintro ⟨⟨slots, last, hdecomposition, htokens⟩, hlines⟩
    obtain ⟨hjoined, haligned⟩ := decomposition_iff.1 hdecomposition
    refine ⟨s.tokens, ?_, ?_⟩
    · rw [← hjoined, ← htokens]
      exact haligned.cut
    · rw [← hlines]
      rfl

end BlockScript
