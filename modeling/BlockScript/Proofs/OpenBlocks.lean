import BlockScript.Proofs.Composition
import BlockScript.Prompt

/-!
# Open blocks

The prompt holds an entry back as long as it opens more blocks than it closes, wherever in the
entry it does so. The parser knows of no such count: it takes a `begin` at the start of a block and
an `end` at its end, and nowhere else.

* `Composed.blockDepth_eq`: a program closes every block that it opens.
* `Composed.lt_blockDepth`: one that cannot be read for want of an `end` has an open block.
* `compile_of_isIncomplete`: the prompt and the parser agree on what is unfinished.
-/

namespace BlockScript

@[simp] theorem blockDepth_nil : blockDepth [] = 0 := rfl

theorem blockDepth_eq_sum (ts : List Token) :
    blockDepth ts = (ts.map fun t => t.lexeme.delta).sum := by
  unfold blockDepth
  rw [← zero_add (List.sum _)]
  generalize (0 : Int) = d
  induction ts generalizing d with
  | nil => simp
  | cons t r ih =>
    rw [List.foldl_cons, ih, List.map_cons, List.sum_cons, ← add_assoc]
    congr 1
    split <;> simp_all [Lexeme.delta, sub_eq_add_neg]

theorem blockDepth_cons (t : Token) (r : List Token) :
    blockDepth (t :: r) = t.lexeme.delta + blockDepth r := by
  simp [blockDepth_eq_sum]

namespace Grammar

variable {α : Type} {d : Int} {ts : List Token}

theorem blockDepth_skipRightParen (ts : List Token) :
    blockDepth (skipRightParen ts) = blockDepth ts := by
  cases ts with
  | nil => rfl
  | cons t r =>
    by_cases h : t.lexeme = .symbol .rightParen
    · simp [skipRightParen, h, blockDepth_cons, Lexeme.delta]
    · simp [skipRightParen, h]

/-- What a reader is for tells by how much it changes the number of open blocks. -/
theorem Composed.blockDepth_eq {x : Except Stop (α × List Token)} (h : Composed d ts x)
    {p : α × List Token} (hp : x = .ok p) : blockDepth ts = d + blockDepth p.2 := by
  induction h with
  | found a ts =>
    cases hp
    rw [zero_add]
  | stuck h hend => cases hp
  | noEnd => cases hp
  | behind h hd ih => rw [blockDepth_cons, ih hp, ← add_assoc, hd]
  | map h hf ih =>
    obtain ⟨q, hq, rfl⟩ := map_eq_ok_iff.1 hp
    rw [hf, ih hq]
  | closed h ih =>
    obtain ⟨q, hq, rfl⟩ := map_eq_ok_iff.1 hp
    rw [blockDepth_skipRightParen, ih hq]
  | bind h hd hf ih ihf =>
    obtain ⟨q, hq, hp⟩ := bind_eq_ok_iff.1 hp
    rw [ih hq, zero_add, ihf q hq hp]

/-- A reader stops for want of an `end` only while a block is open that it does not close. -/
theorem Composed.lt_blockDepth {x : Except Stop (α × List Token)} (h : Composed d ts x) {s : Stop}
    (hs : x = .error s) (hfault : s.fault = .expected (.keyword .endKw)) : d < blockDepth ts := by
  induction h with
  | found a ts => cases hs
  | stuck h hend =>
    cases hs
    exact absurd hfault hend
  | noEnd => simp
  | behind h hd ih =>
    have := ih hs
    rw [blockDepth_cons]
    omega
  | map h hf ih => exact ih (map_eq_error_iff.1 hs)
  | closed h ih => exact ih (map_eq_error_iff.1 hs)
  | bind h hd hf ih ihf =>
    obtain hs | ⟨p, hp, hs⟩ := bind_eq_error_iff.1 hs
    · exact lt_of_le_of_lt hd (ih hs)
    -- what comes first closes the blocks that it opens
    · rw [h.blockDepth_eq hp, zero_add]
      exact ihf p hp hs

end Grammar

open Grammar

theorem blockDepth_of_parse {ts : List Token} {p : Stmt} (h : parse ts = .ok p) :
    blockDepth ts = 0 := by
  obtain ⟨ss, hr, rfl⟩ := parse_eq_ok_iff.1 h
  simpa using (readProgram_composed ts).blockDepth_eq (map_eq_ok_iff.2 ⟨ss, hr, rfl⟩)

theorem blockDepth_pos_of_parse_error {ts : List Token} {e : ParseError}
    (h : parse ts = .error e) (hfault : e.fault = .expected (.keyword .endKw)) :
    0 < blockDepth ts := by
  obtain ⟨s, hr, rfl⟩ := parse_eq_error_iff.1 h
  exact (readProgram_composed ts).lt_blockDepth (map_eq_error_iff.2 hr) hfault

/-- The failures of a program that goes on behind its end: a comment or a block is not closed. -/
inductive Failure.Unclosed : Failure → Prop
  | comment (line : Nat) : Unclosed (.scan ⟨.unterminatedComment, line⟩)
  | block (source : Token) : Unclosed (.parse ⟨.expected (.keyword .endKw), source⟩)

/-- **The prompt and the parser agree on what is unfinished.** An entry that is held back is no
program, and an entry that is not held back does not fail for want of the end of a comment or a
block. -/
theorem compile_of_isIncomplete (entry : String) :
    (isIncomplete entry = true → ∃ f, compile entry = .error f) ∧
      (isIncomplete entry = false → ∀ f, compile entry = .error f → ¬ f.Unclosed) := by
  unfold isIncomplete compile
  cases scan entry with
  | error e =>
    refine ⟨fun _ => ⟨_, rfl⟩, ?_⟩
    rintro hfault _ ⟨⟩ ⟨⟩
    simp at hfault
  | ok s =>
    simp only [decide_eq_true_eq, decide_eq_false_iff_not]
    cases hparse : parse s.tokens with
    | ok p =>
      have hbalanced := blockDepth_of_parse hparse
      refine ⟨fun hopen => by omega, ?_⟩
      rintro - f ⟨⟩
    | error e =>
      refine ⟨fun _ => ⟨_, rfl⟩, ?_⟩
      rintro hclosed _ ⟨⟩ ⟨⟩
      exact hclosed (blockDepth_pos_of_parse_error hparse rfl)

/-- A block that is closed before it is opened counts as closed, and the parser rejects it for
another reason. -/
theorem compile_begin_and_end_begin :
    (isIncomplete "while x do begin" = true ∧ ∃ f, compile "while x do begin" = .error f) ∧
      isIncomplete "end begin" = false ∧
        ∀ f, compile "end begin" = .error f → ¬ f.Unclosed := by
  have hopen : isIncomplete "while x do begin" = true := by decide +kernel
  have hclosed : isIncomplete "end begin" = false := by decide +kernel
  exact ⟨⟨hopen, (compile_of_isIncomplete _).1 hopen⟩, hclosed,
    (compile_of_isIncomplete _).2 hclosed⟩

end BlockScript
