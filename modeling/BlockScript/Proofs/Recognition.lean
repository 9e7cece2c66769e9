import BlockScript.Proofs.Derivation
import Mathlib.Tactic

/-!
# The readers read the grammar

What a reader finds is derived from the tokens it took, with the first token it left coming next,
and what is derived is found.

* `readRank_sound`, `readStatement_sound`, …: a finding is derived.
* `DerivesExpr.reads`, `DerivesStmt.reads`: what is derived is found.
* `readProgram_eq_ok_iff`: a program is read exactly if its lexemes are one.
* `parse_eq_ok_iff_isProgram`: the parser accepts the programs, each with its tree.
-/

namespace BlockScript.Grammar

/-- The tokens of `ts` in front of `rest` make up the expression `e`. -/
def CoversExpr (c : ExprClass) (ts : List Token) (e : Expr) (rest : List Token) : Prop :=
  ∃ us, ts = us ++ rest ∧ DerivesExpr c (us.map Token.lexeme) e (nextLexeme rest)

/-- The tokens of `ts` in front of `rest` make up the statement `s`. -/
def CoversStmt (c : StmtClass) (ts : List Token) (s : Stmt) (rest : List Token) : Prop :=
  ∃ us, ts = us ++ rest ∧ DerivesStmt c (us.map Token.lexeme) s (nextLexeme rest)

/-! ### A finding is derived -/

theorem hexPayload?_empty : hexPayload? "" = none := by
  rfl

/-- A single lexeme that says something as an expression is a primary. -/
theorem atom_sound {l : Lexeme} {e : Expr} (h : atom l = .ok e) (next : Option Lexeme) :
    DerivesExpr .primary [l] e next := by
  unfold atom at h
  split at h
  · next ds =>
    cases hx : numberPayload? ds with
    | none => simp [hx] at h
    | some x =>
      obtain rfl : Expr.literal (.number x) = e := by simpa [hx] using h
      exact .number hx
  · next ds =>
    cases hx : hexPayload? ds with
    | none => simp [hx] at h
    | some x =>
      obtain rfl : Expr.literal (.number x) = e := by simpa [hx] using h
      refine .hex ?_ hx
      rintro rfl
      simp [hexPayload?_empty] at hx
  · cases h
    exact .word
  · cases h
    exact .text
  · cases h

theorem continues_nextLexeme_iff {n : Nat} {ts : List Token} :
    Continues n (nextLexeme ts) ↔ ∃ t r f, ts = t :: r ∧ binary? n t.lexeme = some f := by
  constructor
  · rintro ⟨l, f, hl, hop⟩
    cases ts with
    | nil => simp at hl
    | cons t r =>
      cases hl
      exact ⟨t, r, f, rfl, binary?_eq_some_iff.2 hop⟩
  · rintro ⟨t, r, f, rfl, hf⟩
    exact ⟨t.lexeme, f, rfl, binary?_eq_some_iff.1 hf⟩

theorem plain_readChain_of_not_continues {n : Nat} {ts : List Token}
    (h : ¬ Continues (n + 1) (nextLexeme ts)) (x : Expr) :
    plain (readChain n x ts) = .ok (x, ts) := by
  refine plain_readChain_stop (fun t r hts => ?_) x
  by_contra hb
  obtain ⟨f, hf⟩ := Option.ne_none_iff_exists'.1 hb
  exact h (continues_nextLexeme_iff.2 ⟨t, r, f, hts, hf⟩)

/-- At the rank of equality a chain is a single expression. -/
theorem DerivesExpr.rank_of_chain {n : Nat} {u : List Lexeme} {e : Expr} {next : Option Lexeme}
    (hn : n + 1 = equalityRank) (h : DerivesExpr (.chain n) u e next) :
    DerivesExpr (.rank n) u e next := by
  cases h with
  | first h => exact h
  | further hne => exact absurd hn hne

/-- The lexemes in front of a missing or present closing parenthesis make up a primary. -/
theorem CoversExpr.paren {t : Token} {r rest : List Token} {e : Expr}
    (ht : t.lexeme = .symbol .leftParen) (h : CoversExpr (.rank topRank) r e rest) :
    CoversExpr .primary (t :: r) e (skipRightParen rest) := by
  obtain ⟨us, rfl, hd⟩ := h
  cases rest with
  | nil => exact ⟨t :: us, rfl, by simpa [ht, skipRightParen] using hd.unclosed (by simp)⟩
  | cons t' r' =>
    by_cases hr : t'.lexeme = .symbol .rightParen
    · rw [nextLexeme_cons, hr] at hd
      refine ⟨t :: us ++ [t'], by simp [skipRightParen, hr], ?_⟩
      simpa [ht, hr] using hd.closed
    · refine ⟨t :: us, by simp [skipRightParen, hr], ?_⟩
      simpa [ht, skipRightParen, hr] using hd.unclosed (by simpa using hr)

/-- What is read as a primary is derived. -/
def PrimarySound (ts : List Token) : Prop :=
  ∀ e rest, plain (readPrimary ts) = .ok (e, rest) → CoversExpr .primary ts e rest

/-- What is read as an expression of rank `n` is derived. -/
def RankSound (n : Nat) (ts : List Token) : Prop :=
  ∀ e rest, plain (readRank n ts) = .ok (e, rest) → CoversExpr (.rank n) ts e rest

/-- What is read behind a derived chain makes up an expression together with it. -/
def ChainSound (n : Nat) (x : Expr) (ts : List Token) : Prop :=
  ∀ u e rest, DerivesExpr (.chain n) u x (nextLexeme ts) →
    plain (readChain n x ts) = .ok (e, rest) →
      ∃ us, ts = us ++ rest ∧
        DerivesExpr (.rank (n + 1)) (u ++ us.map Token.lexeme) e (nextLexeme rest)

theorem primarySound_step {ts : List Token} (ih : ∀ r, r.length < ts.length → RankSound topRank r) :
    PrimarySound ts := by
  intro e rest h
  cases ts with
  | nil => simp [plain_readPrimary_nil] at h
  | cons t r =>
    by_cases ht : t.lexeme = .symbol .leftParen
    · rw [plain_readPrimary_paren ht, map_eq_ok_iff] at h
      obtain ⟨⟨e', rest'⟩, hr, he⟩ := h
      cases he
      exact (ih r (by simp) _ _ hr).paren ht
    · rw [plain_readPrimary_atom ht] at h
      cases ha : atom t.lexeme with
      | error f => simp [ha] at h
      | ok e' =>
        obtain ⟨rfl, rfl⟩ : e' = e ∧ r = rest := by simpa [ha] using h
        exact ⟨[t], rfl, atom_sound ha _⟩

theorem rankSound_zero_step {ts : List Token} (ih : PrimarySound ts)
    (ih' : ∀ r, r.length < ts.length → PrimarySound r) : RankSound 0 ts := by
  intro e rest h
  by_cases hsign : ∀ t r, ts = t :: r → sign? t.lexeme = none
  · rw [plain_readRank_zero_primary hsign] at h
    obtain ⟨us, hus, hd⟩ := ih _ _ h
    exact ⟨us, hus, .bare hd⟩
  · push Not at hsign
    obtain ⟨t, r, rfl, hs⟩ := hsign
    obtain ⟨s, hs⟩ := Option.ne_none_iff_exists'.1 hs
    rw [plain_readRank_zero_signed hs, map_eq_ok_iff] at h
    obtain ⟨⟨e', rest'⟩, hr, he⟩ := h
    cases he
    obtain ⟨us, rfl, hd⟩ := ih' r (by simp) _ _ hr
    refine ⟨t :: us, rfl, ?_⟩
    rw [List.map_cons, sign?_eq_some_iff.1 hs]
    exact hd.signed s

theorem rankSound_succ_step {n : Nat} {ts : List Token} (ihr : RankSound n ts)
    (ihc : ∀ x r, r.length < ts.length → ChainSound n x r) : RankSound (n + 1) ts := by
  intro e rest h
  rw [plain_readRank_succ, bind_eq_ok_iff] at h
  obtain ⟨⟨x, r⟩, hx, hc⟩ := h
  obtain ⟨us, hus, hd⟩ := ihr x r hx
  obtain ⟨vs, rfl, he⟩ := ihc x r (length_lt_of_plain_eq_ok hx) _ _ _ (.first hd) hc
  exact ⟨us ++ vs, by rw [hus, List.append_assoc], by simpa using he⟩

theorem chainSound_step {n : Nat} {x : Expr} {ts : List Token}
    (ihr : ∀ r, r.length < ts.length → RankSound n r)
    (ihc : ∀ y r, r.length < ts.length → ChainSound n y r) : ChainSound n x ts := by
  intro u e rest hu h
  by_cases hc : Continues (n + 1) (nextLexeme ts)
  -- a chain takes every operator of its rank, an equality takes one
  · obtain ⟨t, r, f, rfl, hf⟩ := continues_nextLexeme_iff.1 hc
    have hop := binary?_eq_some_iff.1 hf
    by_cases hn : n + 1 = equalityRank
    · rw [plain_readChain_equality hn hf, map_eq_ok_iff] at h
      obtain ⟨⟨y, rest'⟩, hy, he⟩ := h
      cases he
      obtain ⟨vs, rfl, hd⟩ := ihr r (by simp) _ _ hy
      exact ⟨t :: vs, rfl, .equality hn (hu.rank_of_chain hn) hop hd⟩
    · rw [plain_readChain_further hn hf, bind_eq_ok_iff] at h
      obtain ⟨⟨y, r'⟩, hy, he⟩ := h
      have hlt := length_lt_of_plain_eq_ok hy
      obtain ⟨vs, rfl, hd⟩ := ihr r (by simp) _ _ hy
      obtain ⟨ws, rfl, hw⟩ :=
        ihc (f x y) r' (Nat.lt_succ_of_lt hlt) _ _ _ (.further hn hu hop hd) he
      exact ⟨t :: vs ++ ws, by simp, by simpa using hw⟩
  · rw [plain_readChain_of_not_continues hc] at h
    cases h
    exact ⟨[], rfl, by simpa using hu.whole hc⟩

theorem exprReaders_sound :
    (∀ ts, PrimarySound ts) ∧ (∀ n ts, RankSound n ts) ∧ ∀ n x ts, ChainSound n x ts :=
  exprReader_induction (fun _ => primarySound_step) (fun _ => rankSound_zero_step)
    (fun _ _ => rankSound_succ_step) (fun _ _ _ => chainSound_step)

/-- What is read as an expression of rank `n` is derived from the tokens taken. -/
theorem readRank_sound {n : Nat} {ts rest : List Token} {e : Expr}
    (h : plain (readRank n ts) = .ok (e, rest)) : CoversExpr (.rank n) ts e rest :=
  exprReaders_sound.2.1 n ts e rest h

theorem readCondition_sound {k : Keyword} {ts rest : List Token} {c : Expr}
    (h : plain (readCondition k ts) = .ok (c, rest)) :
    ∃ us t, ts = us ++ t :: rest ∧ t.lexeme = .keyword k ∧
      DerivesExpr (.rank topRank) (us.map Token.lexeme) c (some (.keyword k)) := by
  rw [plain_readCondition, bind_eq_ok_iff] at h
  obtain ⟨⟨c', r⟩, hc, hk⟩ := h
  obtain ⟨⟨u, r'⟩, hu, he⟩ := map_eq_ok_iff.1 hk
  cases he
  obtain ⟨t, rfl, ht⟩ := plain_take_eq_ok_iff.1 hu
  obtain ⟨us, rfl, hd⟩ := readRank_sound hc
  exact ⟨us, t, rfl, ht, by simpa [ht] using hd⟩

/-- What is read as a statement is derived. -/
def StatementSound (ts : List Token) : Prop :=
  ∀ s rest, plain (readStatement ts) = .ok (s, rest) → CoversStmt .statement ts s rest

/-- What is read as a branch is derived. -/
def BranchSound (ts : List Token) : Prop :=
  ∀ s rest, plain (readBranch ts) = .ok (s, rest) → CoversStmt .branch ts s rest

/-- What is read as the inside of a block is derived, and an `end` stands behind it. -/
def BlockSound (ts : List Token) : Prop :=
  ∀ ss rest, plain (readBlock ts) = .ok (ss, rest) →
    ∃ us t, ts = us ++ t :: rest ∧ t.lexeme = .keyword .endKw ∧
      DerivesStmt .sequence (us.map Token.lexeme) (.block ss) (some (.keyword .endKw))

section Statement

variable {t : Token} {r rest : List Token} {s : Stmt}

theorem readStatement_if_sound (ht : t.lexeme = .keyword .ifKw)
    (ih : ∀ r', r'.length < (t :: r).length → BranchSound r')
    (h : plain (readStatement (t :: r)) = .ok (s, rest)) :
    CoversStmt .statement (t :: r) s rest := by
  rw [plain_readStatement_if ht, bind_eq_ok_iff] at h
  obtain ⟨⟨c, r1⟩, hc, h⟩ := h
  obtain ⟨⟨s1, r2⟩, hs, h⟩ := bind_eq_ok_iff.1 h
  have hr1 := length_lt_of_plain_eq_ok hc
  have hr2 := length_lt_of_plain_eq_ok hs
  obtain ⟨us, tk, rfl, htk, hdc⟩ := readCondition_sound hc
  obtain ⟨vs, rfl, hds⟩ := ih r1 (Nat.lt_succ_of_lt hr1) _ _ hs
  cases he : plain (take (.keyword .elseKw) r2) with
  | error _ =>
    rw [he] at h
    cases h
    refine ⟨t :: us ++ tk :: vs, by simp, ?_⟩
    simpa [ht, htk] using DerivesStmt.ifThen hdc hds (plain_take_eq_error_iff.1 he).1
  | ok u =>
    obtain ⟨te, rfl, hte⟩ := plain_take_eq_ok_iff.1 he
    rw [he] at h
    obtain ⟨⟨s2, r3⟩, ho, h⟩ := map_eq_ok_iff.1 h
    cases h
    have hu : u.2.length < (t :: (us ++ tk :: (vs ++ te :: u.2))).length := by simp; omega
    obtain ⟨ws, hws, hdo⟩ := ih u.2 hu _ _ ho
    refine ⟨t :: us ++ tk :: vs ++ te :: ws, by simp [hws], ?_⟩
    rw [nextLexeme_cons, hte] at hds
    simpa [ht, htk, hte] using DerivesStmt.ifElse hdc hds hdo

theorem readStatement_while_sound (ht : t.lexeme = .keyword .whileKw)
    (ih : ∀ r', r'.length < (t :: r).length → BranchSound r')
    (h : plain (readStatement (t :: r)) = .ok (s, rest)) :
    CoversStmt .statement (t :: r) s rest := by
  rw [plain_readStatement_while ht, bind_eq_ok_iff] at h
  obtain ⟨⟨c, r1⟩, hc, h⟩ := h
  obtain ⟨⟨s1, r2⟩, hs, h⟩ := map_eq_ok_iff.1 h
  cases h
  have hr1 := length_lt_of_plain_eq_ok hc
  obtain ⟨us, tk, rfl, htk, hdc⟩ := readCondition_sound hc
  obtain ⟨vs, rfl, hds⟩ := ih r1 (Nat.lt_succ_of_lt hr1) _ _ hs
  refine ⟨t :: us ++ tk :: vs, by simp, ?_⟩
  simpa [ht, htk] using DerivesStmt.whileDo hdc hds

theorem readStatement_repeat_sound (ht : t.lexeme = .keyword .repeatKw)
    (ih : ∀ r', r'.length < (t :: r).length → BranchSound r')
    (h : plain (readStatement (t :: r)) = .ok (s, rest)) :
    CoversStmt .statement (t :: r) s rest := by
  rw [plain_readStatement_repeat ht, bind_eq_ok_iff] at h
  obtain ⟨⟨s1, r1⟩, hs, h⟩ := h
  obtain ⟨⟨_, r2⟩, hu, h⟩ := bind_eq_ok_iff.1 h
  obtain ⟨⟨c, r3⟩, hc, h⟩ := map_eq_ok_iff.1 h
  cases h
  obtain ⟨tu, rfl, htu⟩ := plain_take_eq_ok_iff.1 hu
  obtain ⟨us, rfl, hds⟩ := ih r (length_lt_length_cons t r) _ _ hs
  obtain ⟨vs, rfl, hdc⟩ := readRank_sound hc
  rw [nextLexeme_cons, htu] at hds
  refine ⟨t :: us ++ tu :: vs, by simp, ?_⟩
  simpa [ht, htu] using hds.repeatUntil hdc

theorem readStatement_word_sound {name : String} (ht : t.lexeme = .word name)
    (h : plain (readStatement (t :: r)) = .ok (s, rest)) :
    CoversStmt .statement (t :: r) s rest := by
  rw [plain_readStatement_word ht, plain_readAssignment, bind_eq_ok_iff] at h
  obtain ⟨⟨_, r1⟩, ha, h⟩ := h
  obtain ⟨⟨e, r2⟩, he, h⟩ := map_eq_ok_iff.1 h
  cases h
  obtain ⟨ta, rfl, hta⟩ := plain_take_eq_ok_iff.1 ha
  obtain ⟨us, rfl, hd⟩ := readRank_sound he
  exact ⟨t :: ta :: us, rfl, by simpa [ht, hta] using DerivesStmt.assign hd⟩

end Statement

theorem statementSound_step {ts : List Token} (ih : ∀ r, r.length < ts.length → BranchSound r) :
    StatementSound ts := by
  intro s rest h
  cases ts with
  | nil => simp [plain_readStatement_nil] at h
  | cons t r =>
    by_cases hst : StartsStatement t.lexeme
    · generalize ht : t.lexeme = l at hst
      cases hst with
      | write newline =>
        rw [plain_readStatement_write ht, map_eq_ok_iff] at h
        obtain ⟨⟨e, r1⟩, he, h⟩ := h
        cases h
        obtain ⟨us, rfl, hd⟩ := readRank_sound he
        exact ⟨t :: us, rfl, by simpa [ht] using DerivesStmt.write hd⟩
      | jump j =>
        rw [plain_readStatement_jump ht] at h
        cases h
        exact ⟨[t], rfl, by simpa [ht] using DerivesStmt.jump⟩
      | ifKw => exact readStatement_if_sound ht ih h
      | whileKw => exact readStatement_while_sound ht ih h
      | repeatKw => exact readStatement_repeat_sound ht ih h
      | word name => exact readStatement_word_sound ht h
    · simp [plain_readStatement_other hst] at h

theorem branchSound_step {ts : List Token} (ihs : StatementSound ts)
    (ihb : ∀ r, r.length < ts.length → BlockSound r) : BranchSound ts := by
  intro s rest h
  by_cases hb : nextLexeme ts = some (.keyword .beginKw)
  · cases ts with
    | nil => cases hb
    | cons t r =>
      have ht : t.lexeme = .keyword .beginKw := by simpa using hb
      rw [plain_readBranch_block ht, map_eq_ok_iff] at h
      obtain ⟨⟨ss, r1⟩, hss, h⟩ := h
      cases h
      obtain ⟨us, te, rfl, hte, hd⟩ := ihb r (length_lt_length_cons t r) _ _ hss
      refine ⟨t :: us ++ [te], by simp, ?_⟩
      simpa [ht, hte] using hd.block
  · rw [plain_readBranch_statement hb] at h
    obtain ⟨us, rfl, hd⟩ := ihs _ _ h
    exact ⟨us, rfl, hd.single⟩

/-- A statement in front of a sequence makes up a longer one. -/
theorem sequence_cons_tokens {us vs rest : List Token} {s : Stmt} {ss : List Stmt}
    (hs : DerivesStmt .statement (us.map Token.lexeme) s (nextLexeme (vs ++ rest)))
    (hss : DerivesStmt .sequence (vs.map Token.lexeme) (.block ss) (nextLexeme rest)) :
    DerivesStmt .sequence ((us ++ vs).map Token.lexeme) (.block (s :: ss)) (nextLexeme rest) := by
  rw [List.map_append]
  refine .cons ?_ hss
  cases vs <;> simpa using hs

theorem blockSound_step {ts : List Token} (ihs : StatementSound ts)
    (ihb : ∀ r, r.length < ts.length → BlockSound r) : BlockSound ts := by
  intro ss rest h
  cases ts with
  | nil => simp [plain_readBlock_nil] at h
  | cons t r =>
    by_cases ht : t.lexeme = .keyword .endKw
    · rw [plain_readBlock_end ht] at h
      cases h
      exact ⟨[], t, rfl, ht, .nil⟩
    · rw [plain_readBlock_cons ht, bind_eq_ok_iff] at h
      obtain ⟨⟨s, r1⟩, hs, h⟩ := h
      obtain ⟨⟨ss', r2⟩, hss, h⟩ := map_eq_ok_iff.1 h
      cases h
      obtain ⟨vs, te, rfl, hte, hdss⟩ := ihb r1 (length_lt_of_plain_eq_ok hs) _ _ hss
      obtain ⟨us, hus, hds⟩ := ihs _ _ hs
      refine ⟨us ++ vs, te, by simp [hus], hte, ?_⟩
      have hnext : nextLexeme (te :: r2) = some (.keyword .endKw) := by simp [hte]
      rw [← hnext] at hdss ⊢
      exact sequence_cons_tokens hds hdss

theorem stmtReaders_sound :
    (∀ ts, StatementSound ts) ∧ (∀ ts, BranchSound ts) ∧ ∀ ts, BlockSound ts :=
  stmtReader_induction (fun _ => statementSound_step) (fun _ => branchSound_step)
    (fun _ => blockSound_step)

/-- What is read as a statement is derived from the tokens taken. -/
theorem readStatement_sound {ts rest : List Token} {s : Stmt}
    (h : plain (readStatement ts) = .ok (s, rest)) : CoversStmt .statement ts s rest :=
  stmtReaders_sound.1 ts s rest h

/-- What is read as a branch is derived from the tokens taken. -/
theorem readBranch_sound {ts rest : List Token} {s : Stmt}
    (h : plain (readBranch ts) = .ok (s, rest)) : CoversStmt .branch ts s rest :=
  stmtReaders_sound.2.1 ts s rest h

theorem readProgram_sound {ts : List Token} {ss : List Stmt} (h : readProgram ts = .ok ss) :
    DerivesStmt .sequence (ts.map Token.lexeme) (.block ss) none := by
  induction hk : ts.length using Nat.strong_induction_on generalizing ts ss with
  | _ k ih =>
    cases ts with
    | nil =>
      rw [readProgram_nil] at h
      cases h
      exact .nil
    | cons t r =>
      rw [readProgram_cons, bind_eq_ok_iff] at h
      obtain ⟨⟨s, r1⟩, hs, h⟩ := h
      obtain ⟨ss', hss, rfl⟩ := map_eq_ok_iff.1 h
      have hlt := length_lt_of_plain_eq_ok hs
      obtain ⟨us, hus, hds⟩ := readStatement_sound hs
      have hdss := ih r1.length (hk ▸ hlt) hss rfl
      have hds' : DerivesStmt .statement (us.map Token.lexeme) s (nextLexeme (r1 ++ [])) := by
        simpa using hds
      rw [hus]
      exact sequence_cons_tokens hds' hdss

/-! ### What is derived is found -/

/-- The readers find the expression `e` in front of `rest`. A chain is found when reading goes on
behind it as it would behind `e`. -/
def ReadsExpr : ExprClass → List Token → Expr → List Token → Prop
  | .primary, ts, e, rest => plain (readPrimary ts) = .ok (e, rest)
  | .rank n, ts, e, rest => plain (readRank n ts) = .ok (e, rest)
  | .chain n, ts, e, rest => plain (readRank (n + 1) ts) = plain (readChain n e rest)

theorem readPrimary_of_atom {t : Token} {l : Lexeme} {e : Expr} (ht : t.lexeme = l)
    (hl : l ≠ .symbol .leftParen) (ha : atom l = .ok e) (rest : List Token) :
    plain (readPrimary (t :: rest)) = .ok (e, rest) := by
  rw [plain_readPrimary_atom (ht ▸ hl), ht, ha]

theorem skipRightParen_of_next_ne {ts : List Token}
    (h : nextLexeme ts ≠ some (.symbol .rightParen)) : skipRightParen ts = ts := by
  cases ts with
  | nil => rfl
  | cons t r => exact if_neg (by simpa using h)

/-- A primary does not start with a sign. -/
theorem sign?_eq_none_of_readPrimary {ts : List Token} {e : Expr} {rest : List Token}
    (h : plain (readPrimary ts) = .ok (e, rest)) (t : Token) (r : List Token) (hts : ts = t :: r) :
    sign? t.lexeme = none := by
  subst hts
  by_contra hs
  obtain ⟨s, hs⟩ := Option.ne_none_iff_exists'.1 hs
  have ht := sign?_eq_some_iff.1 hs
  have hl : t.lexeme ≠ .symbol .leftParen := by
    rw [ht]
    cases s <;> simp [signSymbol]
  rw [plain_readPrimary_atom hl, ht] at h
  cases h

/-- An expression that is derived is found wherever it stands. -/
theorem DerivesExpr.reads {c : ExprClass} {u : List Lexeme} {e : Expr} {next : Option Lexeme}
    (h : DerivesExpr c u e next) {us rest : List Token} (hu : us.map Token.lexeme = u)
    (hnext : nextLexeme rest = next) : ReadsExpr c (us ++ rest) e rest := by
  induction h generalizing us rest with
  | @number ds x next hx =>
    obtain ⟨t, rfl, ht⟩ := List.map_eq_singleton_iff.1 hu
    exact readPrimary_of_atom ht (by simp) (by simp [atom, hx]) rest
  | @hex ds x next hne hx =>
    obtain ⟨t, rfl, ht⟩ := List.map_eq_singleton_iff.1 hu
    exact readPrimary_of_atom ht (by simp) (by simp [atom, hx]) rest
  | word =>
    obtain ⟨t, rfl, ht⟩ := List.map_eq_singleton_iff.1 hu
    exact readPrimary_of_atom ht (by simp) rfl rest
  | text =>
    obtain ⟨t, rfl, ht⟩ := List.map_eq_singleton_iff.1 hu
    exact readPrimary_of_atom ht (by simp) rfl rest
  | closed _ ih =>
    obtain ⟨t, vs, rfl, ht, hvs⟩ := List.map_eq_cons_iff.1 hu
    obtain ⟨ws, rs, rfl, hws, hrs⟩ := List.map_eq_append_iff.1 hvs
    obtain ⟨t', rfl, ht'⟩ := List.map_eq_singleton_iff.1 hrs
    have hr : plain (readRank topRank (ws ++ t' :: rest)) = .ok (_, t' :: rest) :=
      ih hws (by simp [ht'])
    have hskip : skipRightParen (t' :: rest) = rest := if_pos ht'
    rw [List.cons_append, List.append_assoc, List.singleton_append, ReadsExpr,
      plain_readPrimary_paren ht, hr]
    simp [Except.map, hskip]
  | unclosed _ hne ih =>
    obtain ⟨t, vs, rfl, ht, hvs⟩ := List.map_eq_cons_iff.1 hu
    have hr : plain (readRank topRank (vs ++ rest)) = .ok (_, rest) := ih hvs hnext
    rw [List.cons_append, ReadsExpr, plain_readPrimary_paren ht, hr]
    simp [Except.map, skipRightParen_of_next_ne (hnext ▸ hne)]
  | bare _ ih =>
    have hp : plain (readPrimary (us ++ rest)) = .ok (_, rest) := ih hu hnext
    rw [ReadsExpr, plain_readRank_zero_primary (sign?_eq_none_of_readPrimary hp), hp]
  | signed s _ ih =>
    obtain ⟨t, vs, rfl, ht, hvs⟩ := List.map_eq_cons_iff.1 hu
    have hp : plain (readPrimary (vs ++ rest)) = .ok (_, rest) := ih hvs hnext
    rw [List.cons_append, ReadsExpr, plain_readRank_zero_signed (sign?_eq_some_iff.2 ht), hp]
    rfl
  | first _ ih =>
    have hr : plain (readRank _ (us ++ rest)) = .ok (_, rest) := ih hu hnext
    rw [ReadsExpr, plain_readRank_succ, hr]
    rfl
  | further hn _ hop _ ihx ihy =>
    obtain ⟨vs, ws, rfl, hvs, hws⟩ := List.map_eq_append_iff.1 hu
    obtain ⟨t, ys, rfl, ht, hys⟩ := List.map_eq_cons_iff.1 hws
    have hy : plain (readRank _ (ys ++ rest)) = .ok (_, rest) := ihy hys hnext
    have hx : plain (readRank _ (vs ++ t :: (ys ++ rest))) =
        plain (readChain _ _ (t :: (ys ++ rest))) := ihx hvs (by simp [ht])
    have hf := binary?_eq_some_iff.2 (ht ▸ hop)
    rw [List.append_assoc, List.cons_append, ReadsExpr, hx, plain_readChain_further hn hf, hy]
    rfl
  | whole _ hne ih =>
    have hc : plain (readRank _ (us ++ rest)) = plain (readChain _ _ rest) := ih hu hnext
    rw [ReadsExpr, hc, plain_readChain_of_not_continues (hnext ▸ hne)]
  | equality hn _ hop _ ihx ihy =>
    obtain ⟨vs, ws, rfl, hvs, hws⟩ := List.map_eq_append_iff.1 hu
    obtain ⟨t, ys, rfl, ht, hys⟩ := List.map_eq_cons_iff.1 hws
    have hy : plain (readRank _ (ys ++ rest)) = .ok (_, rest) := ihy hys hnext
    have hx : plain (readRank _ (vs ++ t :: (ys ++ rest))) = .ok (_, t :: (ys ++ rest)) :=
      ihx hvs (by simp [ht])
    have hf := binary?_eq_some_iff.2 (ht ▸ hop)
    rw [List.append_assoc, List.cons_append, ReadsExpr, plain_readRank_succ, hx]
    simp only [Except.bind]
    rw [plain_readChain_equality hn hf, hy]
    rfl

theorem DerivesExpr.readExpr {us rest : List Token} {e : Expr} {next : Option Lexeme}
    (h : DerivesExpr (.rank topRank) (us.map Token.lexeme) e next)
    (hnext : nextLexeme rest = next) : plain (readExpr (us ++ rest)) = .ok (e, rest) :=
  h.reads rfl hnext

theorem readCondition_of_derives {k : Keyword} {us rest : List Token} {t : Token} {c : Expr}
    (h : DerivesExpr (.rank topRank) (us.map Token.lexeme) c (some (.keyword k)))
    (ht : t.lexeme = .keyword k) :
    plain (readCondition k (us ++ t :: rest)) = .ok (c, rest) := by
  have hk : plain (take (.keyword k) (t :: rest)) = .ok ((), rest) :=
    plain_take_eq_ok_iff.2 ⟨t, rfl, ht⟩
  rw [plain_readCondition, h.readExpr (by simp [ht])]
  simp [Except.bind, Except.map, hk]

/-- The readers find the statement `s` in front of `rest`. A sequence is found in a block if its
end comes next, and as a program if nothing does. -/
def ReadsStmt : StmtClass → List Token → Stmt → List Token → Prop
  | .statement, ts, s, rest => plain (readStatement ts) = .ok (s, rest)
  | .branch, ts, s, rest => plain (readBranch ts) = .ok (s, rest)
  | .sequence, ts, s, rest => ∃ ss, s = .block ss ∧
      (∀ t r, rest = t :: r → t.lexeme = .keyword .endKw → plain (readBlock ts) = .ok (ss, r)) ∧
      (rest = [] → readProgram ts = .ok ss)

theorem StartsStatement.ne_beginKw {l : Lexeme} (h : StartsStatement l) :
    l ≠ .keyword .beginKw := by
  cases h with
  | write newline => cases newline <;> simp [writeKeyword]
  | jump j => cases j <;> simp [jumpKeyword]
  | _ => simp

theorem StartsStatement.ne_endKw {l : Lexeme} (h : StartsStatement l) : l ≠ .keyword .endKw := by
  cases h with
  | write newline => cases newline <;> simp [writeKeyword]
  | jump j => cases j <;> simp [jumpKeyword]
  | _ => simp

/-- The token that a derived statement starts with. -/
theorem DerivesStmt.exists_first_token {us : List Token} {s : Stmt} {next : Option Lexeme}
    (h : DerivesStmt .statement (us.map Token.lexeme) s next) :
    ∃ t vs, us = t :: vs ∧ StartsStatement t.lexeme := by
  obtain ⟨l, v, hu, hl⟩ := h.exists_starts
  obtain ⟨t, vs, rfl, rfl, -⟩ := List.map_eq_cons_iff.1 hu
  exact ⟨t, vs, rfl, hl⟩

/-- A statement that is found in front of a sequence that is found makes it longer. -/
theorem ReadsStmt.cons {us ts rest : List Token} {s : Stmt} {ss : List Stmt}
    {next : Option Lexeme} (hd : DerivesStmt .statement (us.map Token.lexeme) s next)
    (hs : ReadsStmt .statement (us ++ ts) s ts)
    (hss : ReadsStmt .sequence ts (.block ss) rest) :
    ReadsStmt .sequence (us ++ ts) (.block (s :: ss)) rest := by
  obtain ⟨t, vs, rfl, ht⟩ := hd.exists_first_token
  obtain ⟨ss', hb, hblock, hprogram⟩ := hss
  obtain rfl : ss = ss' := by simpa using hb
  simp only [ReadsStmt, List.cons_append] at hs
  refine ⟨s :: ss, rfl, fun t' r hr ht' => ?_, fun hr => ?_⟩
  · rw [List.cons_append, plain_readBlock_cons ht.ne_endKw, hs]
    simp [Except.bind, Except.map, hblock t' r hr ht']
  · rw [List.cons_append, readProgram_cons, hs]
    simp [Except.bind, Except.map, hprogram hr]

/-- A statement that is derived is found wherever it stands. -/
theorem DerivesStmt.reads {c : StmtClass} {u : List Lexeme} {s : Stmt} {next : Option Lexeme}
    (h : DerivesStmt c u s next) {us rest : List Token} (hu : us.map Token.lexeme = u)
    (hnext : nextLexeme rest = next) : ReadsStmt c (us ++ rest) s rest := by
  induction h generalizing us rest with
  | assign he =>
    obtain ⟨t, vs, rfl, ht, hvs⟩ := List.map_eq_cons_iff.1 hu
    obtain ⟨ta, ws, rfl, hta, rfl⟩ := List.map_eq_cons_iff.1 hvs
    have ha : plain (take (.symbol .assign) (ta :: (ws ++ rest))) = .ok ((), ws ++ rest) :=
      plain_take_eq_ok_iff.2 ⟨ta, rfl, hta⟩
    rw [List.cons_append, List.cons_append, ReadsStmt, plain_readStatement_word ht,
      plain_readAssignment, ha]
    simp [Except.bind, Except.map, he.readExpr hnext]
  | write he =>
    obtain ⟨t, vs, rfl, ht, rfl⟩ := List.map_eq_cons_iff.1 hu
    rw [List.cons_append, ReadsStmt, plain_readStatement_write ht, he.readExpr hnext]
    rfl
  | jump =>
    obtain ⟨t, rfl, ht⟩ := List.map_eq_singleton_iff.1 hu
    exact plain_readStatement_jump ht rest
  | ifThen hc _ hne ih =>
    obtain ⟨t, vs, rfl, ht, hvs⟩ := List.map_eq_cons_iff.1 hu
    obtain ⟨cs, ws, rfl, rfl, hws⟩ := List.map_eq_append_iff.1 hvs
    obtain ⟨tk, bs, rfl, htk, hbs⟩ := List.map_eq_cons_iff.1 hws
    have hb : plain (readBranch (bs ++ rest)) = .ok (_, rest) := ih hbs hnext
    have he : plain (take (.keyword .elseKw) rest) = .error ⟨_, rest⟩ :=
      plain_take_eq_error_iff.2 ⟨hnext ▸ hne, rfl⟩
    rw [List.cons_append, List.append_assoc, List.cons_append, ReadsStmt,
      plain_readStatement_if ht, readCondition_of_derives hc htk]
    simp [Except.bind, hb, he]
  | ifElse hc _ _ ihs iht =>
    obtain ⟨t, vs, rfl, ht, hvs⟩ := List.map_eq_cons_iff.1 hu
    obtain ⟨xs, os, rfl, hxs, hos⟩ := List.map_eq_append_iff.1 hvs
    obtain ⟨cs, ws, rfl, rfl, hws⟩ := List.map_eq_append_iff.1 hxs
    obtain ⟨tk, bs, rfl, htk, hbs⟩ := List.map_eq_cons_iff.1 hws
    obtain ⟨te, zs, rfl, hte, hzs⟩ := List.map_eq_cons_iff.1 hos
    have hb : plain (readBranch (bs ++ te :: (zs ++ rest))) = .ok (_, te :: (zs ++ rest)) :=
      ihs hbs (by simp [hte])
    have he : plain (take (.keyword .elseKw) (te :: (zs ++ rest))) = .ok ((), zs ++ rest) :=
      plain_take_eq_ok_iff.2 ⟨te, rfl, hte⟩
    have ho : plain (readBranch (zs ++ rest)) = .ok (_, rest) := iht hzs hnext
    rw [List.cons_append, List.append_assoc, List.append_assoc, List.cons_append, List.cons_append,
      ReadsStmt, plain_readStatement_if ht, readCondition_of_derives hc htk]
    simp [Except.bind, Except.map, hb, he, ho]
  | whileDo hc _ ih =>
    obtain ⟨t, vs, rfl, ht, hvs⟩ := List.map_eq_cons_iff.1 hu
    obtain ⟨cs, ws, rfl, rfl, hws⟩ := List.map_eq_append_iff.1 hvs
    obtain ⟨tk, bs, rfl, htk, hbs⟩ := List.map_eq_cons_iff.1 hws
    have hb : plain (readBranch (bs ++ rest)) = .ok (_, rest) := ih hbs hnext
    rw [List.cons_append, List.append_assoc, List.cons_append, ReadsStmt,
      plain_readStatement_while ht, readCondition_of_derives hc htk]
    simp [Except.bind, Except.map, hb]
  | repeatUntil _ hc ih =>
    obtain ⟨t, vs, rfl, ht, hvs⟩ := List.map_eq_cons_iff.1 hu
    obtain ⟨bs, ws, rfl, hbs, hws⟩ := List.map_eq_append_iff.1 hvs
    obtain ⟨tk, cs, rfl, htk, rfl⟩ := List.map_eq_cons_iff.1 hws
    have hb : plain (readBranch (bs ++ tk :: (cs ++ rest))) = .ok (_, tk :: (cs ++ rest)) :=
      ih hbs (by simp [htk])
    have hk : plain (take (.keyword .untilKw) (tk :: (cs ++ rest))) = .ok ((), cs ++ rest) :=
      plain_take_eq_ok_iff.2 ⟨tk, rfl, htk⟩
    rw [List.cons_append, List.append_assoc, List.cons_append, ReadsStmt,
      plain_readStatement_repeat ht, hb]
    simp [Except.bind, Except.map, hk, hc.readExpr hnext]
  | single hs ih =>
    subst hu
    obtain ⟨t, vs, rfl, ht⟩ := hs.exists_first_token
    rw [ReadsStmt, plain_readBranch_statement (by simpa using ht.ne_beginKw)]
    exact ih rfl hnext
  | block _ ih =>
    obtain ⟨t, vs, rfl, ht, hvs⟩ := List.map_eq_cons_iff.1 hu
    obtain ⟨bs, ws, rfl, hbs, hws⟩ := List.map_eq_append_iff.1 hvs
    obtain ⟨te, rfl, hte⟩ := List.map_eq_singleton_iff.1 hws
    obtain ⟨ss, rfl, hblock, -⟩ := ih hbs (show nextLexeme (te :: rest) = _ by simp [hte])
    rw [List.cons_append, List.append_assoc, List.singleton_append, ReadsStmt,
      plain_readBranch_block ht, hblock te rest rfl hte]
    rfl
  | nil =>
    obtain rfl := List.map_eq_nil_iff.1 hu
    refine ⟨[], rfl, fun t r hr ht => ?_, fun hr => ?_⟩
    · subst hr
      exact plain_readBlock_end ht r
    · subst hr
      exact readProgram_nil
  | @cons u v s ss next hs _ ihs ihss =>
    obtain ⟨xs, ys, rfl, rfl, rfl⟩ := List.map_eq_append_iff.1 hu
    -- behind the statement comes the head of the others, or what comes behind them all
    rw [List.append_assoc]
    refine ReadsStmt.cons hs (ihs rfl ?_) (ihss rfl hnext)
    cases ys <;> simp [hnext]

/-- A program is read exactly if its lexemes are derived as a sequence of statements. -/
theorem readProgram_eq_ok_iff {ts : List Token} {ss : List Stmt} :
    readProgram ts = .ok ss ↔ IsProgram (ts.map Token.lexeme) (.block ss) := by
  constructor
  · exact readProgram_sound
  · intro h
    obtain ⟨ss', hb, -, hp⟩ := h.reads rfl nextLexeme_nil
    cases hb
    simpa using hp rfl

end BlockScript.Grammar

namespace BlockScript

open Grammar

/-- **The parser accepts exactly the programs, each with its tree.** -/
theorem parse_eq_ok_iff_isProgram (ts : List Token) (p : Stmt) :
    parse ts = .ok p ↔ IsProgram (ts.map Token.lexeme) p := by
  unfold parse
  constructor
  · intro h
    cases hr : readProgram ts with
    | error s => simp [hr] at h
    | ok ss =>
      obtain rfl : Stmt.block ss = p := by simpa [hr] using h
      exact readProgram_eq_ok_iff.1 hr
  · intro h
    obtain ⟨ss, rfl⟩ := h.exists_eq_block
    simp [readProgram_eq_ok_iff.2 h]

end BlockScript
