import BlockScript.Proofs.Recognition

/-!
# What a failed parse blames

A reader that stops blames the first token that cannot be part of any program: what it took in
front of that token can be completed, and nothing behind the token would help.

* `Blames`: how a reader stops; `Blames.behind`: a reader that stops in one of its parts.
* `Explained`: whenever a reader stops, it stops so.
* `exprReaders_explained`, `stmtReaders_explained`, `readProgram_explained`: all readers do.
* `FailsAt`: the position that a failed parse blames; `exists_failsAt_of_parse_error`: what that
  position tells.
-/

namespace BlockScript.Grammar

variable {α β : Type}

/-- The reader stops in front of `unread`. The tokens it took can be completed to lexemes of which
`C` holds, and the tokens behind the first unread one play no part in it. -/
def Blames (read : List Token → Except Stop α) (C : List Lexeme → Prop) (ts unread : List Token) :
    Prop :=
  ∃ us, ts = us ++ unread ∧ (∃ v, C (us.map Token.lexeme ++ v)) ∧
    ∀ t r, unread = t :: r → ∀ r', ∃ f, read (us ++ t :: r') = .error ⟨f, t :: r'⟩

/-- Whenever the reader stops, it blames the first token that it leaves unread. -/
def Explained (read : List Token → Except Stop α) (C : List Lexeme → Prop) (ts : List Token) :
    Prop :=
  ∀ s, read ts = .error s → Blames read C ts s.unread

/-- A reader stops at the first of its tokens. -/
theorem Blames.here {read : List Token → Except Stop α} {C : List Lexeme → Prop}
    {ts : List Token} {v : List Lexeme} (hv : C v)
    (hread : ∀ t r, ts = t :: r → ∀ r', ∃ f, read (t :: r') = .error ⟨f, t :: r'⟩) :
    Blames read C ts ts :=
  ⟨[], rfl, ⟨v, hv⟩, hread⟩

theorem nextLexeme_append_cons (us : List Token) (t : Token) (r r' : List Token) :
    nextLexeme (us ++ t :: r) = nextLexeme (us ++ t :: r') := by
  cases us <;> rfl

/-- A reader stops in a part of it, behind the tokens `us`, if reading them depends on nothing but
the token that comes next. -/
theorem Blames.behind {read : List Token → Except Stop α} {read' : List Token → Except Stop β}
    {C C' : List Lexeme → Prop} {ts r unread : List Token} (h : Blames read C r unread)
    (us : List Token) (hts : ts = us ++ r)
    (hread : ∀ r' s, nextLexeme r' = nextLexeme r → read r' = .error s →
      read' (us ++ r') = .error s)
    (hC : ∀ w, C w → ∃ v, C' (us.map Token.lexeme ++ (w ++ v))) :
    Blames read' C' ts unread := by
  obtain ⟨vs, rfl, ⟨w, hw⟩, hstop⟩ := h
  obtain ⟨v, hv⟩ := hC _ hw
  refine ⟨us ++ vs, by simp [hts], ⟨w ++ v, by simpa using hv⟩, fun t r hr r' => ?_⟩
  subst hr
  obtain ⟨f, hf⟩ := hstop t r rfl r'
  refine ⟨f, ?_⟩
  -- the part starts with the same token, whatever stands behind the blamed one
  rw [List.append_assoc]
  exact hread _ _ (nextLexeme_append_cons vs t r' r) hf

/-- A reader stops in its first part. -/
theorem Blames.inside {read : List Token → Except Stop α} {read' : List Token → Except Stop β}
    {C C' : List Lexeme → Prop} {ts unread : List Token} (h : Blames read C ts unread)
    (hread : ∀ ts' s, nextLexeme ts' = nextLexeme ts → read ts' = .error s → read' ts' = .error s)
    (hC : ∀ w, C w → ∃ v, C' (w ++ v)) : Blames read' C' ts unread :=
  h.behind [] rfl hread (by simpa using hC)

theorem take_explained (l : Lexeme) (ts : List Token) :
    Explained (fun ts => plain (take l ts)) (· = [l]) ts := by
  intro s hs
  obtain ⟨hne, rfl⟩ := plain_take_eq_error_iff.1 hs
  refine .here rfl fun t r hts r' => ⟨.expected l, ?_⟩
  subst hts
  exact plain_take_eq_error_iff.2 ⟨hne, rfl⟩

/-! ### Expressions -/

/-- The lexemes make up an expression at the end of input. -/
def ExprEnds (c : ExprClass) (w : List Lexeme) : Prop :=
  ∃ e, DerivesExpr c w e none

/-- A stop in a primary is explained. -/
def PrimaryExplained (ts : List Token) : Prop :=
  Explained (fun ts => plain (readPrimary ts)) (ExprEnds .primary) ts

/-- A stop in an expression of rank `n` is explained. -/
def RankExplained (n : Nat) (ts : List Token) : Prop :=
  Explained (fun ts => plain (readRank n ts)) (ExprEnds (.rank n)) ts

/-- A stop behind a derived chain is explained by what the chain could have gone on with. -/
def ChainExplained (n : Nat) (x : Expr) (ts : List Token) : Prop :=
  ∀ u, DerivesExpr (.chain n) u x (nextLexeme ts) →
    Explained (fun ts => plain (readChain n x ts)) (fun w => ExprEnds (.rank (n + 1)) (u ++ w)) ts

theorem DerivesExpr.rank_of_primary {u : List Lexeme} {e : Expr}
    (h : DerivesExpr .primary u e none) (n : Nat) : DerivesExpr (.rank n) u e none := by
  induction n with
  | zero => exact .bare h
  | succ n ih => exact .whole (.first ih) (not_continues_none _)

/-- A name is what an expression that is missing can be completed with. -/
theorem word_derives (w : String) : DerivesExpr (.rank topRank) [.word w] (.var w) none :=
  DerivesExpr.word.rank_of_primary topRank

theorem primary_explained_step {ts : List Token}
    (ih : ∀ r, r.length < ts.length → RankExplained topRank r) : PrimaryExplained ts := by
  intro s hs
  have hname : ExprEnds .primary [.word "x"] := ⟨_, .word⟩
  cases ts with
  | nil =>
    obtain rfl : Stop.mk .unknownExpression [] = s := by simpa [plain_readPrimary_nil] using hs
    exact .here hname fun t r h => absurd h (by simp)
  | cons t r =>
    by_cases ht : t.lexeme = .symbol .leftParen
    · simp only [plain_readPrimary_paren ht, map_eq_error_iff] at hs
      refine (ih r (by simp) s hs).behind [t] rfl (fun r' s' _ h => ?_) ?_
      · simp [plain_readPrimary_paren ht, h, Except.map]
      · rintro w ⟨e, he⟩
        exact ⟨[], e, by simpa [ht] using he.unclosed (by simp)⟩
    · simp only [plain_readPrimary_atom ht] at hs
      cases ha : atom t.lexeme with
      | ok e => simp [ha] at hs
      | error f =>
        obtain rfl : Stop.mk f (t :: r) = s := by simpa [ha] using hs
        refine .here hname fun t' r₀ hts r' => ⟨f, ?_⟩
        cases hts
        simp [plain_readPrimary_atom ht, ha]

theorem rank_zero_explained_step {ts : List Token} (ih : PrimaryExplained ts)
    (ih' : ∀ r, r.length < ts.length → PrimaryExplained r) : RankExplained 0 ts := by
  intro s hs
  by_cases hsign : ∀ l, nextLexeme ts = some l → sign? l = none
  · have hread : ∀ ts', nextLexeme ts' = nextLexeme ts →
        plain (readRank 0 ts') = plain (readPrimary ts') := fun ts' hnext =>
      plain_readRank_zero_primary fun t r hts => hsign _ (by rw [← hnext, hts, nextLexeme_cons])
    simp only [hread ts rfl] at hs
    refine (ih s hs).inside (fun ts' s' hnext h => ?_) ?_
    · rw [hread ts' hnext, h]
    · rintro w ⟨e, he⟩
      exact ⟨[], e, by simpa using he.bare⟩
  · push Not at hsign
    obtain ⟨l, hl, hs'⟩ := hsign
    obtain ⟨sign, hsign⟩ := Option.ne_none_iff_exists'.1 hs'
    cases ts with
    | nil => cases hl
    | cons t r =>
      cases hl
      simp only [plain_readRank_zero_signed hsign, map_eq_error_iff] at hs
      refine (ih' r (by simp) s hs).behind [t] rfl (fun r' s' _ h => ?_) ?_
      · simp [plain_readRank_zero_signed hsign, h, Except.map]
      · rintro w ⟨e, he⟩
        exact ⟨[], _, by simpa [sign?_eq_some_iff.1 hsign] using he.signed sign⟩

theorem rank_succ_explained_step {n : Nat} {ts : List Token} (ihr : RankExplained n ts)
    (ihc : ∀ x r, r.length < ts.length → ChainExplained n x r) : RankExplained (n + 1) ts := by
  intro s hs
  simp only [plain_readRank_succ, bind_eq_error_iff] at hs
  obtain hs | ⟨⟨x, r⟩, hx, hc⟩ := hs
  -- in front of the first operator
  · refine (ihr s hs).inside (fun ts' s' _ h => ?_) ?_
    · simp only [plain_readRank_succ, h, Except.bind]
    · rintro w ⟨e, he⟩
      exact ⟨[], e, by simpa using he.first.whole (not_continues_none _)⟩
  -- behind the first operand, which is read again in front of the same token
  · have hlt := length_lt_of_plain_eq_ok hx
    obtain ⟨us, rfl, hd⟩ := readRank_sound hx
    refine (ihc x r hlt _ hd.first s hc).behind us rfl (fun r' s' hnext h => ?_) ?_
    · have hx' : plain (readRank n (us ++ r')) = .ok (x, r') := hd.reads rfl hnext
      simp only [plain_readRank_succ, hx', Except.bind, h]
    · rintro w ⟨e, he⟩
      exact ⟨[], e, by simpa using he⟩

theorem chain_explained_step {n : Nat} {x : Expr} {ts : List Token}
    (ihr : ∀ r, r.length < ts.length → RankExplained n r)
    (ihc : ∀ y r, r.length < ts.length → ChainExplained n y r) : ChainExplained n x ts := by
  intro u hu s hs
  by_cases hc : Continues (n + 1) (nextLexeme ts)
  · obtain ⟨t, r, f, rfl, hf⟩ := continues_nextLexeme_iff.1 hc
    have hop := binary?_eq_some_iff.1 hf
    by_cases hn : n + 1 = equalityRank
    -- an equality is not chained, so reading stopped in its right side
    · simp only [plain_readChain_equality hn hf, map_eq_error_iff] at hs
      refine (ihr r (by simp) s hs).behind [t] rfl (fun r' s' _ h => ?_) ?_
      · simp [plain_readChain_equality hn hf, h, Except.map]
      · rintro w ⟨y, hy⟩
        exact ⟨[], _, by simpa using DerivesExpr.equality hn (hu.rank_of_chain hn) hop hy⟩
    · simp only [plain_readChain_further hn hf, bind_eq_error_iff] at hs
      obtain hs | ⟨⟨y, r1⟩, hy, hs⟩ := hs
      · refine (ihr r (by simp) s hs).behind [t] rfl (fun r' s' _ h => ?_) ?_
        · simp [plain_readChain_further hn hf, h, Except.bind]
        · rintro w ⟨y, hy⟩
          have hchain := DerivesExpr.further hn hu hop hy
          exact ⟨[], _, by simpa using hchain.whole (not_continues_none _)⟩
      · have hlt := length_lt_of_plain_eq_ok hy
        obtain ⟨ys, rfl, hd⟩ := readRank_sound hy
        have hchain := DerivesExpr.further hn hu hop hd
        refine (ihc _ r1 (Nat.lt_succ_of_lt hlt) _ hchain s hs).behind (t :: ys) rfl
          (fun r' s' hnext h => ?_) ?_
        · have hy' : plain (readRank n (ys ++ r')) = .ok (y, r') := hd.reads rfl hnext
          simp only [List.cons_append, plain_readChain_further hn hf, hy', Except.bind, h]
        · rintro w ⟨e, he⟩
          exact ⟨[], e, by simpa using he⟩
  · simp [plain_readChain_of_not_continues hc] at hs

theorem exprReaders_explained :
    (∀ ts, PrimaryExplained ts) ∧ (∀ n ts, RankExplained n ts) ∧ ∀ n x ts, ChainExplained n x ts :=
  exprReader_induction (fun _ => primary_explained_step) (fun _ => rank_zero_explained_step)
    (fun _ _ => rank_succ_explained_step) (fun _ _ _ => chain_explained_step)

theorem readExpr_explained (ts : List Token) :
    Explained (fun ts => plain (readExpr ts)) (ExprEnds (.rank topRank)) ts :=
  exprReaders_explained.2.1 topRank ts

/-! ### Statements -/

/-- The lexemes make up a statement at the end of input. -/
def StmtEnds (c : StmtClass) (w : List Lexeme) : Prop :=
  ∃ s, DerivesStmt c w s none

/-- The lexemes make up a condition and the keyword behind it. -/
def ConditionEnds (k : Keyword) (w : List Lexeme) : Prop :=
  ∃ v c, w = v ++ [.keyword k] ∧ DerivesExpr (.rank topRank) v c (some (.keyword k))

/-- The lexemes make up the statements of a block and its end. -/
def BlockEnds (w : List Lexeme) : Prop :=
  ∃ v ss, w = v ++ [.keyword .endKw] ∧
    DerivesStmt .sequence v (.block ss) (some (.keyword .endKw))

theorem readCondition_explained (k : Keyword) (ts : List Token) :
    Explained (fun ts => plain (readCondition k ts)) (ConditionEnds k) ts := by
  intro s hs
  simp only [plain_readCondition, bind_eq_error_iff, map_eq_error_iff] at hs
  obtain hs | ⟨⟨c, r⟩, hc, hs⟩ := hs
  · refine (readExpr_explained ts s hs).inside (fun ts' s' _ h => ?_) ?_
    · simp only [plain_readCondition, h, Except.bind]
    · rintro w ⟨c, hc⟩
      exact ⟨[.keyword k], w, c, rfl, hc.endsExpr (endsExpr_keyword k)⟩
  · obtain ⟨us, rfl, hd⟩ := readRank_sound hc
    refine (take_explained _ r s hs).behind us rfl (fun r' s' hnext h => ?_) ?_
    · simp only [plain_readCondition, hd.readExpr hnext, Except.bind, h, Except.map]
    · rintro w rfl
      exact ⟨[], _, c, by simp, hd.endsExpr (endsExpr_keyword k)⟩

/-- A stop in a statement is explained. -/
def StatementExplained (ts : List Token) : Prop :=
  Explained (fun ts => plain (readStatement ts)) (StmtEnds .statement) ts

/-- A stop in a branch is explained. -/
def BranchExplained (ts : List Token) : Prop :=
  Explained (fun ts => plain (readBranch ts)) (StmtEnds .branch) ts

/-- A stop inside a block is explained. -/
def BlockExplained (ts : List Token) : Prop :=
  Explained (fun ts => plain (readBlock ts)) BlockEnds ts

section Statement

variable {t : Token} {r : List Token}

theorem readStatement_if_explained (ht : t.lexeme = .keyword .ifKw)
    (ih : ∀ r', r'.length < (t :: r).length → BranchExplained r') :
    StatementExplained (t :: r) := by
  intro s hs
  simp only [plain_readStatement_if ht, bind_eq_error_iff] at hs
  obtain hs | ⟨⟨c, r1⟩, hc, hs | ⟨⟨s1, r2⟩, hb, hs⟩⟩ := hs
  -- in the condition
  · refine (readCondition_explained .thenKw r s hs).behind [t] rfl (fun r' s' _ h => ?_) ?_
    · simp [plain_readStatement_if ht, h, Except.bind]
    · rintro _ ⟨v, c, rfl, hc⟩
      exact ⟨[.keyword (jumpKeyword .leave)], _, by
        simpa [ht] using DerivesStmt.ifThen hc (.single .jump) (by simp)⟩
  -- in the first branch
  · have hlt := length_lt_of_plain_eq_ok hc
    obtain ⟨us, tk, rfl, htk, hd⟩ := readCondition_sound hc
    refine (ih r1 (Nat.lt_succ_of_lt hlt) s hs).behind (t :: us ++ [tk]) (by simp)
      (fun r' s' _ h => ?_) ?_
    · rw [show t :: us ++ [tk] ++ r' = t :: (us ++ tk :: r') by simp, plain_readStatement_if ht,
        readCondition_of_derives hd htk]
      simp [Except.bind, h]
    · rintro w ⟨b, hb⟩
      exact ⟨[], _, by simpa [ht, htk] using DerivesStmt.ifThen hd hb (by simp)⟩
  -- in the second branch, as there is nothing to stop at without `else`
  · have hlt := length_lt_of_plain_eq_ok hc
    have hlt' := length_lt_of_plain_eq_ok hb
    obtain ⟨us, tk, rfl, htk, hd⟩ := readCondition_sound hc
    obtain ⟨vs, rfl, hdb⟩ := readBranch_sound hb
    cases he : plain (take (.keyword .elseKw) r2) with
    | error e => simp [he] at hs
    | ok u =>
      obtain ⟨te, rfl, hte⟩ := plain_take_eq_ok_iff.1 he
      simp only [he, map_eq_error_iff] at hs
      rw [nextLexeme_cons, hte] at hdb
      have hu : u.2.length < (t :: (us ++ tk :: (vs ++ te :: u.2))).length := by simp; omega
      refine (ih u.2 hu s hs).behind (t :: us ++ tk :: vs ++ [te]) (by simp)
        (fun r' s' _ h => ?_) ?_
      · have hb' : plain (readBranch (vs ++ te :: r')) = .ok (s1, te :: r') :=
          hdb.reads rfl (by simp [hte])
        have he' : plain (take (.keyword .elseKw) (te :: r')) = .ok ((), r') :=
          plain_take_eq_ok_iff.2 ⟨te, rfl, hte⟩
        rw [show t :: us ++ tk :: vs ++ [te] ++ r' = t :: (us ++ tk :: (vs ++ te :: r')) by simp,
          plain_readStatement_if ht, readCondition_of_derives hd htk]
        simp [Except.bind, Except.map, hb', he', h]
      · rintro w ⟨o, ho⟩
        exact ⟨[], _, by simpa [ht, htk, hte] using DerivesStmt.ifElse hd hdb ho⟩

theorem readStatement_while_explained (ht : t.lexeme = .keyword .whileKw)
    (ih : ∀ r', r'.length < (t :: r).length → BranchExplained r') :
    StatementExplained (t :: r) := by
  intro s hs
  simp only [plain_readStatement_while ht, bind_eq_error_iff, map_eq_error_iff] at hs
  obtain hs | ⟨⟨c, r1⟩, hc, hs⟩ := hs
  · refine (readCondition_explained .doKw r s hs).behind [t] rfl (fun r' s' _ h => ?_) ?_
    · simp [plain_readStatement_while ht, h, Except.bind]
    · rintro _ ⟨v, c, rfl, hc⟩
      exact ⟨[.keyword (jumpKeyword .leave)], _, by
        simpa [ht] using DerivesStmt.whileDo hc (.single .jump)⟩
  · have hlt := length_lt_of_plain_eq_ok hc
    obtain ⟨us, tk, rfl, htk, hd⟩ := readCondition_sound hc
    refine (ih r1 (Nat.lt_succ_of_lt hlt) s hs).behind (t :: us ++ [tk]) (by simp)
      (fun r' s' _ h => ?_) ?_
    · rw [show t :: us ++ [tk] ++ r' = t :: (us ++ tk :: r') by simp, plain_readStatement_while ht,
        readCondition_of_derives hd htk]
      simp [Except.bind, Except.map, h]
    · rintro w ⟨b, hb⟩
      exact ⟨[], _, by simpa [ht, htk] using DerivesStmt.whileDo hd hb⟩

theorem readStatement_repeat_explained (ht : t.lexeme = .keyword .repeatKw)
    (ih : ∀ r', r'.length < (t :: r).length → BranchExplained r') :
    StatementExplained (t :: r) := by
  intro s hs
  have huntil : EndsStmt (some (.keyword .untilKw)) := endsStmt_keyword (by simp)
  simp only [plain_readStatement_repeat ht, bind_eq_error_iff, map_eq_error_iff] at hs
  obtain hs | ⟨⟨s1, r1⟩, hb, hs | ⟨⟨_, r2⟩, hu, hs⟩⟩ := hs
  -- in the body
  · refine (ih r (by simp) s hs).behind [t] rfl (fun r' s' _ h => ?_) ?_
    · simp [plain_readStatement_repeat ht, h, Except.bind]
    · rintro w ⟨b, hb⟩
      exact ⟨[.keyword .untilKw, .word "x"], _, by
        simpa [ht] using (hb.endsStmt huntil).repeatUntil (word_derives "x")⟩
  -- behind the body
  · obtain ⟨us, rfl, hd⟩ := readBranch_sound hb
    refine (take_explained _ r1 s hs).behind (t :: us) rfl (fun r' s' hnext h => ?_) ?_
    · have hb' : plain (readBranch (us ++ r')) = .ok (s1, r') := hd.reads rfl hnext
      simp [plain_readStatement_repeat ht, hb', h, Except.bind]
    · rintro _ rfl
      exact ⟨[.word "x"], _, by
        simpa [ht] using (hd.endsStmt huntil).repeatUntil (word_derives "x")⟩
  -- in the condition
  · obtain ⟨us, rfl, hd⟩ := readBranch_sound hb
    obtain ⟨tu, rfl, htu⟩ := plain_take_eq_ok_iff.1 hu
    rw [nextLexeme_cons, htu] at hd
    refine (readExpr_explained r2 s hs).behind (t :: us ++ [tu]) (by simp) (fun r' s' _ h => ?_) ?_
    · have hb' : plain (readBranch (us ++ tu :: r')) = .ok (s1, tu :: r') :=
        hd.reads rfl (by simp [htu])
      have hu' : plain (take (.keyword .untilKw) (tu :: r')) = .ok ((), r') :=
        plain_take_eq_ok_iff.2 ⟨tu, rfl, htu⟩
      rw [show t :: us ++ [tu] ++ r' = t :: (us ++ tu :: r') by simp,
        plain_readStatement_repeat ht, hb']
      simp [Except.bind, Except.map, hu', h]
    · rintro w ⟨c, hc⟩
      exact ⟨[], _, by simpa [ht, htu] using hd.repeatUntil hc⟩

theorem readStatement_word_explained {name : String} (ht : t.lexeme = .word name) :
    StatementExplained (t :: r) := by
  intro s hs
  simp only [plain_readStatement_word ht, plain_readAssignment, bind_eq_error_iff,
    map_eq_error_iff] at hs
  obtain hs | ⟨⟨_, r1⟩, ha, hs⟩ := hs
  · refine (take_explained _ r s hs).behind [t] rfl (fun r' s' _ h => ?_) ?_
    · simp [plain_readStatement_word ht, plain_readAssignment, h, Except.bind]
    · rintro _ rfl
      exact ⟨[.word "x"], _, by simpa [ht] using DerivesStmt.assign (word_derives "x")⟩
  · obtain ⟨ta, rfl, hta⟩ := plain_take_eq_ok_iff.1 ha
    refine (readExpr_explained r1 s hs).behind [t, ta] rfl (fun r' s' _ h => ?_) ?_
    · have ha' : plain (take (.symbol .assign) (ta :: r')) = .ok ((), r') :=
        plain_take_eq_ok_iff.2 ⟨ta, rfl, hta⟩
      simp [plain_readStatement_word ht, plain_readAssignment, ha', h, Except.bind, Except.map]
    · rintro w ⟨e, he⟩
      exact ⟨[], _, by simpa [ht, hta] using DerivesStmt.assign he⟩

end Statement

theorem statement_explained_step {ts : List Token}
    (ih : ∀ r, r.length < ts.length → BranchExplained r) : StatementExplained ts := by
  have hjump : StmtEnds .statement [.keyword (jumpKeyword .leave)] := ⟨_, .jump⟩
  cases ts with
  | nil =>
    intro s hs
    obtain rfl : Stop.mk .unknownStatement [] = s := by simpa [plain_readStatement_nil] using hs
    exact .here hjump fun t r h => absurd h (by simp)
  | cons t r =>
    by_cases hst : StartsStatement t.lexeme
    · generalize ht : t.lexeme = l at hst
      cases hst with
      | write newline =>
        intro s hs
        simp only [plain_readStatement_write ht, map_eq_error_iff] at hs
        refine (readExpr_explained r s hs).behind [t] rfl (fun r' s' _ h => ?_) ?_
        · simp [plain_readStatement_write ht, h, Except.map]
        · rintro w ⟨e, he⟩
          exact ⟨[], _, by simpa [ht] using DerivesStmt.write he⟩
      | jump j =>
        intro s hs
        simp [plain_readStatement_jump ht] at hs
      | ifKw => exact readStatement_if_explained ht ih
      | whileKw => exact readStatement_while_explained ht ih
      | repeatKw => exact readStatement_repeat_explained ht ih
      | word name => exact readStatement_word_explained ht
    · intro s hs
      simp only [plain_readStatement_other hst, Except.error.injEq] at hs
      subst hs
      refine .here hjump fun t' r₀ hts r' => ⟨statementFault r', ?_⟩
      cases hts
      exact plain_readStatement_other hst r'

theorem branch_explained_step {ts : List Token} (ihs : StatementExplained ts)
    (ihb : ∀ r, r.length < ts.length → BlockExplained r) : BranchExplained ts := by
  intro s hs
  by_cases hb : nextLexeme ts = some (.keyword .beginKw)
  · cases ts with
    | nil => cases hb
    | cons t r =>
      have ht : t.lexeme = .keyword .beginKw := by simpa using hb
      simp only [plain_readBranch_block ht, map_eq_error_iff] at hs
      refine (ihb r (by simp) s hs).behind [t] rfl (fun r' s' _ h => ?_) ?_
      · simp [plain_readBranch_block ht, h, Except.map]
      · rintro _ ⟨v, ss, rfl, hss⟩
        exact ⟨[], _, by simpa [ht] using hss.block⟩
  · simp only [plain_readBranch_statement hb] at hs
    refine (ihs s hs).inside (fun ts' s' hnext h => ?_) ?_
    · rw [plain_readBranch_statement (hnext ▸ hb), h]
    · rintro w ⟨b, hb⟩
      exact ⟨[], b, by simpa using hb.single⟩

theorem ne_endKw_of_nextLexeme_eq {t : Token} {r ts : List Token}
    (h : nextLexeme ts = nextLexeme (t :: r)) (ht : t.lexeme ≠ .keyword .endKw) :
    ∃ t' r', ts = t' :: r' ∧ t'.lexeme ≠ .keyword .endKw := by
  cases ts with
  | nil => cases h
  | cons t' r' =>
    refine ⟨t', r', rfl, ?_⟩
    rw [nextLexeme_cons, nextLexeme_cons, Option.some.injEq] at h
    rwa [h]

theorem block_explained_step {ts : List Token} (ihs : StatementExplained ts)
    (ihb : ∀ r, r.length < ts.length → BlockExplained r) : BlockExplained ts := by
  intro s hs
  have hend : EndsStmt (some (.keyword .endKw)) := endsStmt_keyword (by simp)
  cases ts with
  | nil =>
    have hv : BlockEnds [.keyword .endKw] := ⟨[], [], rfl, .nil⟩
    obtain rfl : Stop.mk (.expected (.keyword .endKw)) [] = s := by
      simpa [plain_readBlock_nil] using hs
    exact .here hv fun t r h => absurd h (by simp)
  | cons t r =>
    by_cases ht : t.lexeme = .keyword .endKw
    · simp [plain_readBlock_end ht] at hs
    · simp only [plain_readBlock_cons ht, bind_eq_error_iff, map_eq_error_iff] at hs
      obtain hs | ⟨⟨s1, r1⟩, hs1, hs⟩ := hs
      -- in the first statement, which the end of the block completes
      · refine (ihs s hs).inside (fun ts' s' hnext h => ?_) ?_
        · obtain ⟨t', r', rfl, ht'⟩ := ne_endKw_of_nextLexeme_eq hnext ht
          simp only [plain_readBlock_cons ht', h, Except.bind]
        · rintro w ⟨b, hb⟩
          exact ⟨[.keyword .endKw], w, [b], rfl, (hb.endsStmt hend).sequence_single⟩
      · have hlt := length_lt_of_plain_eq_ok hs1
        obtain ⟨us, hus, hd⟩ := readStatement_sound hs1
        obtain ⟨tu, vs, rfl, htu⟩ := hd.exists_first_token
        refine (ihb r1 hlt s hs).behind (tu :: vs) hus (fun r' s' hnext h => ?_) ?_
        · have hs' : plain (readStatement (tu :: (vs ++ r'))) = .ok (s1, r') := hd.reads rfl hnext
          simp only [List.cons_append, plain_readBlock_cons htu.ne_endKw, hs', Except.bind, h,
            Except.map]
        · rintro _ ⟨v, ss, rfl, hss⟩
          exact ⟨[], _, s1 :: ss, by simp, hd.sequence_single.sequence_append hss hend⟩

theorem stmtReaders_explained :
    (∀ ts, StatementExplained ts) ∧ (∀ ts, BranchExplained ts) ∧ ∀ ts, BlockExplained ts :=
  stmtReader_induction (fun _ => statement_explained_step) (fun _ => branch_explained_step)
    (fun _ => block_explained_step)

/-- Whenever a program cannot be read, the first token left unread is to blame. -/
theorem readProgram_explained (ts : List Token) :
    Explained readProgram (fun w => ∃ ss, IsProgram w (.block ss)) ts := by
  induction hk : ts.length using Nat.strong_induction_on generalizing ts with
  | _ k ih =>
    intro s hs
    cases ts with
    | nil => simp at hs
    | cons t r =>
      rw [readProgram_cons, bind_eq_error_iff] at hs
      obtain hs | ⟨⟨s1, r1⟩, hs1, hs⟩ := hs
      · refine (stmtReaders_explained.1 (t :: r) s hs).inside (fun ts' s' hnext h => ?_) ?_
        · cases ts' with
          | nil => cases hnext
          | cons t' r' => simp only [readProgram_cons, h, Except.bind]
        · rintro w ⟨b, hb⟩
          refine ⟨[], [b], ?_⟩
          rw [List.append_nil]
          exact hb.sequence_single
      · rw [map_eq_error_iff] at hs
        have hlt := length_lt_of_plain_eq_ok hs1
        obtain ⟨us, hus, hd⟩ := readStatement_sound hs1
        obtain ⟨tu, vs, rfl, -⟩ := hd.exists_first_token
        refine (ih r1.length (hk ▸ hlt) r1 rfl s hs).behind (tu :: vs) hus
          (fun r' s' hnext h => ?_) ?_
        · have hs' : plain (readStatement (tu :: (vs ++ r'))) = .ok (s1, r') := hd.reads rfl hnext
          simp only [List.cons_append, readProgram_cons, hs', Except.bind, h, Except.map]
        · rintro w ⟨ss, hss⟩
          refine ⟨[], s1 :: ss, ?_⟩
          rw [List.append_nil]
          exact hd.sequence_single.sequence_append hss endsStmt_none

end BlockScript.Grammar

namespace BlockScript

open Grammar

/-- The parser fails on `ts` and blames position `k`. The position behind the last token is the end
of input. -/
structure FailsAt (ts : List Token) (k : Nat) (e : ParseError) : Prop where
  parse_eq : parse ts = .error e
  le_length : k ≤ ts.length
  stops : readProgram ts = .error ⟨e.fault, ts.drop k⟩
  source_eq : e.source = ts.getD k (endToken ts)

theorem failsAt_of_readProgram {us unread : List Token} {f : ParseFault}
    (h : readProgram (us ++ unread) = .error ⟨f, unread⟩) :
    FailsAt (us ++ unread) us.length ⟨f, unread.headD (endToken (us ++ unread))⟩ where
  parse_eq := by simp [parse, h, Stop.toError]
  le_length := by simp
  stops := by simpa using h
  source_eq := by cases unread <;> simp

/-- What is left unread tells the position. -/
theorem FailsAt.unique {ts : List Token} {k k' : Nat} {e : ParseError} (h : FailsAt ts k e)
    (h' : FailsAt ts k' e) : k = k' := by
  have hdrop : ts.drop k = ts.drop k' := by
    simpa using h.stops.symm.trans h'.stops
  have hlength := congrArg List.length hdrop
  rw [List.length_drop, List.length_drop] at hlength
  have hk := h.le_length
  have hk' := h'.le_length
  omega

/-- What can be completed to the lexemes of a program can be continued with tokens. -/
theorem exists_parse_append {us : List Token} {v : List Lexeme} {ss : List Stmt}
    (h : IsProgram (us.map Token.lexeme ++ v) (.block ss)) :
    ∃ u p, parse (us ++ u) = .ok p := by
  refine ⟨v.map fun l => ⟨l, 1⟩, .block ss, ?_⟩
  rw [parse_eq_ok_iff]
  exact ⟨ss, readProgram_eq_ok_iff.2 (by simpa [Function.comp_def] using h), rfl⟩

/-- **A failed parse blames the first token that cannot be part of any program.** What stands in
front of it can be continued to a program, and no program starts with what includes it. The end of
input is blamed exactly if the tokens can be continued. -/
theorem exists_failsAt_of_parse_error {ts : List Token} {e : ParseError}
    (h : parse ts = .error e) :
    ∃ k, FailsAt ts k e ∧ (∃ u p, parse (ts.take k ++ u) = .ok p) ∧
      (k < ts.length → ∀ ts' : List Token, ts'.take (k + 1) = ts.take (k + 1) →
        ∃ e', FailsAt ts' k e') ∧
      (k = ts.length ↔ ∃ u p, parse (ts ++ u) = .ok p) := by
  unfold parse at h
  cases hr : readProgram ts with
  | ok ss => simp [hr] at h
  | error s =>
    obtain ⟨us, hus, ⟨v, ss, hv⟩, hstop⟩ := readProgram_explained ts s hr
    obtain rfl : s.toError ts = e := by simpa [hr] using h
    obtain ⟨f, unread⟩ := s
    subst hus
    have hprefix : ∃ u p, parse (us ++ u) = .ok p := exists_parse_append hv
    have hblame : us.length < (us ++ unread).length → ∀ ts' : List Token,
        ts'.take (us.length + 1) = (us ++ unread).take (us.length + 1) →
          ∃ e', FailsAt ts' us.length e' := by
      intro hlt ts' hts'
      obtain ⟨t, r, rfl⟩ : ∃ t r, unread = t :: r := by
        cases unread with
        | nil => simp at hlt
        | cons t r => exact ⟨t, r, rfl⟩
      have htake : ts' = us ++ t :: ts'.drop (us.length + 1) := by
        conv_lhs => rw [← List.take_append_drop (us.length + 1) ts', hts']
        simp [List.take_append]
      obtain ⟨f', hf'⟩ := hstop t r rfl (ts'.drop (us.length + 1))
      rw [htake]
      exact ⟨_, failsAt_of_readProgram hf'⟩
    refine ⟨us.length, failsAt_of_readProgram hr, by simpa using hprefix, hblame, ?_⟩
    constructor
    · intro hlen
      obtain rfl : unread = [] := by simpa using hlen
      simpa using hprefix
    · rintro ⟨u, p, hu⟩
      by_contra hne
      have hlt : us.length < (us ++ unread).length := by
        simp only [List.length_append] at hne ⊢
        omega
      -- the continuation shares the blamed token, so it fails too
      obtain ⟨e', he'⟩ := hblame hlt (us ++ unread ++ u) (List.take_append_of_le_length hlt)
      rw [he'.parse_eq] at hu
      cases hu

/-- An `else` without its `if` is to blame, whatever follows it. What stands in front of it can be
continued to a program, and with it nothing can. -/
theorem exists_failsAt_else :
    FailsAt ([⟨.keyword .breakKw, 1⟩] ++ [⟨.keyword .elseKw, 2⟩]) 1
        ⟨.unknownStatement, ⟨.keyword .elseKw, 2⟩⟩ ∧
      (∃ u p, parse ([⟨.keyword .breakKw, 1⟩] ++ u) = .ok p) ∧
      (∀ r, ∃ e, FailsAt ([⟨.keyword .breakKw, 1⟩] ++ ⟨.keyword .elseKw, 2⟩ :: r) 1 e) ∧
      ¬ ∃ u p, parse ([⟨.keyword .breakKw, 1⟩] ++ [⟨.keyword .elseKw, 2⟩] ++ u) = .ok p := by
  have hbreak : plain (readStatement [⟨.keyword .breakKw, 1⟩, ⟨.keyword .elseKw, 2⟩]) =
      .ok (.jump .leave, [⟨.keyword .elseKw, 2⟩]) := plain_readStatement_jump rfl _
  have helse : plain (readStatement [⟨.keyword .elseKw, 2⟩]) =
      .error ⟨.unknownStatement, [⟨.keyword .elseKw, 2⟩]⟩ := by
    refine plain_readStatement_other (fun h => ?_) []
    exact h.endsStmt.2 rfl
  have hread : readProgram ([⟨.keyword .breakKw, 1⟩] ++ [⟨.keyword .elseKw, 2⟩]) =
      .error ⟨.unknownStatement, [⟨.keyword .elseKw, 2⟩]⟩ := by
    rw [List.singleton_append, readProgram_cons, hbreak]
    simp [Except.bind, Except.map, readProgram_cons, helse]
  have hfails := failsAt_of_readProgram hread
  obtain ⟨k, hk, hfront, hblame, hend⟩ := exists_failsAt_of_parse_error hfails.parse_eq
  obtain rfl : k = 1 := hk.unique hfails
  refine ⟨hk, hfront, fun r => hblame (by simp) _ rfl, fun h => ?_⟩
  exact absurd (hend.2 h) (by simp)

end BlockScript
