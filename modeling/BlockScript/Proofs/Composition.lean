import BlockScript.Proofs.Derivation
import Mathlib.Tactic

/-!
# How the readers are composed

A reader is put together from smaller ones in a few ways. What each of these ways hands on from the
parts to the whole holds of all readers, by induction on how they are composed.

* `Stuck`: the causes for which a reader stops.
* `Lexeme.delta`: by how much a lexeme changes the number of open blocks.
* `Composed`: the ways in which a reader is put together.
* `exprReaders_composed`, `stmtReaders_composed`, `readProgram_composed`: all readers are.
* `stuck_of_readProgram`: a program that cannot be read has a cause for it.
-/

namespace BlockScript

/-- By how much the lexeme changes the number of open blocks. -/
def Lexeme.delta : Lexeme → Int
  | .keyword .beginKw => 1
  | .keyword .endKw => -1
  | _ => 0

namespace Grammar

variable {α β : Type} {d : Int} {ts : List Token}

/-- The fault is what is wrong with the first unread token, or with the end of input. -/
inductive Stuck : Stop → Prop
  | expected {l : Lexeme} {ts : List Token} (h : nextLexeme ts ≠ some l) : Stuck ⟨.expected l, ts⟩
  | expression {t : Token} {r : List Token} {f : ParseFault}
      (hparen : t.lexeme ≠ .symbol .leftParen) (h : atom t.lexeme = .error f) : Stuck ⟨f, t :: r⟩
  | noExpression : Stuck ⟨.unknownExpression, []⟩
  | statement {t : Token} {r : List Token} (h : ¬ StartsStatement t.lexeme) :
      Stuck ⟨statementFault r, t :: r⟩
  | noStatement : Stuck ⟨.unknownStatement, []⟩

/-- Only a single token that should be a number is a malformed one. -/
theorem Stuck.atom_eq_error {s : Stop} (h : Stuck s) (hfault : s.fault = .malformedNumber) :
    ∃ t r, s.unread = t :: r ∧ atom t.lexeme = .error .malformedNumber := by
  cases h with
  | expected h => cases hfault
  | @expression t r f hparen h => exact ⟨t, r, rfl, h.trans (congrArg _ hfault)⟩
  | noExpression => cases hfault
  | @statement t r h =>
    have hother : statementFault r ≠ .malformedNumber := by
      unfold statementFault
      split <;> simp
    exact absurd hfault hother
  | noStatement => cases hfault

/-- The ways in which a reader is put together. `Composed d ts x`: a reader that makes `x` of the
tokens `ts` is put together so, and if it finds something, the tokens it took open `d` more blocks
than they close. -/
inductive Composed : {α : Type} → Int → List Token → Except Stop (α × List Token) → Prop
  | found {α : Type} (a : α) (ts : List Token) : Composed 0 ts (.ok (a, ts))
  | stuck {α : Type} {s : Stop} (h : Stuck s) (hend : s.fault ≠ .expected (.keyword .endKw)) :
      Composed 0 s.unread (.error s : Except Stop (α × List Token))
  | noEnd {α : Type} :
      Composed (-1) [] (.error ⟨.expected (.keyword .endKw), []⟩ : Except Stop (α × List Token))
  /-- The reader takes a token first. -/
  | behind {α : Type} {d d' : Int} {t : Token} {ts : List Token}
      {x : Except Stop (α × List Token)} (h : Composed d ts x) (hd : t.lexeme.delta + d = d') :
      Composed d' (t :: ts) x
  | map {α β : Type} {d : Int} {ts : List Token} {x : Except Stop (α × List Token)}
      {f : α × List Token → β × List Token} (h : Composed d ts x) (hf : ∀ p, (f p).2 = p.2) :
      Composed d ts (x.map f)
  /-- A closing parenthesis may follow. -/
  | closed {α : Type} {d : Int} {ts : List Token} {x : Except Stop (α × List Token)}
      (h : Composed d ts x) : Composed d ts (x.map fun p => (p.1, skipRightParen p.2))
  /-- Another reader follows. -/
  | bind {α β : Type} {d : Int} {ts : List Token} {x : Except Stop (α × List Token)}
      {f : α × List Token → Except Stop (β × List Token)} (h : Composed 0 ts x) (hd : d ≤ 0)
      (hf : ∀ p, x = .ok p → Composed d p.2 (f p)) : Composed d ts (x.bind f)

/-- Whenever a reader stops, there is a cause. -/
theorem Composed.stuck_of_eq_error {x : Except Stop (α × List Token)} (h : Composed d ts x)
    {s : Stop} (hs : x = .error s) : Stuck s := by
  induction h with
  | found a ts => cases hs
  | stuck h hend =>
    cases hs
    exact h
  | noEnd =>
    cases hs
    exact .expected (by simp)
  | behind h hd ih => exact ih hs
  | map h hf ih => exact ih (map_eq_error_iff.1 hs)
  | closed h ih => exact ih (map_eq_error_iff.1 hs)
  | bind h hd hf ih ihf =>
    obtain hs | ⟨p, hp, hs⟩ := bind_eq_error_iff.1 hs
    · exact ih hs
    · exact ihf p hp hs

theorem take_composed {l : Lexeme} (hl : l.delta = 0) (ts : List Token) :
    Composed 0 ts (plain (take l ts)) := by
  cases htake : plain (take l ts) with
  | ok p =>
    obtain ⟨t, rfl, rfl⟩ := plain_take_eq_ok_iff.1 htake
    exact .behind (.found p.1 p.2) (by rw [hl, zero_add])
  | error s =>
    obtain ⟨hnext, rfl⟩ := plain_take_eq_error_iff.1 htake
    refine .stuck (.expected hnext) ?_
    rintro ⟨⟩
    cases hl

/-! ### Expressions -/

theorem Operator.delta_eq_zero {n : Nat} {l : Lexeme} {f : Expr → Expr → Expr}
    (h : Operator n l f) : l.delta = 0 := by
  cases h <;> rfl

theorem delta_of_atom_eq_ok {l : Lexeme} {e : Expr} (h : atom l = .ok e) : l.delta = 0 := by
  cases l with
  | keyword k => cases h
  | _ => rfl

theorem ne_expected_of_atom_eq_error {l k : Lexeme} {f : ParseFault} (h : atom l = .error f) :
    f ≠ .expected k := by
  rintro rfl
  cases l with
  | number ds => cases hx : numberPayload? ds <;> simp [atom, hx] at h
  | hex ds => cases hx : hexPayload? ds <;> simp [atom, hx] at h
  | _ => cases h

theorem primary_composed_step {ts : List Token}
    (ih : ∀ r, r.length < ts.length → Composed 0 r (plain (readRank topRank r))) :
    Composed 0 ts (plain (readPrimary ts)) := by
  cases ts with
  | nil =>
    rw [plain_readPrimary_nil]
    exact .stuck .noExpression (by simp)
  | cons t r =>
    by_cases ht : t.lexeme = .symbol .leftParen
    · rw [plain_readPrimary_paren ht]
      exact .behind (.closed (ih r (by simp))) (by simp [ht, Lexeme.delta])
    · rw [plain_readPrimary_atom ht]
      cases ha : atom t.lexeme with
      | ok e => exact .behind (.found e r) (by simp [delta_of_atom_eq_ok ha])
      | error f => exact .stuck (.expression ht ha) (ne_expected_of_atom_eq_error ha)

theorem rank_zero_composed_step {ts : List Token} (ih : Composed 0 ts (plain (readPrimary ts)))
    (ih' : ∀ r, r.length < ts.length → Composed 0 r (plain (readPrimary r))) :
    Composed 0 ts (plain (readRank 0 ts)) := by
  cases ts with
  | nil =>
    rw [plain_readRank_zero_primary (by simp)]
    exact ih
  | cons t r =>
    cases hsign : sign? t.lexeme with
    | some s =>
      rw [plain_readRank_zero_signed hsign]
      exact .behind (.map (ih' r (by simp)) fun _ => rfl)
        (by simp [sign?_eq_some_iff.1 hsign, Lexeme.delta])
    | none =>
      rw [plain_readRank_zero_primary (by rintro _ _ ⟨⟩; exact hsign)]
      exact ih

theorem rank_succ_composed_step {n : Nat} {ts : List Token}
    (ihr : Composed 0 ts (plain (readRank n ts)))
    (ihc : ∀ x r, r.length < ts.length → Composed 0 r (plain (readChain n x r))) :
    Composed 0 ts (plain (readRank (n + 1) ts)) := by
  rw [plain_readRank_succ]
  exact ihr.bind le_rfl fun p hp => ihc _ _ (length_lt_of_plain_eq_ok hp)

theorem chain_composed_step {n : Nat} {x : Expr} {ts : List Token}
    (ihr : ∀ r, r.length < ts.length → Composed 0 r (plain (readRank n r)))
    (ihc : ∀ y r, r.length < ts.length → Composed 0 r (plain (readChain n y r))) :
    Composed 0 ts (plain (readChain n x ts)) := by
  cases ts with
  | nil =>
    rw [plain_readChain_stop (by simp)]
    exact .found x []
  | cons t r =>
    cases hop : binary? (n + 1) t.lexeme with
    | none =>
      rw [plain_readChain_stop (by rintro _ _ ⟨⟩; exact hop)]
      exact .found x (t :: r)
    | some op =>
      have hdelta : t.lexeme.delta + 0 = 0 := by
        rw [(binary?_eq_some_iff.1 hop).delta_eq_zero, zero_add]
      by_cases hn : n + 1 = equalityRank
      · rw [plain_readChain_equality hn hop]
        exact .behind (.map (ihr r (by simp)) fun _ => rfl) hdelta
      · rw [plain_readChain_further hn hop]
        refine .behind (.bind (ihr r (by simp)) le_rfl fun p hp => ?_) hdelta
        exact ihc _ _ (Nat.lt_succ_of_lt (length_lt_of_plain_eq_ok hp))

theorem exprReaders_composed :
    (∀ ts, Composed 0 ts (plain (readPrimary ts))) ∧
      (∀ n ts, Composed 0 ts (plain (readRank n ts))) ∧
      ∀ n x ts, Composed 0 ts (plain (readChain n x ts)) :=
  exprReader_induction (fun _ => primary_composed_step) (fun _ => rank_zero_composed_step)
    (fun _ _ => rank_succ_composed_step) (fun _ _ _ => chain_composed_step)

theorem readExpr_composed (ts : List Token) : Composed 0 ts (plain (readExpr ts)) :=
  exprReaders_composed.2.1 topRank ts

/-- In front of a token that says nothing, no expression can be read. -/
theorem readRank_eq_error {t : Token} {f : ParseFault} (hparen : t.lexeme ≠ .symbol .leftParen)
    (hsign : sign? t.lexeme = none) (h : atom t.lexeme = .error f) (n : Nat) (r : List Token) :
    plain (readRank n (t :: r)) = .error ⟨f, t :: r⟩ := by
  induction n with
  | zero =>
    rw [plain_readRank_zero_primary (by rintro _ _ ⟨⟩; exact hsign), plain_readPrimary_atom hparen,
      h]
  | succ n ih =>
    rw [plain_readRank_succ, ih]
    rfl

/-! ### Statements -/

theorem readCondition_composed {k : Keyword} (hk : (Lexeme.keyword k).delta = 0)
    (ts : List Token) : Composed 0 ts (plain (readCondition k ts)) := by
  rw [plain_readCondition]
  exact (readExpr_composed ts).bind le_rfl fun c _ => (take_composed hk c.2).map fun _ => rfl

/-- A lexeme that starts a statement neither opens nor closes a block. -/
theorem StartsStatement.delta_eq_zero {l : Lexeme} (h : StartsStatement l) : l.delta = 0 := by
  cases h with
  | write newline => cases newline <;> rfl
  | jump j => cases j <;> rfl
  | _ => rfl

theorem statement_composed_step {ts : List Token}
    (ih : ∀ r, r.length < ts.length → Composed 0 r (plain (readBranch r))) :
    Composed 0 ts (plain (readStatement ts)) := by
  cases ts with
  | nil =>
    rw [plain_readStatement_nil]
    exact .stuck .noStatement (by simp)
  | cons t r =>
    by_cases hst : StartsStatement t.lexeme
    · have hdelta : t.lexeme.delta + 0 = 0 := by
        rw [hst.delta_eq_zero, zero_add]
      generalize ht : t.lexeme = l at hst
      cases hst with
      | write newline =>
        rw [plain_readStatement_write ht]
        exact .behind (.map (readExpr_composed r) fun _ => rfl) hdelta
      | jump j =>
        rw [plain_readStatement_jump ht]
        exact .behind (.found _ r) hdelta
      | ifKw =>
        rw [plain_readStatement_if ht]
        refine .behind (.bind (readCondition_composed rfl r) le_rfl fun c hc => ?_) hdelta
        have hlt := Nat.lt_succ_of_lt (length_lt_of_plain_eq_ok hc)
        refine (ih c.2 hlt).bind le_rfl fun b hb => ?_
        have hlt' := Nat.lt_trans (length_lt_of_plain_eq_ok hb) hlt
        -- a missing `else` is no fault of the statement
        cases helse : plain (take (.keyword .elseKw) b.2) with
        | error s => exact .found _ b.2
        | ok u =>
          obtain ⟨te, hb2, hte⟩ := plain_take_eq_ok_iff.1 helse
          have hbranch := ih u.2 (Nat.lt_trans (length_lt_of_plain_eq_ok helse) hlt')
          rw [hb2]
          exact .behind (.map hbranch fun _ => rfl) (by simp [hte, Lexeme.delta])
      | whileKw =>
        rw [plain_readStatement_while ht]
        refine .behind (.bind (readCondition_composed rfl r) le_rfl fun c hc => ?_) hdelta
        exact (ih c.2 (Nat.lt_succ_of_lt (length_lt_of_plain_eq_ok hc))).map fun _ => rfl
      | repeatKw =>
        rw [plain_readStatement_repeat ht]
        refine .behind (.bind (ih r (by simp)) le_rfl fun b _ => ?_) hdelta
        exact (take_composed rfl b.2).bind le_rfl fun u _ =>
          (readExpr_composed u.2).map fun _ => rfl
      | word name =>
        rw [plain_readStatement_word ht, plain_readAssignment]
        refine .behind (.bind (take_composed rfl r) le_rfl fun a _ => ?_) hdelta
        exact (readExpr_composed a.2).map fun _ => rfl
    · rw [plain_readStatement_other hst]
      refine .stuck (.statement hst) ?_
      unfold statementFault
      split <;> simp

theorem branch_composed_step {ts : List Token} (ihs : Composed 0 ts (plain (readStatement ts)))
    (ihb : ∀ r, r.length < ts.length → Composed (-1) r (plain (readBlock r))) :
    Composed 0 ts (plain (readBranch ts)) := by
  by_cases hbegin : nextLexeme ts = some (.keyword .beginKw)
  · cases ts with
    | nil => cases hbegin
    | cons t r =>
      have ht : t.lexeme = .keyword .beginKw := by simpa using hbegin
      rw [plain_readBranch_block ht]
      exact .behind (.map (ihb r (by simp)) fun _ => rfl) (by simp [ht, Lexeme.delta])
  · rw [plain_readBranch_statement hbegin]
    exact ihs

/-- Inside a block one `end` more is taken than `begin`s. -/
theorem block_composed_step {ts : List Token} (ihs : Composed 0 ts (plain (readStatement ts)))
    (ihb : ∀ r, r.length < ts.length → Composed (-1) r (plain (readBlock r))) :
    Composed (-1) ts (plain (readBlock ts)) := by
  cases ts with
  | nil =>
    rw [plain_readBlock_nil]
    exact .noEnd
  | cons t r =>
    by_cases ht : t.lexeme = .keyword .endKw
    · rw [plain_readBlock_end ht]
      exact .behind (.found _ r) (by simp [ht, Lexeme.delta])
    · rw [plain_readBlock_cons ht]
      exact ihs.bind (by simp) fun p hp =>
        (ihb p.2 (length_lt_of_plain_eq_ok hp)).map fun _ => rfl

theorem stmtReaders_composed :
    (∀ ts, Composed 0 ts (plain (readStatement ts))) ∧
      (∀ ts, Composed 0 ts (plain (readBranch ts))) ∧
      ∀ ts, Composed (-1) ts (plain (readBlock ts)) :=
  stmtReader_induction (fun _ => statement_composed_step) (fun _ => branch_composed_step)
    (fun _ => block_composed_step)

/-- The reader of programs leaves nothing unread. -/
theorem readProgram_composed (ts : List Token) :
    Composed 0 ts ((readProgram ts).map fun ss => (ss, [])) := by
  induction hk : ts.length using Nat.strong_induction_on generalizing ts with
  | _ k ih =>
    cases ts with
    | nil =>
      rw [readProgram_nil]
      exact .found _ []
    | cons t r =>
      have hmap : (readProgram (t :: r)).map (fun ss => (ss, ([] : List Token))) =
          (plain (readStatement (t :: r))).bind fun s =>
            ((readProgram s.2).map fun ss => (ss, [])).map fun p => (s.1 :: p.1, p.2) := by
        rw [readProgram_cons]
        cases plain (readStatement (t :: r)) with
        | error s => rfl
        | ok s =>
          simp only [Except.bind]
          cases readProgram s.2 <;> rfl
      rw [hmap]
      refine (stmtReaders_composed.1 (t :: r)).bind le_rfl fun p hp => ?_
      exact (ih p.2.length (hk ▸ length_lt_of_plain_eq_ok hp) p.2 rfl).map fun _ => rfl

/-- A program that cannot be read has a cause for it. -/
theorem stuck_of_readProgram {s : Stop} (h : readProgram ts = .error s) : Stuck s :=
  (readProgram_composed ts).stuck_of_eq_error (map_eq_error_iff.2 h)

end Grammar

end BlockScript
