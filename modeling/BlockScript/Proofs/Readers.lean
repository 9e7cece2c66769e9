import BlockScript.Grammar.Statement

/-!
# The readers and what they leave

A reader carries a bound on the tokens it leaves. `plain` forgets the bound, so that what a reader
makes of two lists can be compared.

* `plain`: the value and the unread tokens, or why and where the reader stops.
* `plain_readRank_succ`, `plain_readChain_cons`, …: each reader in terms of the readers it calls.
* `exprReader_induction`, `stmtReader_induction`: a property of what the readers make of a list
  follows from the same property of shorter lists.
* `parse_eq_ok_iff`, `parse_eq_error_iff`: the parser in terms of the reader of programs.
-/

namespace BlockScript.Grammar

variable {α β : Type} {m n : Nat}

/-- What a reader makes of its tokens, without the bound on those it leaves. -/
def plain (x : Except Stop (Found α m)) : Except Stop (α × List Token) :=
  x.map fun f => (f.value, f.rest)

@[simp] theorem plain_ok (f : Found α m) :
    plain (.ok f : Except Stop (Found α m)) = .ok (f.value, f.rest) := rfl

@[simp] theorem plain_error (s : Stop) :
    plain (.error s : Except Stop (Found α m)) = .error s := rfl

/-- A reader that finds something leaves fewer tokens than its bound. -/
theorem length_lt_of_plain_eq_ok {x : Except Stop (Found α m)} {v : α} {r : List Token}
    (h : plain x = .ok (v, r)) : r.length < m := by
  cases x with
  | error s => simp at h
  | ok f =>
    simp only [plain_ok, Except.ok.injEq, Prod.mk.injEq] at h
    exact h.2 ▸ f.rest_lt

theorem bind_eq_ok_iff {x : Except Stop α} {f : α → Except Stop β} {b : β} :
    x.bind f = .ok b ↔ ∃ a, x = .ok a ∧ f a = .ok b := by
  cases x <;> simp [Except.bind]

theorem bind_eq_error_iff {x : Except Stop α} {f : α → Except Stop β} {s : Stop} :
    x.bind f = .error s ↔ x = .error s ∨ ∃ a, x = .ok a ∧ f a = .error s := by
  cases x <;> simp [Except.bind]

theorem map_eq_ok_iff {x : Except Stop α} {f : α → β} {b : β} :
    x.map f = .ok b ↔ ∃ a, x = .ok a ∧ f a = b := by
  cases x <;> simp [Except.map]

theorem map_eq_error_iff {x : Except Stop α} {f : α → β} {s : Stop} :
    x.map f = .error s ↔ x = .error s := by
  cases x <;> simp [Except.map]

/-- The lexeme of the next token. -/
def nextLexeme (ts : List Token) : Option Lexeme :=
  ts.head?.map Token.lexeme

@[simp] theorem nextLexeme_nil : nextLexeme [] = none := rfl

@[simp] theorem nextLexeme_cons (t : Token) (r : List Token) :
    nextLexeme (t :: r) = some t.lexeme := rfl

/-! ### Single lexemes -/

theorem plain_take_eq_ok_iff {l : Lexeme} {ts r : List Token} {u : Unit} :
    plain (take l ts) = .ok (u, r) ↔ ∃ t, ts = t :: r ∧ t.lexeme = l := by
  cases ts with
  | nil => simp [take]
  | cons t r' =>
    by_cases h : t.lexeme = l
    · simp [take, h, and_assoc]
    · simp only [take, if_neg h, plain_error, reduceCtorEq, false_iff]
      rintro ⟨t', ht, hl⟩
      cases ht
      exact h hl

theorem plain_take_eq_error_iff {l : Lexeme} {ts : List Token} {s : Stop} :
    plain (take l ts) = .error s ↔ nextLexeme ts ≠ some l ∧ s = ⟨.expected l, ts⟩ := by
  cases ts with
  | nil => simp [take, eq_comm]
  | cons t r =>
    by_cases h : t.lexeme = l
    · simp [take, h]
    · simp [take, h, @eq_comm _ s]

/-! ### Expressions -/

theorem plain_readPrimary_nil : plain (readPrimary []) = .error ⟨.unknownExpression, []⟩ := by
  rw [readPrimary]; rfl

theorem plain_readPrimary_paren {t : Token} (h : t.lexeme = .symbol .leftParen) (r : List Token) :
    plain (readPrimary (t :: r)) =
      (plain (readRank topRank r)).map fun p => (p.1, skipRightParen p.2) := by
  rw [readPrimary, if_pos h]
  cases readRank topRank r <;> rfl

theorem plain_readPrimary_atom {t : Token} (h : t.lexeme ≠ .symbol .leftParen) (r : List Token) :
    plain (readPrimary (t :: r)) =
      match atom t.lexeme with
      | .error f => .error ⟨f, t :: r⟩
      | .ok e => .ok (e, r) := by
  rw [readPrimary, if_neg h]
  cases atom t.lexeme <;> rfl

theorem plain_readRank_zero_signed {t : Token} {s : Sign} (h : sign? t.lexeme = some s)
    (r : List Token) :
    plain (readRank 0 (t :: r)) =
      (plain (readPrimary r)).map fun p => (.signed s p.1, p.2) := by
  rw [readRank, readSigned]
  split
  · next s' hs =>
    obtain rfl : s = s' := by simpa [h] using hs
    cases readPrimary r <;> rfl
  · next hs => simp [h] at hs

theorem plain_readRank_zero_primary {ts : List Token}
    (h : ∀ t r, ts = t :: r → sign? t.lexeme = none) :
    plain (readRank 0 ts) = plain (readPrimary ts) := by
  rw [readRank]
  cases ts with
  | nil => rw [readSigned, readPrimary]
  | cons t r =>
    rw [readSigned]
    split
    · next s hs => simp [h t r rfl] at hs
    · rfl

theorem plain_readRank_succ (n : Nat) (ts : List Token) :
    plain (readRank (n + 1) ts) =
      (plain (readRank n ts)).bind fun p => plain (readChain n p.1 p.2) := by
  rw [readRank]
  cases readRank n ts with
  | error s => rfl
  | ok x =>
    simp only [plain_ok, Except.bind]
    cases readChain n x.value x.rest <;> rfl

theorem plain_readChain_stop {n : Nat} {ts : List Token}
    (h : ∀ t r, ts = t :: r → binary? (n + 1) t.lexeme = none) (x : Expr) :
    plain (readChain n x ts) = .ok (x, ts) := by
  cases ts with
  | nil => rw [readChain]; rfl
  | cons t r =>
    rw [readChain]
    split
    · rfl
    · next op ho => simp [h t r rfl] at ho

theorem plain_readChain_equality {n : Nat} {t : Token} {op : Expr → Expr → Expr}
    (hn : n + 1 = equalityRank) (h : binary? (n + 1) t.lexeme = some op) (x : Expr)
    (r : List Token) :
    plain (readChain n x (t :: r)) = (plain (readRank n r)).map fun p => (op x p.1, p.2) := by
  rw [readChain]
  split
  · next ho => simp [h] at ho
  · next op' ho =>
    obtain rfl : op = op' := by simpa [h] using ho
    cases readRank n r with
    | error s => rfl
    | ok y => simp only [if_pos hn]; rfl

theorem plain_readChain_further {n : Nat} {t : Token} {op : Expr → Expr → Expr}
    (hn : n + 1 ≠ equalityRank) (h : binary? (n + 1) t.lexeme = some op) (x : Expr)
    (r : List Token) :
    plain (readChain n x (t :: r)) =
      (plain (readRank n r)).bind fun p => plain (readChain n (op x p.1) p.2) := by
  rw [readChain]
  split
  · next ho => simp [h] at ho
  · next op' ho =>
    obtain rfl : op = op' := by simpa [h] using ho
    cases readRank n r with
    | error s => rfl
    | ok y =>
      simp only [if_neg hn, plain_ok, Except.bind]
      cases readChain n (op x y.value) y.rest <;> rfl

/-! ### Statements -/

theorem plain_readCondition (k : Keyword) (ts : List Token) :
    plain (readCondition k ts) =
      (plain (readExpr ts)).bind fun c =>
        (plain (take (.keyword k) c.2)).map fun u => (c.1, u.2) := by
  rw [readCondition]
  cases readExpr ts with
  | error s => rfl
  | ok c =>
    simp only [plain_ok, Except.bind]
    cases take (.keyword k) c.rest <;> rfl

theorem plain_readAssignment (name : String) (ts : List Token) :
    plain (readAssignment name ts) =
      (plain (take (.symbol .assign) ts)).bind fun a =>
        (plain (readExpr a.2)).map fun e => (.assign name e.1, e.2) := by
  rw [readAssignment]
  cases take (.symbol .assign) ts with
  | error s => rfl
  | ok a =>
    simp only [plain_ok, Except.bind]
    cases readExpr a.rest <;> rfl

theorem plain_readStatement_nil :
    plain (readStatement []) = .error ⟨.unknownStatement, []⟩ := by
  rw [readStatement]; rfl

/-- The keyword of a statement that writes, by whether it ends the line. -/
def writeKeyword : Bool → Keyword
  | true => .writelnKw
  | false => .writeKw

/-- The keyword of a jump. -/
def jumpKeyword : Jump → Keyword
  | .leave => .breakKw
  | .next => .continueKw

/-- The lexemes that a statement starts with. -/
inductive StartsStatement : Lexeme → Prop
  | write (newline : Bool) : StartsStatement (.keyword (writeKeyword newline))
  | jump (j : Jump) : StartsStatement (.keyword (jumpKeyword j))
  | ifKw : StartsStatement (.keyword .ifKw)
  | whileKw : StartsStatement (.keyword .whileKw)
  | repeatKw : StartsStatement (.keyword .repeatKw)
  | word (name : String) : StartsStatement (.word name)

theorem plain_readStatement_write {t : Token} {newline : Bool}
    (h : t.lexeme = .keyword (writeKeyword newline)) (r : List Token) :
    plain (readStatement (t :: r)) =
      (plain (readExpr r)).map fun e => (.write e.1 newline, e.2) := by
  rw [readStatement, h]
  cases newline <;>
  · simp only [writeKeyword, readWrite]
    cases readExpr r <;> rfl

theorem plain_readStatement_jump {t : Token} {j : Jump}
    (h : t.lexeme = .keyword (jumpKeyword j)) (r : List Token) :
    plain (readStatement (t :: r)) = .ok (.jump j, r) := by
  rw [readStatement, h]
  cases j <;> rfl

theorem plain_readStatement_if {t : Token} (h : t.lexeme = .keyword .ifKw) (r : List Token) :
    plain (readStatement (t :: r)) =
      (plain (readCondition .thenKw r)).bind fun c =>
        (plain (readBranch c.2)).bind fun s =>
          match plain (take (.keyword .elseKw) s.2) with
          | .error _ => .ok (.ifThen c.1 s.1, s.2)
          | .ok u => (plain (readBranch u.2)).map fun o => (.ifElse c.1 s.1 o.1, o.2) := by
  rw [readStatement, h]
  simp only
  cases readCondition .thenKw r with
  | error s => rfl
  | ok c =>
    simp only [plain_ok, Except.bind]
    cases readBranch c.rest with
    | error s => rfl
    | ok s =>
      simp only [plain_ok]
      cases take (.keyword .elseKw) s.rest with
      | error _ => rfl
      | ok u =>
        simp only [plain_ok]
        cases readBranch u.rest <;> rfl

theorem plain_readStatement_while {t : Token} (h : t.lexeme = .keyword .whileKw)
    (r : List Token) :
    plain (readStatement (t :: r)) =
      (plain (readCondition .doKw r)).bind fun c =>
        (plain (readBranch c.2)).map fun s => (.whileDo c.1 s.1, s.2) := by
  rw [readStatement, h]
  simp only
  cases readCondition .doKw r with
  | error s => rfl
  | ok c =>
    simp only [plain_ok, Except.bind]
    cases readBranch c.rest <;> rfl

theorem plain_readStatement_repeat {t : Token} (h : t.lexeme = .keyword .repeatKw)
    (r : List Token) :
    plain (readStatement (t :: r)) =
      (plain (readBranch r)).bind fun s =>
        (plain (take (.keyword .untilKw) s.2)).bind fun u =>
          (plain (readExpr u.2)).map fun c => (.repeatUntil s.1 c.1, c.2) := by
  rw [readStatement, h]
  simp only
  cases readBranch r with
  | error s => rfl
  | ok s =>
    simp only [plain_ok, Except.bind]
    cases take (.keyword .untilKw) s.rest with
    | error _ => rfl
    | ok u =>
      simp only [plain_ok]
      cases readExpr u.rest <;> rfl

theorem plain_readStatement_word {t : Token} {name : String} (h : t.lexeme = .word name)
    (r : List Token) : plain (readStatement (t :: r)) = plain (readAssignment name r) := by
  rw [readStatement, h]
  simp only
  cases readAssignment name r <;> rfl

theorem plain_readStatement_other {t : Token} (h : ¬ StartsStatement t.lexeme)
    (r : List Token) :
    plain (readStatement (t :: r)) = .error ⟨statementFault r, t :: r⟩ := by
  rw [readStatement]
  split
  · next hl => exact absurd (hl ▸ .write true) h
  · next hl => exact absurd (hl ▸ .write false) h
  · next hl => exact absurd (hl ▸ .jump .leave) h
  · next hl => exact absurd (hl ▸ .jump .next) h
  · next hl => exact absurd (hl ▸ .ifKw) h
  · next hl => exact absurd (hl ▸ .whileKw) h
  · next hl => exact absurd (hl ▸ .repeatKw) h
  · next name hl => exact absurd (hl ▸ .word name) h
  · rfl

theorem plain_readBranch_block {t : Token} (h : t.lexeme = .keyword .beginKw) (r : List Token) :
    plain (readBranch (t :: r)) = (plain (readBlock r)).map fun b => (.block b.1, b.2) := by
  rw [readBranch]
  simp only [take, if_pos h]
  cases readBlock r <;> rfl

theorem plain_readBranch_statement {ts : List Token}
    (h : nextLexeme ts ≠ some (.keyword .beginKw)) :
    plain (readBranch ts) = plain (readStatement ts) := by
  rw [readBranch]
  cases ts with
  | nil => rfl
  | cons t r =>
    have ht : t.lexeme ≠ .keyword .beginKw := by simpa using h
    simp only [take, if_neg ht]

theorem plain_readBlock_nil :
    plain (readBlock []) = .error ⟨.expected (.keyword .endKw), []⟩ := by
  rw [readBlock]; rfl

theorem plain_readBlock_end {t : Token} (h : t.lexeme = .keyword .endKw) (r : List Token) :
    plain (readBlock (t :: r)) = .ok ([], r) := by
  rw [readBlock, if_pos h]; rfl

theorem plain_readBlock_cons {t : Token} (h : t.lexeme ≠ .keyword .endKw) (r : List Token) :
    plain (readBlock (t :: r)) =
      (plain (readStatement (t :: r))).bind fun s =>
        (plain (readBlock s.2)).map fun b => (s.1 :: b.1, b.2) := by
  rw [readBlock, if_neg h]
  cases readStatement (t :: r) with
  | error s => rfl
  | ok s =>
    simp only [plain_ok, Except.bind]
    cases readBlock s.rest <;> rfl

@[simp] theorem readProgram_nil : readProgram [] = .ok [] := by
  rw [readProgram]

theorem readProgram_cons (t : Token) (r : List Token) :
    readProgram (t :: r) =
      (plain (readStatement (t :: r))).bind fun s =>
        (readProgram s.2).map fun ss => s.1 :: ss := by
  rw [readProgram]
  cases readStatement (t :: r) with
  | error s => rfl
  | ok s =>
    simp only [plain_ok, Except.bind]
    cases readProgram s.rest <;> rfl

/-! ### Induction on the tokens left -/

/-- A property of the readers of expressions, from the same property of what they leave. -/
theorem exprReader_induction {P : List Token → Prop} {R : Nat → List Token → Prop}
    {C : Nat → Expr → List Token → Prop}
    (primary : ∀ ts, (∀ r, r.length < ts.length → R topRank r) → P ts)
    (signed : ∀ ts, P ts → (∀ r, r.length < ts.length → P r) → R 0 ts)
    (rank : ∀ n ts, R n ts → (∀ x r, r.length < ts.length → C n x r) → R (n + 1) ts)
    (chain : ∀ n x ts, (∀ r, r.length < ts.length → R n r) →
      (∀ y r, r.length < ts.length → C n y r) → C n x ts) :
    (∀ ts, P ts) ∧ (∀ n ts, R n ts) ∧ ∀ n x ts, C n x ts := by
  have all : ∀ k, ∀ ts : List Token, ts.length = k →
      P ts ∧ (∀ n, R n ts) ∧ ∀ n x, C n x ts := by
    intro k
    induction k using Nat.strongRecOn with
    | ind k ih =>
      rintro ts rfl
      have hP : P ts := primary ts fun r hr => (ih r.length hr r rfl).2.1 topRank
      refine ⟨hP, fun n => ?_, fun n x => ?_⟩
      · induction n with
        | zero => exact signed ts hP fun r hr => (ih r.length hr r rfl).1
        | succ n ihn => exact rank n ts ihn fun x r hr => (ih r.length hr r rfl).2.2 n x
      · exact chain n x ts (fun r hr => (ih r.length hr r rfl).2.1 n)
          fun y r hr => (ih r.length hr r rfl).2.2 n y
  exact ⟨fun ts => (all _ ts rfl).1, fun n ts => (all _ ts rfl).2.1 n,
    fun n x ts => (all _ ts rfl).2.2 n x⟩

/-- A property of the readers of statements, from the same property of what they leave. -/
theorem stmtReader_induction {S B K : List Token → Prop}
    (statement : ∀ ts, (∀ r, r.length < ts.length → B r) → S ts)
    (branch : ∀ ts, S ts → (∀ r, r.length < ts.length → K r) → B ts)
    (block : ∀ ts, S ts → (∀ r, r.length < ts.length → K r) → K ts) :
    (∀ ts, S ts) ∧ (∀ ts, B ts) ∧ ∀ ts, K ts := by
  have all : ∀ k, ∀ ts : List Token, ts.length = k → S ts ∧ B ts ∧ K ts := by
    intro k
    induction k using Nat.strongRecOn with
    | ind k ih =>
      rintro ts rfl
      have hS : S ts := statement ts fun r hr => (ih r.length hr r rfl).2.1
      have hK : ∀ r : List Token, r.length < ts.length → K r := fun r hr =>
        (ih r.length hr r rfl).2.2
      exact ⟨hS, branch ts hS hK, block ts hS hK⟩
  exact ⟨fun ts => (all _ ts rfl).1, fun ts => (all _ ts rfl).2.1, fun ts => (all _ ts rfl).2.2⟩

end BlockScript.Grammar

namespace BlockScript

open Grammar

/-! ### The parser -/

theorem parse_eq_ok_iff {ts : List Token} {p : Stmt} :
    parse ts = .ok p ↔ ∃ ss, readProgram ts = .ok ss ∧ .block ss = p := by
  unfold parse
  cases readProgram ts <;> simp

theorem parse_eq_error_iff {ts : List Token} {e : ParseError} :
    parse ts = .error e ↔ ∃ s, readProgram ts = .error s ∧ s.toError ts = e := by
  unfold parse
  cases readProgram ts <;> simp

end BlockScript
