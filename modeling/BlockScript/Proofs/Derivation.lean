import BlockScript.Proofs.Readers

/-!
# The grammar

Which lexemes make up which trees, said without a reader. A derivation is about the lexemes it
covers and the lexeme that comes next behind them, which is `none` at the end of input: an
optional part may be left out only where the next lexeme could not start it.

* `Operator`: the operators between expressions and their ranks.
* `DerivesExpr`: primaries, expressions of each rank and the chains they are made of.
* `DerivesStmt`: statements, branches and sequences of statements.
* `DerivesStmt.sequence_append`: two sequences make up one, whatever they end and start with.
-/

namespace BlockScript.Grammar

/-! ### Expressions -/

/-- The lexeme `l` is an operator of rank `n`, and `f` is what it makes of its operands. -/
inductive Operator : Nat → Lexeme → (Expr → Expr → Expr) → Prop
  | disj : Operator 6 (.connective .disj) (.logic .disj)
  | conj : Operator 5 (.connective .conj) (.logic .conj)
  | equal : Operator 4 (.symbol .equal) (.rel .equal)
  | notEqual : Operator 4 (.symbol .notEqual) (.rel .notEqual)
  | less : Operator 3 (.symbol .less) (.rel .less)
  | lessEqual : Operator 3 (.symbol .lessEqual) (.rel .lessEqual)
  | greater : Operator 3 (.symbol .greater) (.rel .greater)
  | greaterEqual : Operator 3 (.symbol .greaterEqual) (.rel .greaterEqual)
  | add : Operator 2 (.symbol .plus) (.arith .add)
  | sub : Operator 2 (.symbol .minus) (.arith .sub)
  | mul : Operator 1 (.symbol .star) (.arith .mul)
  | div : Operator 1 (.symbol .slash) (.arith .div)

theorem binary?_eq_some_iff {n : Nat} {l : Lexeme} {f : Expr → Expr → Expr} :
    binary? n l = some f ↔ Operator n l f := by
  constructor
  · intro h
    unfold binary? at h
    split at h <;> cases h <;> constructor
  · rintro (_ | _) <;> rfl

/-- The symbol of a sign. -/
def signSymbol : Sign → Symbol
  | .plus => .plus
  | .minus => .minus

theorem sign?_eq_some_iff {l : Lexeme} {s : Sign} :
    sign? l = some s ↔ l = .symbol (signSymbol s) := by
  constructor
  · intro h
    unfold sign? at h
    split at h <;> cases h <;> rfl
  · rintro rfl
    cases s <;> rfl

/-- The next lexeme is an operator of rank `n`. -/
def Continues (n : Nat) (next : Option Lexeme) : Prop :=
  ∃ l f, next = some l ∧ Operator n l f

/-- The kinds of phrases that expressions are made of. -/
inductive ExprClass where
  /-- A single lexeme or an expression in parentheses. -/
  | primary
  /-- An expression of the given rank. -/
  | rank (n : Nat)
  /-- Expressions of rank `n` between operators of rank `n + 1`, which may go on. -/
  | chain (n : Nat)

/-- The lexemes `u` make up the expression `e` where `next` comes behind them. -/
inductive DerivesExpr : ExprClass → List Lexeme → Expr → Option Lexeme → Prop
  | number {ds : String} {x : Float} {next : Option Lexeme} (h : numberPayload? ds = some x) :
      DerivesExpr .primary [.number ds] (.literal (.number x)) next
  | hex {ds : String} {x : Float} {next : Option Lexeme} (hne : ds ≠ "")
      (h : hexPayload? ds = some x) :
      DerivesExpr .primary [.hex ds] (.literal (.number x)) next
  | word {w : String} {next : Option Lexeme} : DerivesExpr .primary [.word w] (.var w) next
  | text {t : String} {next : Option Lexeme} :
      DerivesExpr .primary [.text t] (.literal (.text t)) next
  | closed {u : List Lexeme} {e : Expr} {next : Option Lexeme}
      (h : DerivesExpr (.rank topRank) u e (some (.symbol .rightParen))) :
      DerivesExpr .primary (.symbol .leftParen :: u ++ [.symbol .rightParen]) e next
  /-- A parenthesis that could be closed is not left open. -/
  | unclosed {u : List Lexeme} {e : Expr} {next : Option Lexeme}
      (h : DerivesExpr (.rank topRank) u e next) (hnext : next ≠ some (.symbol .rightParen)) :
      DerivesExpr .primary (.symbol .leftParen :: u) e next
  | bare {u : List Lexeme} {e : Expr} {next : Option Lexeme} (h : DerivesExpr .primary u e next) :
      DerivesExpr (.rank 0) u e next
  | signed {u : List Lexeme} {e : Expr} {next : Option Lexeme} (s : Sign)
      (h : DerivesExpr .primary u e next) :
      DerivesExpr (.rank 0) (.symbol (signSymbol s) :: u) (.signed s e) next
  | first {n : Nat} {u : List Lexeme} {e : Expr} {next : Option Lexeme}
      (h : DerivesExpr (.rank n) u e next) : DerivesExpr (.chain n) u e next
  | further {n : Nat} {u v : List Lexeme} {l : Lexeme} {f : Expr → Expr → Expr} {x y : Expr}
      {next : Option Lexeme} (hn : n + 1 ≠ equalityRank) (hx : DerivesExpr (.chain n) u x (some l))
      (hop : Operator (n + 1) l f) (hy : DerivesExpr (.rank n) v y next) :
      DerivesExpr (.chain n) (u ++ l :: v) (f x y) next
  /-- A chain is an expression only where it does not go on. -/
  | whole {n : Nat} {u : List Lexeme} {e : Expr} {next : Option Lexeme}
      (h : DerivesExpr (.chain n) u e next) (hnext : ¬ Continues (n + 1) next) :
      DerivesExpr (.rank (n + 1)) u e next
  /-- An equality has two sides, whatever comes next. -/
  | equality {n : Nat} {u v : List Lexeme} {l : Lexeme} {f : Expr → Expr → Expr} {x y : Expr}
      {next : Option Lexeme} (hn : n + 1 = equalityRank) (hx : DerivesExpr (.rank n) u x (some l))
      (hop : Operator (n + 1) l f) (hy : DerivesExpr (.rank n) v y next) :
      DerivesExpr (.rank (n + 1)) (u ++ l :: v) (f x y) next

/-! ### Statements -/

/-- The kinds of phrases that statements are made of. -/
inductive StmtClass where
  | statement
  /-- A statement or a block. -/
  | branch
  /-- Statements one after another, collected in a block. -/
  | sequence

/-- The lexemes `u` make up the statement `s` where `next` comes behind them. -/
inductive DerivesStmt : StmtClass → List Lexeme → Stmt → Option Lexeme → Prop
  | assign {name : String} {u : List Lexeme} {e : Expr} {next : Option Lexeme}
      (h : DerivesExpr (.rank topRank) u e next) :
      DerivesStmt .statement (.word name :: .symbol .assign :: u) (.assign name e) next
  | write {newline : Bool} {u : List Lexeme} {e : Expr} {next : Option Lexeme}
      (h : DerivesExpr (.rank topRank) u e next) :
      DerivesStmt .statement (.keyword (writeKeyword newline) :: u) (.write e newline) next
  | jump {j : Jump} {next : Option Lexeme} :
      DerivesStmt .statement [.keyword (jumpKeyword j)] (.jump j) next
  /-- An `else` that comes next is not left out. -/
  | ifThen {u v : List Lexeme} {c : Expr} {s : Stmt} {next : Option Lexeme}
      (hc : DerivesExpr (.rank topRank) u c (some (.keyword .thenKw)))
      (hs : DerivesStmt .branch v s next) (hnext : next ≠ some (.keyword .elseKw)) :
      DerivesStmt .statement (.keyword .ifKw :: u ++ .keyword .thenKw :: v) (.ifThen c s) next
  | ifElse {u v w : List Lexeme} {c : Expr} {s t : Stmt} {next : Option Lexeme}
      (hc : DerivesExpr (.rank topRank) u c (some (.keyword .thenKw)))
      (hs : DerivesStmt .branch v s (some (.keyword .elseKw))) (ht : DerivesStmt .branch w t next) :
      DerivesStmt .statement
        (.keyword .ifKw :: u ++ .keyword .thenKw :: v ++ .keyword .elseKw :: w) (.ifElse c s t) next
  | whileDo {u v : List Lexeme} {c : Expr} {s : Stmt} {next : Option Lexeme}
      (hc : DerivesExpr (.rank topRank) u c (some (.keyword .doKw)))
      (hs : DerivesStmt .branch v s next) :
      DerivesStmt .statement (.keyword .whileKw :: u ++ .keyword .doKw :: v) (.whileDo c s) next
  | repeatUntil {u v : List Lexeme} {s : Stmt} {c : Expr} {next : Option Lexeme}
      (hs : DerivesStmt .branch u s (some (.keyword .untilKw)))
      (hc : DerivesExpr (.rank topRank) v c next) :
      DerivesStmt .statement (.keyword .repeatKw :: u ++ .keyword .untilKw :: v)
        (.repeatUntil s c) next
  | single {u : List Lexeme} {s : Stmt} {next : Option Lexeme}
      (h : DerivesStmt .statement u s next) : DerivesStmt .branch u s next
  | block {u : List Lexeme} {b : Stmt} {next : Option Lexeme}
      (h : DerivesStmt .sequence u b (some (.keyword .endKw))) :
      DerivesStmt .branch (.keyword .beginKw :: u ++ [.keyword .endKw]) b next
  | nil {next : Option Lexeme} : DerivesStmt .sequence [] (.block []) next
  | cons {u v : List Lexeme} {s : Stmt} {ss : List Stmt} {next : Option Lexeme}
      (hs : DerivesStmt .statement u s (v.head?.or next))
      (hss : DerivesStmt .sequence v (.block ss) next) :
      DerivesStmt .sequence (u ++ v) (.block (s :: ss)) next

/-- The lexemes `u` are a program, and `p` is its tree. -/
def IsProgram (u : List Lexeme) (p : Stmt) : Prop :=
  DerivesStmt .sequence u p none

theorem IsProgram.exists_eq_block {u : List Lexeme} {p : Stmt} (h : IsProgram u p) :
    ∃ ss, p = .block ss := by
  unfold IsProgram at h
  cases h with
  | nil => exact ⟨[], rfl⟩
  | cons hs hss => exact ⟨_, rfl⟩

/-! ### What may come next -/

/-- No expression goes on with the next lexeme. -/
def EndsExpr (next : Option Lexeme) : Prop :=
  (∀ n, ¬ Continues n next) ∧ next ≠ some (.symbol .rightParen)

/-- No statement goes on with the next lexeme. -/
def EndsStmt (next : Option Lexeme) : Prop :=
  EndsExpr next ∧ next ≠ some (.keyword .elseKw)

theorem not_continues_of_keyword (n : Nat) (k : Keyword) :
    ¬ Continues n (some (.keyword k)) := by
  rintro ⟨l, f, hl, hop⟩
  cases hl
  cases hop

theorem endsExpr_keyword (k : Keyword) : EndsExpr (some (.keyword k)) :=
  ⟨fun n => not_continues_of_keyword n k, by simp⟩

theorem endsStmt_keyword {k : Keyword} (h : k ≠ .elseKw) : EndsStmt (some (.keyword k)) :=
  ⟨endsExpr_keyword k, by simpa using h⟩

theorem not_continues_none (n : Nat) : ¬ Continues n none := by
  rintro ⟨l, f, hl, -⟩
  cases hl

theorem endsStmt_none : EndsStmt none :=
  ⟨⟨not_continues_none, by simp⟩, by simp⟩

theorem StartsStatement.endsStmt {l : Lexeme} (h : StartsStatement l) : EndsStmt (some l) := by
  cases h with
  | word name =>
    refine ⟨⟨fun n => ?_, by simp⟩, by simp⟩
    rintro ⟨l, f, hl, hop⟩
    cases hl
    cases hop
  | write newline => exact endsStmt_keyword (by cases newline <;> simp [writeKeyword])
  | jump j => exact endsStmt_keyword (by cases j <;> simp [jumpKeyword])
  | _ => exact endsStmt_keyword (by simp)

/-- A derived expression stands wherever the next lexeme does not continue one. -/
theorem DerivesExpr.endsExpr {c : ExprClass} {u : List Lexeme} {e : Expr}
    {next next' : Option Lexeme} (h : DerivesExpr c u e next) (hnext : EndsExpr next') :
    DerivesExpr c u e next' := by
  induction h with
  | number h => exact .number h
  | hex hne h => exact .hex hne h
  | word => exact .word
  | text => exact .text
  | closed h => exact .closed h
  | unclosed _ _ ih => exact .unclosed ih hnext.2
  | bare _ ih => exact .bare ih
  | signed s _ ih => exact .signed s ih
  | first _ ih => exact .first ih
  | further hn hx hop _ _ ihy => exact .further hn hx hop ihy
  | whole _ _ ih => exact .whole ih (hnext.1 _)
  | equality hn hx hop _ _ ihy => exact .equality hn hx hop ihy

/-- A derived statement stands wherever the next lexeme does not continue one. -/
theorem DerivesStmt.endsStmt {c : StmtClass} {u : List Lexeme} {s : Stmt}
    {next next' : Option Lexeme} (h : DerivesStmt c u s next) (hnext : EndsStmt next') :
    DerivesStmt c u s next' := by
  induction h with
  | assign h => exact .assign (h.endsExpr hnext.1)
  | write h => exact .write (h.endsExpr hnext.1)
  | jump => exact .jump
  | ifThen hc _ _ ih => exact .ifThen hc ih hnext.2
  | ifElse hc hs _ _ iht => exact .ifElse hc hs iht
  | whileDo hc _ ih => exact .whileDo hc ih
  | repeatUntil hs hc => exact .repeatUntil hs (hc.endsExpr hnext.1)
  | single _ ih => exact .single ih
  | block h => exact .block h
  | nil => exact .nil
  | @cons u v s ss next hs _ ihs ihss =>
    -- only the last statement of a sequence has the next lexeme behind it
    cases v with
    | nil => exact .cons ihs ihss
    | cons l v => exact .cons hs ihss

/-- A statement starts with one of the lexemes that start statements. -/
theorem DerivesStmt.exists_starts {u : List Lexeme} {s : Stmt} {next : Option Lexeme}
    (h : DerivesStmt .statement u s next) : ∃ l v, u = l :: v ∧ StartsStatement l := by
  cases h with
  | assign => exact ⟨_, _, rfl, .word _⟩
  | write => exact ⟨_, _, rfl, .write _⟩
  | jump => exact ⟨_, _, rfl, .jump _⟩
  | ifThen => exact ⟨_, _, rfl, .ifKw⟩
  | ifElse => exact ⟨_, _, rfl, .ifKw⟩
  | whileDo => exact ⟨_, _, rfl, .whileKw⟩
  | repeatUntil => exact ⟨_, _, rfl, .repeatKw⟩

/-- What a sequence starts with, or what follows an empty one, continues no statement. -/
theorem DerivesStmt.endsStmt_head {u : List Lexeme} {b : Stmt} {next : Option Lexeme}
    (h : DerivesStmt .sequence u b next) (hnext : EndsStmt next) : EndsStmt (u.head?.or next) := by
  cases h with
  | nil => exact hnext
  | cons hs hss =>
    obtain ⟨l, v, rfl, hl⟩ := hs.exists_starts
    exact hl.endsStmt

theorem DerivesStmt.sequence_single {u : List Lexeme} {s : Stmt} {next : Option Lexeme}
    (h : DerivesStmt .statement u s next) : DerivesStmt .sequence u (.block [s]) next := by
  have hs : DerivesStmt .sequence (u ++ []) (.block [s]) next := .cons h .nil
  rwa [List.append_nil] at hs

/-- Two sequences make up one, whatever the first ends with and the second starts with. -/
theorem DerivesStmt.sequence_append {u v : List Lexeme} {ss ts : List Stmt}
    {next next' : Option Lexeme} (hu : DerivesStmt .sequence u (.block ss) next')
    (hv : DerivesStmt .sequence v (.block ts) next) (hnext : EndsStmt next) :
    DerivesStmt .sequence (u ++ v) (.block (ss ++ ts)) next := by
  induction ss generalizing u with
  | nil =>
    cases hu
    exact hv
  | cons s ss ih =>
    cases hu with
    | @cons u w _ _ _ hs hss =>
      rw [List.append_assoc, List.cons_append]
      refine .cons ?_ (ih hss)
      cases w with
      | nil => exact hs.endsStmt (by simpa using hv.endsStmt_head hnext)
      | cons l w => exact hs

end BlockScript.Grammar
