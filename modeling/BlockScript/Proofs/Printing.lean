import BlockScript.Proofs.Canonical
import BlockScript.Proofs.Recognition
import Mathlib.Data.List.Forall2

/-!
# Printing trees

A tree is printed with parentheses only where an operand binds too loosely for its place, and with
`begin` and `end` around every block but the root.

* `Expr.level`: how loosely an expression binds, from primaries to disjunctions.
* `Expr.marks`, `Stmt.marks`: the tree as lexemes, where every number is left open.
* `Spells`: lexemes that have some payload of the right value for every number.
* `Expr.marksDerived`, `Stmt.marksDerived`: the grammar derives the tree from its print.
* `parse_of_spells_printed`: the parser gives back a canonical tree from its print.
-/

namespace BlockScript

open Grammar

/-! ### How loosely operators bind -/

/-- How loosely the operator binds. -/
def ArithOp.level : ArithOp → Nat
  | .mul | .div => 2
  | .add | .sub => 3

/-- How loosely the comparison binds. -/
def RelOp.level : RelOp → Nat
  | .less | .lessEqual | .greater | .greaterEqual => 4
  | .equal | .notEqual => 5

/-- How loosely the operator binds. -/
def LogicOp.level : LogicOp → Nat
  | .conj => 6
  | .disj => 7

/-- How loosely an expression binds: a primary most tightly, then a sign and its operand. -/
def Expr.level : Expr → Nat
  | .literal _ | .var _ => 0
  | .signed _ _ => 1
  | .arith op _ _ => op.level
  | .rel op _ _ => op.level
  | .logic op _ _ => op.level

/-- The loosest level of a left operand. A chain goes on to the left, an equality does not. -/
def leftLevel (k : Nat) : Nat :=
  if k = 5 then 4 else k

/-- The loosest level of a right operand. -/
def rightLevel (k : Nat) : Nat :=
  k - 1

/-! ### Marks -/

/-- What a print consists of. -/
inductive Mark where
  | lexeme (l : Lexeme)
  /-- A number, whatever its payload. -/
  | number (x : Float)

/-- The lexeme stands for the mark. A number is spelt by any payload that is read as it. -/
inductive Mark.SpeltBy : Mark → Lexeme → Prop
  | lexeme (l : Lexeme) : SpeltBy (.lexeme l) l
  | number {x : Float} {ds : String} (h : numberPayload? ds = some x) :
      SpeltBy (.number x) (.number ds)

/-- The lexemes stand for the marks, one each. -/
def Spells (u : List Lexeme) (ms : List Mark) : Prop :=
  List.Forall₂ Mark.SpeltBy ms u

theorem spells_nil_iff {u : List Lexeme} : Spells u [] ↔ u = [] :=
  List.forall₂_nil_left_iff

theorem spells_lexeme_cons_iff {u : List Lexeme} {l : Lexeme} {ms : List Mark} :
    Spells u (.lexeme l :: ms) ↔ ∃ v, u = l :: v ∧ Spells v ms := by
  constructor
  · rintro (_ | ⟨⟨⟩, hms⟩)
    exact ⟨_, rfl, hms⟩
  · rintro ⟨v, rfl, hv⟩
    exact .cons (.lexeme l) hv

theorem spells_number_iff {u : List Lexeme} {x : Float} :
    Spells u [.number x] ↔ ∃ ds, u = [.number ds] ∧ numberPayload? ds = some x := by
  constructor
  · rintro (_ | ⟨_ | h, ⟨⟩⟩)
    exact ⟨_, rfl, h⟩
  · rintro ⟨ds, rfl, h⟩
    exact .cons (.number h) .nil

theorem spells_append_iff {u : List Lexeme} {ms ns : List Mark} :
    Spells u (ms ++ ns) ↔ ∃ v w, u = v ++ w ∧ Spells v ms ∧ Spells w ns := by
  constructor
  · intro h
    induction ms generalizing u with
    | nil => exact ⟨[], u, rfl, .nil, h⟩
    | cons m ms ih =>
      obtain _ | ⟨hm, h⟩ := h
      obtain ⟨v, w, rfl, hv, hw⟩ := ih h
      exact ⟨_ :: v, w, rfl, .cons hm hv, hw⟩
  · rintro ⟨v, w, rfl, hv, hw⟩
    exact List.rel_append hv hw

/-- Marks behind two lexemes of fixed spelling, such as the parts of a statement. -/
theorem spells_parts_iff {u : List Lexeme} {k l : Lexeme} {ms ns : List Mark} :
    Spells u (.lexeme k :: ms ++ .lexeme l :: ns) ↔
      ∃ v w, u = k :: v ++ l :: w ∧ Spells v ms ∧ Spells w ns := by
  constructor
  · intro h
    obtain ⟨x, y, rfl, hx, hy⟩ := spells_append_iff.1 h
    obtain ⟨v, rfl, hv⟩ := spells_lexeme_cons_iff.1 hx
    obtain ⟨w, rfl, hw⟩ := spells_lexeme_cons_iff.1 hy
    exact ⟨v, w, rfl, hv, hw⟩
  · rintro ⟨v, w, rfl, hv, hw⟩
    exact List.rel_append (.cons (.lexeme k) hv) (.cons (.lexeme l) hw)

/-! ### Expressions -/

/-- The lexeme of the operator. -/
def ArithOp.lexeme : ArithOp → Lexeme
  | .add => .symbol .plus
  | .sub => .symbol .minus
  | .mul => .symbol .star
  | .div => .symbol .slash

/-- The lexeme of the comparison. -/
def RelOp.lexeme : RelOp → Lexeme
  | .less => .symbol .less
  | .lessEqual => .symbol .lessEqual
  | .greater => .symbol .greater
  | .greaterEqual => .symbol .greaterEqual
  | .equal => .symbol .equal
  | .notEqual => .symbol .notEqual

/-- The lexeme of the operator. -/
def LogicOp.lexeme : LogicOp → Lexeme
  | .conj => .connective .conj
  | .disj => .connective .disj

/-- The print `ms` of an expression of the given level where one of level `k` may stand. -/
def enclose (k level : Nat) (ms : List Mark) : List Mark :=
  if level ≤ k then ms
  else .lexeme (.symbol .leftParen) :: ms ++ [.lexeme (.symbol .rightParen)]

/-- The print of an operation of level `k` with the lexeme `l`, from the levels and the prints of
its operands. -/
def operationMarks (k : Nat) (l : Lexeme) (x y : Nat × List Mark) : List Mark :=
  enclose (leftLevel k) x.1 x.2 ++ .lexeme l :: enclose (rightLevel k) y.1 y.2

/-- The print of an expression. -/
def Expr.marks : Expr → List Mark
  | .literal (.number x) => [.number x]
  | .literal (.text t) => [.lexeme (.text t)]
  | .var x => [.lexeme (.word x)]
  | .signed s x => .lexeme (.symbol (signSymbol s)) :: enclose 0 x.level x.marks
  | .arith op x y => operationMarks op.level op.lexeme (x.level, x.marks) (y.level, y.marks)
  | .rel op x y => operationMarks op.level op.lexeme (x.level, x.marks) (y.level, y.marks)
  | .logic op x y => operationMarks op.level op.lexeme (x.level, x.marks) (y.level, y.marks)

/-- The print of an expression where one of level `k` may stand. -/
def Expr.marksAt (k : Nat) (e : Expr) : List Mark :=
  enclose k e.level e.marks

theorem operator_arith (op : ArithOp) : Operator (op.level - 1) op.lexeme (.arith op) := by
  cases op <;> constructor

theorem operator_rel (op : RelOp) : Operator (op.level - 1) op.lexeme (.rel op) := by
  cases op <;> constructor

theorem operator_logic (op : LogicOp) : Operator (op.level - 1) op.lexeme (.logic op) := by
  cases op <;> constructor

section Operation

variable {n : Nat} {l : Lexeme} {f : Expr → Expr → Expr}

theorem Grammar.Operator.pos (h : Operator n l f) : 0 < n := by
  cases h <;> omega

theorem Grammar.Operator.level_eq (h : Operator n l f) (x y : Expr) : (f x y).level = n + 1 := by
  cases h <;> rfl

theorem Grammar.Operator.marks_eq (h : Operator n l f) (x y : Expr) :
    (f x y).marks = x.marksAt (leftLevel (n + 1)) ++ .lexeme l :: y.marksAt n := by
  cases h <;> rfl

/-- An operator has one rank. -/
theorem Grammar.Operator.rank_unique (h : Operator n l f) {m : Nat} {g : Expr → Expr → Expr}
    (h' : Operator m l g) : m = n := by
  cases h <;> cases h' <;> rfl

theorem Grammar.Operator.not_continues (h : Operator n l f) {m : Nat} (hm : m ≠ n) :
    ¬ Continues m (some l) := by
  rintro ⟨l', g, hl, hg⟩
  cases hl
  exact hm (h.rank_unique hg)

end Operation

theorem not_continues_rightParen (n : Nat) : ¬ Continues n (some (.symbol .rightParen)) := by
  rintro ⟨l, f, hl, hop⟩
  cases hl
  cases hop

theorem Expr.level_le (e : Expr) : e.level ≤ topRank + 1 := by
  cases e with
  | arith op => cases op <;> simp [level, ArithOp.level, topRank]
  | rel op => cases op <;> simp [level, RelOp.level, topRank]
  | logic op => cases op <;> simp [level, LogicOp.level, topRank]
  | _ => simp [level, topRank]

/-- The phrases of a level. -/
def levelClass : Nat → ExprClass
  | 0 => .primary
  | n + 1 => .rank n

/-- The phrases of a level that may still go on with operators of their own. -/
def openClass : Nat → ExprClass
  | 0 => .primary
  | 1 => .rank 0
  | n + 2 => if n + 1 = equalityRank then .rank (n + 1) else .chain n

section Level

variable {j k : Nat} {u : List Lexeme} {e : Expr} {next : Option Lexeme}

theorem Grammar.DerivesExpr.level_succ (h : DerivesExpr (levelClass k) u e next)
    (hnext : ¬ Continues k next) : DerivesExpr (levelClass (k + 1)) u e next := by
  cases k with
  | zero => exact .bare h
  | succ n => exact .whole (.first h) hnext

/-- A phrase is one of any looser level too, as long as no operator in between comes next. -/
theorem Grammar.DerivesExpr.level_mono (h : DerivesExpr (levelClass j) u e next) (hjk : j ≤ k)
    (hnext : ∀ n < k, ¬ Continues n next) : DerivesExpr (levelClass k) u e next := by
  induction k, hjk using Nat.le_induction with
  | base => exact h
  | succ k hjk ih => exact (ih fun n hn => hnext n (by omega)).level_succ (hnext k (by omega))

/-- A phrase that does not go on is a phrase of its level. -/
theorem Grammar.DerivesExpr.level_of_open (h : DerivesExpr (openClass k) u e next)
    (hnext : ∀ n < k, ¬ Continues n next) : DerivesExpr (levelClass k) u e next := by
  rcases k with _ | _ | n
  · exact h
  · exact h
  · simp only [openClass] at h
    split at h
    · exact h
    · exact .whole h (hnext (n + 1) (by omega))

end Level

/-- Whatever spells the print of an expression is a phrase of its level, unless an operator that
binds more tightly comes next. -/
def Expr.MarksDerived (e : Expr) : Prop :=
  ∀ ⦃u : List Lexeme⦄ ⦃next : Option Lexeme⦄, Spells u e.marks →
    (∀ n, n + 1 < e.level → ¬ Continues n next) → DerivesExpr (openClass e.level) u e next

section Operands

variable {u : List Lexeme} {next : Option Lexeme} {x y : Expr}

theorem Expr.MarksDerived.derives (hx : x.MarksDerived) (hu : Spells u x.marks)
    (hnext : ∀ n, ¬ Continues n next) : DerivesExpr (.rank topRank) u x next := by
  have hopen : DerivesExpr (openClass x.level) u x next := hx hu fun n _ => hnext n
  exact (hopen.level_of_open fun n _ => hnext n).level_mono x.level_le fun n _ => hnext n

/-- The print of an expression in a place for level `k` is a phrase of that level. -/
theorem Expr.MarksDerived.marksAt (hx : x.MarksDerived) {k : Nat} (hu : Spells u (x.marksAt k))
    (hnext : ∀ n < k, ¬ Continues n next) : DerivesExpr (levelClass k) u x next := by
  unfold Expr.marksAt enclose at hu
  split at hu
  · next hle =>
    have hopen : DerivesExpr (openClass x.level) u x next :=
      hx hu fun n hn => hnext n (by omega)
    exact (hopen.level_of_open fun n hn => hnext n (by omega)).level_mono hle hnext
  · obtain ⟨v, w, rfl, hv, hnil⟩ := spells_parts_iff.1 hu
    obtain rfl := spells_nil_iff.1 hnil
    have hclosed : DerivesExpr (levelClass 0) _ x next :=
      .closed (hx.derives hv not_continues_rightParen)
    exact hclosed.level_mono (Nat.zero_le k) hnext

/-- The print of a left operand is a chain that goes on with the operator. -/
theorem Expr.MarksDerived.left (hx : x.MarksDerived) {n : Nat} {l : Lexeme}
    {f : Expr → Expr → Expr} (hop : Operator (n + 1) l f) (hn : n + 1 ≠ equalityRank)
    (hu : Spells u (x.marksAt (n + 2))) : DerivesExpr (.chain n) u x (some l) := by
  by_cases hlevel : x.level = n + 2
  -- a chain of the same level is left open for the operator
  · have hmarks : x.marksAt (n + 2) = x.marks := by simp [Expr.marksAt, enclose, hlevel]
    have hclass : openClass x.level = .chain n := by simp [openClass, hlevel, hn]
    rw [hmarks] at hu
    have hopen : DerivesExpr (openClass x.level) u x (some l) :=
      hx hu fun m hm => hop.not_continues (by omega)
    rwa [hclass] at hopen
  -- any other operand stands where a right one could stand too
  · have hmarks : x.marksAt (n + 2) = x.marksAt (n + 1) := by
      have hiff : x.level ≤ n + 2 ↔ x.level ≤ n + 1 := by omega
      simp [Expr.marksAt, enclose, hiff]
    rw [hmarks] at hu
    exact .first (hx.marksAt hu fun m hm => hop.not_continues (by omega))

/-- The print of an operation, from those of its operands. -/
theorem Grammar.Operator.marksDerived {n : Nat} {l : Lexeme} {f : Expr → Expr → Expr}
    (hop : Operator n l f) (hx : x.MarksDerived) (hy : y.MarksDerived) :
    (f x y).MarksDerived := by
  intro u next hu hnext
  rw [hop.level_eq] at hnext ⊢
  rw [hop.marks_eq] at hu
  obtain ⟨v, w, rfl, hv, hw⟩ := spells_append_iff.1 hu
  obtain ⟨w, rfl, hy'⟩ := spells_lexeme_cons_iff.1 hw
  obtain ⟨n, rfl⟩ : ∃ m, n = m + 1 := ⟨n - 1, by have := hop.pos; omega⟩
  have hright : DerivesExpr (levelClass (n + 1)) w y next :=
    hy.marksAt hy' fun m hm => hnext m (by omega)
  simp only [openClass]
  split
  · next hn =>
    have hleft : leftLevel (n + 1 + 1) = n + 1 := by simp [leftLevel, hn, equalityRank]
    rw [hleft] at hv
    have hside : DerivesExpr (levelClass (n + 1)) v x (some l) :=
      hx.marksAt hv fun m hm => hop.not_continues (by omega)
    exact .equality hn hside hop hright
  · next hn =>
    have hleft : leftLevel (n + 1 + 1) = n + 2 := by
      unfold equalityRank at hn
      rw [leftLevel, if_neg (by omega)]
    rw [hleft] at hv
    exact .further hn (hx.left hop hn hv) hop hright

end Operands

theorem Expr.marksDerived (e : Expr) : e.MarksDerived := by
  induction e with
  | literal v =>
    intro u next hu _
    cases v with
    | text t =>
      obtain ⟨u, rfl, hnil⟩ := spells_lexeme_cons_iff.1 hu
      obtain rfl := spells_nil_iff.1 hnil
      exact .text
    | number x =>
      obtain ⟨ds, rfl, hds⟩ := spells_number_iff.1 hu
      exact .number hds
  | var x =>
    intro u next hu _
    obtain ⟨u, rfl, hnil⟩ := spells_lexeme_cons_iff.1 hu
    obtain rfl := spells_nil_iff.1 hnil
    exact .word
  | signed s x ih =>
    intro u next hu _
    obtain ⟨u, rfl, hx⟩ := spells_lexeme_cons_iff.1 hu
    exact .signed s (ih.marksAt hx (by simp))
  | arith op x y ihx ihy => exact (operator_arith op).marksDerived ihx ihy
  | rel op x y ihx ihy => exact (operator_rel op).marksDerived ihx ihy
  | logic op x y ihx ihy => exact (operator_logic op).marksDerived ihx ihy

/-- The grammar derives an expression from whatever spells its print. -/
theorem Expr.derives_of_spells {e : Expr} {u : List Lexeme} {next : Option Lexeme}
    (hu : Spells u e.marks) (hnext : ∀ n, ¬ Continues n next) :
    DerivesExpr (.rank topRank) u e next :=
  e.marksDerived.derives hu hnext

/-! ### Statements -/

mutual

/-- The print of a statement. -/
def Stmt.marks : Stmt → List Mark
  | .assign name e => .lexeme (.word name) :: .lexeme (.symbol .assign) :: e.marks
  | .write e newline => .lexeme (.keyword (writeKeyword newline)) :: e.marks
  | .ifThen c s => .lexeme (.keyword .ifKw) :: c.marks ++ .lexeme (.keyword .thenKw) :: s.marks
  | .ifElse c s t =>
    .lexeme (.keyword .ifKw) :: c.marks ++ .lexeme (.keyword .thenKw) :: s.marks ++
      .lexeme (.keyword .elseKw) :: t.marks
  | .whileDo c s => .lexeme (.keyword .whileKw) :: c.marks ++ .lexeme (.keyword .doKw) :: s.marks
  | .repeatUntil s c =>
    .lexeme (.keyword .repeatKw) :: s.marks ++ .lexeme (.keyword .untilKw) :: c.marks
  | .block ss =>
    .lexeme (.keyword .beginKw) :: Stmt.marksAll ss ++ [.lexeme (.keyword .endKw)]
  | .jump j => [.lexeme (.keyword (jumpKeyword j))]

/-- The print of statements one after another. -/
def Stmt.marksAll : List Stmt → List Mark
  | [] => []
  | s :: ss => s.marks ++ Stmt.marksAll ss

end

/-- The print of a whole program, whose root is not enclosed in `begin` and `end`. -/
def Stmt.printed (p : Stmt) : List Mark :=
  Stmt.marksAll p.parts

/-- A place for a branch or for a statement that is no block. -/
def placeClass (branch : Bool) : StmtClass :=
  if branch then .branch else .statement

theorem Grammar.DerivesStmt.placed {u : List Lexeme} {s : Stmt} {next : Option Lexeme}
    (h : DerivesStmt .statement u s next) (branch : Bool) :
    DerivesStmt (placeClass branch) u s next := by
  cases branch with
  | true => exact .single h
  | false => exact h

/-- Whatever spells the print of a statement in its place is derived as that statement, where an
`else` may come next only if the statement is not open. -/
def Stmt.MarksDerived (s : Stmt) : Prop :=
  ∀ ⦃branch : Bool⦄ ⦃u : List Lexeme⦄ ⦃next : Option Lexeme⦄, s.isPlaced branch = true →
    Spells u s.marks → (∀ n, ¬ Continues n next) →
    (next = some (.keyword .elseKw) → s.isOpen = false) → DerivesStmt (placeClass branch) u s next

theorem Stmt.sequence_of_spells {ss : List Stmt} (hss : ∀ s ∈ ss, s.MarksDerived)
    (hplaced : Stmt.allPlaced ss = true) {u : List Lexeme} (hu : Spells u (Stmt.marksAll ss))
    {next : Option Lexeme} (hnext : EndsStmt next) :
    DerivesStmt .sequence u (.block ss) next := by
  induction ss generalizing u with
  | nil =>
    simp only [marksAll] at hu
    obtain rfl := spells_nil_iff.1 hu
    exact .nil
  | cons s ss ih =>
    simp only [marksAll] at hu
    simp only [allPlaced, Bool.and_eq_true] at hplaced
    obtain ⟨v, w, rfl, hv, hw⟩ := spells_append_iff.1 hu
    have hrest : DerivesStmt .sequence w (.block ss) next :=
      ih (fun s hs => hss s (by simp [hs])) hplaced.2 hw
    -- behind a statement comes the start of another one or what comes behind them all
    have hhead : EndsStmt (w.head?.or next) := hrest.endsStmt_head hnext
    exact .cons (hss s (by simp) hplaced.1 hv hhead.1.1 fun h => absurd h hhead.2) hrest

/-- The grammar derives a statement from whatever spells its print. -/
theorem Stmt.marksDerived (s : Stmt) : s.MarksDerived := by
  induction s with
  | assign name e =>
    intro branch u next _ hu hnext _
    simp only [marks] at hu
    obtain ⟨u, rfl, hassign⟩ := spells_lexeme_cons_iff.1 hu
    obtain ⟨u, rfl, he⟩ := spells_lexeme_cons_iff.1 hassign
    exact DerivesStmt.placed (.assign (Expr.derives_of_spells he hnext)) branch
  | write e newline =>
    intro branch u next _ hu hnext _
    simp only [marks] at hu
    obtain ⟨u, rfl, he⟩ := spells_lexeme_cons_iff.1 hu
    exact DerivesStmt.placed (.write (Expr.derives_of_spells he hnext)) branch
  | ifThen c s ih =>
    intro branch u next hplaced hu hnext helse
    simp only [marks] at hu
    simp only [isPlaced] at hplaced
    obtain ⟨v, w, rfl, hv, hw⟩ := spells_parts_iff.1 hu
    -- an open statement is not followed by `else`
    have hne : next ≠ some (.keyword .elseKw) := fun h => by simpa [isOpen] using helse h
    have hbody : DerivesStmt .branch w s next := ih hplaced hw hnext fun h => absurd h hne
    exact DerivesStmt.placed (.ifThen (Expr.derives_of_spells hv fun n =>
      not_continues_of_keyword n _) hbody hne) branch
  | ifElse c s t ihs iht =>
    intro branch u next hplaced hu hnext helse
    simp only [marks] at hu
    simp only [isPlaced, Bool.and_eq_true, Bool.not_eq_true'] at hplaced
    simp only [isOpen] at helse
    obtain ⟨⟨hclosed, hs⟩, ht⟩ := hplaced
    obtain ⟨v, w, rfl, hv, hw⟩ := spells_append_iff.1 hu
    obtain ⟨x, y, rfl, hx, hy⟩ := spells_parts_iff.1 hv
    obtain ⟨z, rfl, hz⟩ := spells_lexeme_cons_iff.1 hw
    have hbody : DerivesStmt .branch y s (some (.keyword .elseKw)) :=
      ihs hs hy (fun n => not_continues_of_keyword n _) fun _ => hclosed
    have hother : DerivesStmt .branch z t next := iht ht hz hnext helse
    exact DerivesStmt.placed (.ifElse (Expr.derives_of_spells hx fun n =>
      not_continues_of_keyword n _) hbody hother) branch
  | whileDo c s ih =>
    intro branch u next hplaced hu hnext helse
    simp only [marks] at hu
    simp only [isPlaced] at hplaced
    simp only [isOpen] at helse
    obtain ⟨v, w, rfl, hv, hw⟩ := spells_parts_iff.1 hu
    have hbody : DerivesStmt .branch w s next := ih hplaced hw hnext helse
    exact DerivesStmt.placed (.whileDo (Expr.derives_of_spells hv fun n =>
      not_continues_of_keyword n _) hbody) branch
  | repeatUntil s c ih =>
    intro branch u next hplaced hu hnext _
    simp only [marks] at hu
    simp only [isPlaced] at hplaced
    obtain ⟨v, w, rfl, hv, hw⟩ := spells_parts_iff.1 hu
    have hbody : DerivesStmt .branch v s (some (.keyword .untilKw)) :=
      ih hplaced hv (fun n => not_continues_of_keyword n _) (by simp)
    exact DerivesStmt.placed (.repeatUntil hbody (Expr.derives_of_spells hw hnext)) branch
  | block ss ih =>
    intro branch u next hplaced hu _ _
    simp only [marks] at hu
    simp only [isPlaced, Bool.and_eq_true] at hplaced
    obtain ⟨rfl, hss⟩ := hplaced
    obtain ⟨v, w, rfl, hv, hnil⟩ := spells_parts_iff.1 hu
    obtain rfl := spells_nil_iff.1 hnil
    exact .block (Stmt.sequence_of_spells ih hss hv (endsStmt_keyword (by simp)))
  | jump j =>
    intro branch u next _ hu _ _
    simp only [marks] at hu
    obtain ⟨u, rfl, hnil⟩ := spells_lexeme_cons_iff.1 hu
    obtain rfl := spells_nil_iff.1 hnil
    exact DerivesStmt.placed .jump branch

/-- **Parsing undoes printing.** The tokens, on whatever lines, may spell each number by any payload
of its value. -/
theorem parse_of_spells_printed {p : Stmt} (hp : p.isCanonical = true) {ts : List Token}
    (hts : Spells (ts.map Token.lexeme) p.printed) : parse ts = .ok p := by
  obtain ⟨ss, rfl, hss⟩ := Stmt.exists_eq_block_of_isCanonical hp
  have hprogram : IsProgram (ts.map Token.lexeme) (.block ss) :=
    Stmt.sequence_of_spells (fun s _ => s.marksDerived) hss hts endsStmt_none
  unfold parse
  rw [readProgram_eq_ok_iff.2 hprogram]

/-- Two spellings of one number, and parentheses and a block that cannot be left out. -/
theorem parse_printed_else :
    parse [⟨.keyword .ifKw, 1⟩, ⟨.word "x", 1⟩, ⟨.keyword .thenKw, 1⟩, ⟨.keyword .beginKw, 1⟩,
        ⟨.keyword .ifKw, 2⟩, ⟨.word "y", 2⟩, ⟨.keyword .thenKw, 2⟩, ⟨.keyword .breakKw, 2⟩,
        ⟨.keyword .endKw, 3⟩, ⟨.keyword .elseKw, 3⟩, ⟨.word "x", 4⟩, ⟨.symbol .assign, 4⟩,
        ⟨.symbol .minus, 4⟩, ⟨.symbol .leftParen, 4⟩, ⟨.word "y", 4⟩, ⟨.symbol .plus, 4⟩,
        ⟨.number "2", 4⟩, ⟨.symbol .rightParen, 4⟩, ⟨.symbol .star, 4⟩, ⟨.number "2.0", 4⟩] =
      .ok (.block [.ifElse (.var "x") (.block [.ifThen (.var "y") (.jump .leave)])
        (.assign "x" (.arith .mul
          (.signed .minus (.arith .add (.var "y") (.literal (.number 2))))
          (.literal (.number 2))))]) :=
  parse_of_spells_printed rfl (by repeat constructor)

end BlockScript
