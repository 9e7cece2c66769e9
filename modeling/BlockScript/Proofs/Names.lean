import BlockScript.Run.Eval
import BlockScript.Tree.Stmt
import Mathlib.Tactic

/-!
# The names in a program

* `Expr.names`: the names that stand in an expression, in their order.
* `Stmt.readNames`, `Stmt.assignedNames`: the names that a statement reads, and those that it
  assigns.
* `Expr.eval_congr`: a value depends on the names of its expression only.
* `Expr.eval_eq_error`: the faults that an expression can have.
-/

namespace BlockScript

/-- The names that stand in the expression. -/
def Expr.names : Expr → List String
  | .literal _ => []
  | .var x => [x]
  | .signed _ x => x.names
  | .arith _ x y | .rel _ x y | .logic _ x y => x.names ++ y.names

mutual

/-- The names that stand in some expression of the statement. -/
def Stmt.readNames : Stmt → List String
  | .assign _ e | .write e _ => e.names
  | .ifThen c s | .whileDo c s => c.names ++ s.readNames
  | .ifElse c s t => c.names ++ s.readNames ++ t.readNames
  | .repeatUntil s c => s.readNames ++ c.names
  | .block ss => Stmt.allReadNames ss
  | .jump _ => []

/-- The names that stand in some expression of the statements. -/
def Stmt.allReadNames : List Stmt → List String
  | [] => []
  | s :: ss => s.readNames ++ Stmt.allReadNames ss

end

mutual

/-- The names on the left of some assignment in the statement. -/
def Stmt.assignedNames : Stmt → List String
  | .assign x _ => [x]
  | .write .. | .jump _ => []
  | .ifThen _ s | .whileDo _ s | .repeatUntil s _ => s.assignedNames
  | .ifElse _ s t => s.assignedNames ++ t.assignedNames
  | .block ss => Stmt.allAssignedNames ss

/-- The names on the left of some assignment in the statements. -/
def Stmt.allAssignedNames : List Stmt → List String
  | [] => []
  | s :: ss => s.assignedNames ++ Stmt.allAssignedNames ss

end

theorem Stmt.mem_allReadNames {x : String} {ss : List Stmt} :
    x ∈ Stmt.allReadNames ss ↔ ∃ s ∈ ss, x ∈ s.readNames := by
  induction ss with
  | nil => simp [allReadNames]
  | cons s ss ih => simp [allReadNames, ih]

theorem Stmt.mem_allAssignedNames {x : String} {ss : List Stmt} :
    x ∈ Stmt.allAssignedNames ss ↔ ∃ s ∈ ss, x ∈ s.assignedNames := by
  induction ss with
  | nil => simp [allAssignedNames]
  | cons s ss ih => simp [allAssignedNames, ih]

/-! ### What a value depends on -/

namespace Expr

variable {σ τ : Store}

/-- The value of an expression depends on the names in it only. -/
theorem eval_congr {e : Expr} (h : ∀ x ∈ e.names, σ.get? x = τ.get? x) : e.eval σ = e.eval τ := by
  induction e with
  | literal v => rfl
  | var x =>
    have hx : σ.get? x = τ.get? x := h x (by simp [names])
    simp only [eval, Store.isDefined, Store.getOrZero, hx]
    rfl
  | signed op x ih =>
    cases op with
    | plus => exact ih h
    | minus => simp only [eval, ih h]
  | arith op x y ihx ihy | rel op x y ihx ihy | logic op x y ihx ihy =>
    simp only [names, List.mem_append] at h
    have hx := ihx fun z hz => h z (.inl hz)
    have hy := ihy fun z hz => h z (.inr hz)
    simp only [eval, hx, hy]

/-! ### Faults of expressions -/

variable {f : Fault}

theorem bind_eq_error_iff {α β : Type} {r : Except Fault α} {next : α → Except Fault β} :
    (r >>= next) = .error f ↔ r = .error f ∨ ∃ v, r = .ok v ∧ next v = .error f := by
  cases r <;> simp [bind, Except.bind]

/-- An operation with two operands has a fault of one of them, or one of its own. -/
theorem bind_bind_eq_error {x y : Except Fault Value} {g : Value → Value → Except Fault Value}
    (h : (x >>= fun l => y >>= fun r => g l r) = .error f) :
    x = .error f ∨ y = .error f ∨ ∃ l r, g l r = .error f := by
  obtain h | ⟨l, -, h⟩ := bind_eq_error_iff.1 h
  · exact .inl h
  · obtain h | ⟨r, -, h⟩ := bind_eq_error_iff.1 h
    · exact .inr (.inl h)
    · exact .inr (.inr ⟨l, r, h⟩)

theorem repeatText_eq_error {t : String} {x : Float} (h : repeatText t x = .error f) :
    ∃ n, f = .repeatTooLarge n := by
  simp only [repeatText] at h
  split_ifs at h
  · exact ⟨_, (Except.error.inj h).symm⟩
  · exact ⟨_, (Except.error.inj h).symm⟩

/-- Arithmetic has no other fault than that a text would become too long. -/
theorem arithmetic_eq_error {op : ArithOp} {l r : Value} (h : arithmetic op l r = .error f) :
    ∃ n, f = .repeatTooLarge n := by
  unfold arithmetic at h
  split at h
  · exact repeatText_eq_error h
  · cases h
  · cases h

/-- An expression can have two faults: a name in it has no value, or a text would become too
long. -/
theorem eval_eq_error {e : Expr} (h : e.eval σ = .error f) :
    (∃ x ∈ e.names, f = .undefined x ∧ σ.isDefined x = false) ∨ ∃ n, f = .repeatTooLarge n := by
  induction e with
  | literal v => cases h
  | var x =>
    rw [eval] at h
    split at h
    · cases h
    · next hx => exact .inl ⟨x, by simp [names], (Except.error.inj h).symm, by simpa using hx⟩
  | signed op x ih =>
    cases op with
    | plus => exact ih h
    | minus =>
      rw [eval, bind_eq_error_iff] at h
      obtain h | ⟨v, -, h⟩ := h
      · exact ih h
      · cases h
  | arith op x y ihx ihy =>
    rw [eval] at h
    simp only [names, List.mem_append, or_and_right, exists_or]
    obtain h | h | ⟨l, r, h⟩ := bind_bind_eq_error h
    · exact (ihx h).imp .inl id
    · exact (ihy h).imp .inr id
    · exact .inr (arithmetic_eq_error h)
  | rel op x y ihx ihy | logic op x y ihx ihy =>
    rw [eval] at h
    simp only [names, List.mem_append, or_and_right, exists_or]
    obtain h | h | ⟨l, r, h⟩ := bind_bind_eq_error h
    · exact (ihx h).imp .inl id
    · exact (ihy h).imp .inr id
    · cases h

end Expr

end BlockScript
