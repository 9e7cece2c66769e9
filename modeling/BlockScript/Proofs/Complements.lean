import BlockScript.Proofs.Doubles
import BlockScript.Proofs.Steps

/-!
# Conditions that are the opposites of each other

* `Expr.Complementary`: in every store, exactly one of two conditions holds, or both have the same
  fault.
* `Expr.Complementary.withValue_eq`: what is done on the one is what is done otherwise on the other.
* `Expr.negation`: the opposite of a condition, as an expression; `Expr.complementary_negation`.
-/

namespace BlockScript

open Decimal

/-- In every store, both expressions have the same fault, or both have a value and exactly one of
the values counts as a condition that holds. -/
def Expr.Complementary (c d : Expr) : Prop :=
  ∀ σ : Store, (∃ f, c.eval σ = .error f ∧ d.eval σ = .error f) ∨
    ∃ v w, c.eval σ = .ok v ∧ d.eval σ = .ok w ∧ w.isTruthy = !v.isTruthy

/-- What is done where a condition holds is what is done where its opposite does not. -/
theorem Expr.Complementary.withValue_eq {c d : Expr} (h : c.Complementary d)
    (f g : State → Outcome) :
    (d.withValue fun v => if v.isTruthy then f else g) =
      c.withValue fun v => if v.isTruthy then g else f := by
  funext σ
  unfold Expr.withValue
  obtain ⟨e, hc, hd⟩ | ⟨v, w, hc, hd, hvw⟩ := h σ.vars
  · rw [hc, hd]
  · rw [hc, hd]
    dsimp only
    rw [hvw]
    cases v.isTruthy <;> rfl

/-! ### The opposite of a condition -/

/-- The condition that an expression, taken as a number with the other sign, is zero. -/
def Expr.negation (c : Expr) : Expr :=
  .rel .equal (.signed .minus c) (.literal (.number zero))

/-- The opposite of a number compares as equal to zero exactly where the number does. -/
theorem compareNumbers_neg_zero (x : Float) :
    (compareNumbers (-x) zero == some .eq) = (x == zero) := by
  rw [← neg_beq_zero x]
  unfold compareNumbers
  cases heq : -x == zero with
  | true => simp [not_lt_of_beq_zero heq]
  | false =>
    simp only [Bool.false_eq_true, if_false]
    split_ifs <;> rfl

theorem Value.isTruthy_ofBool (b : Bool) : (Value.ofBool b).isTruthy = b := by
  cases b <;> decide

theorem Expr.eval_negation (c : Expr) (σ : Store) : c.negation.eval σ =
    (c.eval σ).map fun v => .ofBool (!v.isTruthy) := by
  rw [negation, eval, eval, eval]
  cases c.eval σ with
  | error f => rfl
  | ok v =>
    change Except.ok (Value.ofBool (compareNumbers (-v.toNumber) zero == some .eq)) = _
    rw [compareNumbers_neg_zero]
    simp [Except.map, Value.isTruthy, bne]

/-- An expression and its negation are the opposites of each other. -/
theorem Expr.complementary_negation (c : Expr) : c.Complementary c.negation := by
  intro σ
  rw [eval_negation]
  cases c.eval σ with
  | error f => exact .inl ⟨f, rfl, rfl⟩
  | ok v => exact .inr ⟨v, _, rfl, rfl, Value.isTruthy_ofBool _⟩

end BlockScript
