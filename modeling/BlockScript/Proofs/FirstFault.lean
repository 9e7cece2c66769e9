import BlockScript.Proofs.Names
import Mathlib.Data.List.TakeWhile

/-!
# The first fault of an expression

All operands are evaluated, from the left, so an expression with a value has defined names only, and
the fault of one without is the first that evaluation meets: a name without a value, or a product
that would become too long.

* `Expr.firstUndefined?`: the leftmost name without a value.
* `Expr.PartAt`: a part of an expression and the names to the left of it.
* `Expr.OverlongAhead`: a product that would become too long stands to the left of the leftmost name
  without a value.
* `Expr.eval_first_fault`: how these tell the fault of an expression.
-/

namespace BlockScript

namespace Expr

variable {σ : Store} {e x y p : Expr} {g : Value → Value → Except Fault Value} {f : Fault}

/-! ### Operations -/

/-- The expression is an operation on `x` and `y`, which makes of their values what `g` says. -/
inductive Applies (x y : Expr) : (Value → Value → Except Fault Value) → Expr → Prop
  | arith (op : ArithOp) : Applies x y (arithmetic op) (.arith op x y)
  | rel (op : RelOp) :
      Applies x y (fun l r => .ok (.ofBool (op.holds (compareValues l r)))) (.rel op x y)
  | logic (op : LogicOp) :
      Applies x y (fun l r => .ok (.ofBool (op.apply l.isTruthy r.isTruthy))) (.logic op x y)

/-- Induction on an expression, with one case for all operations on two operands. -/
theorem induction_applies {motive : Expr → Prop} (e : Expr)
    (literal : ∀ v, motive (.literal v)) (var : ∀ x, motive (.var x))
    (signed : ∀ op x, motive x → motive (.signed op x))
    (applies : ∀ x y g e, Applies x y g e → motive x → motive y → motive e) : motive e := by
  induction e with
  | literal v => exact literal v
  | var x => exact var x
  | signed op x ih => exact signed op x ih
  | arith op x y ihx ihy => exact applies x y _ _ (.arith op) ihx ihy
  | rel op x y ihx ihy => exact applies x y _ _ (.rel op) ihx ihy
  | logic op x y ihx ihy => exact applies x y _ _ (.logic op) ihx ihy

theorem Applies.names_eq (h : Applies x y g e) : e.names = x.names ++ y.names := by
  cases h <;> rfl

theorem Applies.eval_eq (h : Applies x y g e) (σ : Store) :
    e.eval σ = x.eval σ >>= fun l => y.eval σ >>= fun r => g l r := by
  cases h <;> rfl

/-- An operation has the fault of its left operand, or else that of the right one, whatever the
value of the left one is, or else one of its own. -/
theorem Applies.eval_eq_error_iff (h : Applies x y g e) :
    e.eval σ = .error f ↔ x.eval σ = .error f ∨
      ∃ l, x.eval σ = .ok l ∧ (y.eval σ = .error f ∨ ∃ r, y.eval σ = .ok r ∧ g l r = .error f) := by
  simp only [h.eval_eq, bind_eq_error_iff]

theorem Applies.exists_of_eval_eq_ok (h : Applies x y g e) {v : Value} (heval : e.eval σ = .ok v) :
    ∃ l r, x.eval σ = .ok l ∧ y.eval σ = .ok r := by
  rw [h.eval_eq] at heval
  cases hx : x.eval σ with
  | error f =>
    rw [hx] at heval
    cases heval
  | ok l =>
    cases hy : y.eval σ with
    | error f =>
      rw [hx, hy] at heval
      cases heval
    | ok r => exact ⟨l, r, rfl, rfl⟩

/-- The one fault of an operation itself is that of a product whose text would become too long. -/
theorem Applies.eq_mul (h : Applies x y g e) {l r : Value} (hg : g l r = .error f) :
    e = .arith .mul x y ∧
      ∃ t n, l = .text t ∧ repeatText t r.toNumber = .error f ∧ f = .repeatTooLarge n := by
  cases h with
  | rel op | logic op => cases hg
  | arith op =>
    obtain ⟨n, rfl⟩ := arithmetic_eq_error hg
    unfold arithmetic at hg
    split at hg
    · next t => exact ⟨rfl, t, n, rfl, hg, rfl⟩
    · cases hg
    · cases hg

/-- A sign has no fault of its own. -/
theorem eval_signed_eq_error_iff {op : Sign} :
    (signed op x).eval σ = .error f ↔ x.eval σ = .error f := by
  cases op with
  | plus => rfl
  | minus =>
    rw [eval, bind_eq_error_iff]
    exact or_iff_left (by rintro ⟨v, -, h⟩; cases h)

theorem exists_of_eval_signed_eq_ok {op : Sign} {v : Value} (h : (signed op x).eval σ = .ok v) :
    ∃ w, x.eval σ = .ok w := by
  cases hx : x.eval σ with
  | error f =>
    rw [eval_signed_eq_error_iff.2 hx] at h
    cases h
  | ok w => exact ⟨w, rfl⟩

/-! ### Names without a value -/

/-- The leftmost name in the expression that has no value. -/
def firstUndefined? (σ : Store) (e : Expr) : Option String :=
  e.names.find? fun x => !σ.isDefined x

/-- The names to the left of the leftmost one that has no value; all names if each has one. -/
def namesAhead (σ : Store) (e : Expr) : List String :=
  e.names.takeWhile σ.isDefined

theorem firstUndefined?_eq_none_iff :
    e.firstUndefined? σ = none ↔ ∀ x ∈ e.names, σ.isDefined x = true := by
  simp [firstUndefined?]

/-- An expression with a value has defined names only. -/
theorem isDefined_of_eval_eq_ok {v : Value} (h : e.eval σ = .ok v) :
    ∀ x ∈ e.names, σ.isDefined x = true := by
  induction e using induction_applies generalizing v with
  | literal w => simp [names]
  | var x =>
    intro z hz
    obtain rfl : z = x := by simpa [names] using hz
    rw [eval] at h
    split at h
    · assumption
    · cases h
  | signed op x ih =>
    obtain ⟨w, hx⟩ := exists_of_eval_signed_eq_ok h
    exact ih hx
  | applies x y g e happ ihx ihy =>
    obtain ⟨l, r, hx, hy⟩ := happ.exists_of_eval_eq_ok h
    rw [happ.names_eq]
    intro z hz
    exact (List.mem_append.1 hz).elim (ihx hx z) (ihy hy z)

/-- A name that is reported is the leftmost one without a value. -/
theorem firstUndefined?_of_eval {z : String} (h : e.eval σ = .error (.undefined z)) :
    e.firstUndefined? σ = some z := by
  induction e using induction_applies with
  | literal w => cases h
  | var x =>
    rw [eval] at h
    split at h
    · cases h
    · next hx =>
      cases h
      simp [firstUndefined?, names, hx]
  | signed op x ih => exact ih (eval_signed_eq_error_iff.1 h)
  | applies x y g e happ ihx ihy =>
    have happend : e.firstUndefined? σ = (x.firstUndefined? σ).or (y.firstUndefined? σ) := by
      simp [firstUndefined?, happ.names_eq, List.find?_append]
    rw [happend]
    obtain hx | ⟨l, hx, hy | ⟨r, -, hg⟩⟩ := happ.eval_eq_error_iff.1 h
    · rw [ihx hx, Option.some_or]
    · -- the left operand has a value, so all of its names have one
      rw [firstUndefined?_eq_none_iff.2 (isDefined_of_eval_eq_ok hx), ihy hy, Option.none_or]
    · obtain ⟨-, t, n, -, -, hf⟩ := happ.eq_mul hg
      cases hf

/-! ### Products that would become too long -/

/-- The expression `p` is a part of another, and the given names stand to the left of it there. -/
inductive PartAt (p : Expr) : List String → Expr → Prop
  | whole : PartAt p [] p
  | operand {front : List String} {x : Expr} (op : Sign) :
      PartAt p front x → PartAt p front (.signed op x)
  | left {front : List String} {x y e : Expr} {g : Value → Value → Except Fault Value} :
      Applies x y g e → PartAt p front x → PartAt p front e
  | right {front : List String} {x y e : Expr} {g : Value → Value → Except Fault Value} :
      Applies x y g e → PartAt p front y → PartAt p (x.names ++ front) e

theorem PartAt.prefix_names {front : List String} (h : PartAt p front e) :
    front ++ p.names <+: e.names := by
  induction h with
  | whole => exact List.prefix_rfl
  | operand op _ ih => exact ih
  | left happ _ ih =>
    rw [happ.names_eq]
    exact ih.trans (List.prefix_append ..)
  | right happ _ ih =>
    rw [happ.names_eq, List.append_assoc]
    exact (List.prefix_append_right_inj _).2 ih

/-- Both operands of the product `x * y` have values, but the text that they make would become too
long: the product has a fault of its own. -/
def Overlong (σ : Store) (x y : Expr) (f : Fault) : Prop :=
  ∃ t v, x.eval σ = .ok (.text t) ∧ y.eval σ = .ok v ∧ repeatText t v.toNumber = .error f

/-- A product that would become too long stands in the expression, and its operands entirely to the
left of the leftmost name without a value. -/
def OverlongAhead (σ : Store) (e : Expr) (f : Fault) : Prop :=
  ∃ front x y, PartAt (.arith .mul x y) front e ∧ front ++ x.names ++ y.names <+: e.namesAhead σ ∧
    Overlong σ x y f

theorem Overlong.eval_eq (h : Overlong σ x y f) : (arith .mul x y).eval σ = .error f := by
  obtain ⟨t, v, hx, hy, hrepeat⟩ := h
  simpa [eval, hx, hy, bind, Except.bind, arithmetic] using hrepeat

/-- A text that would become too long comes from a product with defined names only in front. -/
theorem exists_overlong {n : Float} (h : e.eval σ = .error (.repeatTooLarge n)) :
    ∃ front x y, PartAt (.arith .mul x y) front e ∧ (∀ z ∈ front, σ.isDefined z = true) ∧
      Overlong σ x y (.repeatTooLarge n) := by
  induction e using induction_applies with
  | literal w => cases h
  | var x =>
    rw [eval] at h
    split at h <;> cases h
  | signed op x ih =>
    obtain ⟨front, l, r, hpart, hfront, hlong⟩ := ih (eval_signed_eq_error_iff.1 h)
    exact ⟨front, l, r, .operand op hpart, hfront, hlong⟩
  | applies x y g e happ ihx ihy =>
    obtain hx | ⟨v, hx, hy | ⟨w, hy, hg⟩⟩ := happ.eval_eq_error_iff.1 h
    · obtain ⟨front, l, r, hpart, hfront, hlong⟩ := ihx hx
      exact ⟨front, l, r, .left happ hpart, hfront, hlong⟩
    · obtain ⟨front, l, r, hpart, hfront, hlong⟩ := ihy hy
      refine ⟨x.names ++ front, l, r, .right happ hpart, fun z hz => ?_, hlong⟩
      exact (List.mem_append.1 hz).elim (isDefined_of_eval_eq_ok hx z) (hfront z)
    · obtain ⟨rfl, t, -, rfl, hrepeat, -⟩ := happ.eq_mul hg
      exact ⟨[], x, y, .whole, by simp, t, w, hx, hy, hrepeat⟩

/-- Behind defined names a text that would become too long is met, or another one before it. -/
theorem PartAt.exists_eval {front : List String} (h : PartAt p front e)
    (hfront : ∀ z ∈ front, σ.isDefined z = true) {n : Float}
    (hp : p.eval σ = .error (.repeatTooLarge n)) : ∃ n, e.eval σ = .error (.repeatTooLarge n) := by
  induction h with
  | whole => exact ⟨n, hp⟩
  | operand op _ ih =>
    obtain ⟨n, hx⟩ := ih hfront
    exact ⟨n, eval_signed_eq_error_iff.2 hx⟩
  | left happ _ ih =>
    obtain ⟨n, hx⟩ := ih hfront
    exact ⟨n, happ.eval_eq_error_iff.2 (.inl hx)⟩
  | @right front x y e g happ _ ih =>
    obtain ⟨n, hy⟩ := ih fun z hz => hfront z (List.mem_append_right _ hz)
    cases hx : x.eval σ with
    | ok l => exact ⟨n, happ.eval_eq_error_iff.2 (.inr ⟨l, hx, .inl hy⟩)⟩
    | error f =>
      obtain ⟨z, hz, -, hundefined⟩ | ⟨m, rfl⟩ := eval_eq_error hx
      · rw [hfront z (List.mem_append_left _ hz)] at hundefined
        cases hundefined
      · exact ⟨m, happ.eval_eq_error_iff.2 (.inl hx)⟩

/-- Where a text would become too long, the names to the left of that product and in it are defined,
so the product stands ahead of the leftmost name without a value. -/
theorem overlongAhead_of_eval {n : Float} (h : e.eval σ = .error (.repeatTooLarge n)) :
    e.OverlongAhead σ (.repeatTooLarge n) := by
  obtain ⟨front, x, y, hpart, hfront, hlong⟩ := exists_overlong h
  refine ⟨front, x, y, hpart, ?_, hlong⟩
  obtain ⟨rest, hrest⟩ := hpart.prefix_names
  obtain ⟨t, v, hx, hy, -⟩ := hlong
  have hdefined : ∀ z ∈ front ++ x.names ++ y.names, σ.isDefined z = true := by
    intro z hz
    simp only [List.mem_append] at hz
    obtain (hz | hz) | hz := hz
    · exact hfront z hz
    · exact isDefined_of_eval_eq_ok hx z hz
    · exact isDefined_of_eval_eq_ok hy z hz
  rw [namesAhead, ← hrest, names, ← List.append_assoc, List.takeWhile_append_of_pos hdefined]
  exact List.prefix_append ..

theorem OverlongAhead.exists_eval (h : e.OverlongAhead σ f) :
    ∃ n, e.eval σ = .error (.repeatTooLarge n) := by
  obtain ⟨front, x, y, hpart, hahead, hlong⟩ := h
  obtain ⟨t, v, -, -, hrepeat⟩ := id hlong
  obtain ⟨n, rfl⟩ := repeatText_eq_error hrepeat
  refine hpart.exists_eval (fun z hz => ?_) hlong.eval_eq
  have hz : z ∈ e.namesAhead σ := hahead.subset (by simp [hz])
  exact List.mem_takeWhile_imp hz

/-! ### The first fault -/

/-- **Evaluation is strict and reports the first fault.** An expression with a value has defined
names only. A name that is reported is the leftmost one without a value. With defined names only,
the one fault is that a text would become too long; with another name, the leftmost such name is
reported, unless a product to the left of it would become too long. No other fault arises. -/
theorem eval_first_fault (e : Expr) (σ : Store) :
    (∀ v, e.eval σ = .ok v → ∀ x ∈ e.names, σ.isDefined x = true) ∧
      (∀ x, e.eval σ = .error (.undefined x) → e.firstUndefined? σ = some x) ∧
      ((∀ x ∈ e.names, σ.isDefined x = true) →
        ∀ f, e.eval σ = .error f → ∃ n, f = .repeatTooLarge n) ∧
      ((∃ x ∈ e.names, σ.isDefined x = false) → ∃ x, e.firstUndefined? σ = some x ∧
        ((e.eval σ = .error (.undefined x) ∧ ∀ f, ¬ e.OverlongAhead σ f) ∨
          ∃ n, e.eval σ = .error (.repeatTooLarge n) ∧
            e.OverlongAhead σ (.repeatTooLarge n))) ∧
      ∀ f, e.eval σ = .error f → (∀ j, f ≠ .misplacedJump j) ∧ ∀ s, f ≠ .output s := by
  refine ⟨fun v => isDefined_of_eval_eq_ok, fun x => firstUndefined?_of_eval, ?_, ?_, ?_⟩
  · intro hdefined f h
    obtain ⟨x, hx, -, hundefined⟩ | hlong := eval_eq_error h
    · rw [hdefined x hx] at hundefined
      cases hundefined
    · exact hlong
  · rintro ⟨x, hx, hundefined⟩
    cases heval : e.eval σ with
    | ok v =>
      rw [isDefined_of_eval_eq_ok heval x hx] at hundefined
      cases hundefined
    | error f =>
      obtain ⟨z, -, rfl, -⟩ | ⟨n, rfl⟩ := eval_eq_error heval
      · refine ⟨z, firstUndefined?_of_eval heval, .inl ⟨rfl, fun f hahead => ?_⟩⟩
        obtain ⟨n, hn⟩ := hahead.exists_eval
        rw [heval] at hn
        cases hn
      · cases hfirst : e.firstUndefined? σ with
        | none =>
          rw [firstUndefined?_eq_none_iff.1 hfirst x hx] at hundefined
          cases hundefined
        | some z => exact ⟨z, rfl, .inr ⟨n, rfl, overlongAhead_of_eval heval⟩⟩
  · intro f h
    obtain ⟨x, -, rfl, -⟩ | ⟨n, rfl⟩ := eval_eq_error h
    · exact ⟨fun j => Fault.noConfusion, fun s => Fault.noConfusion⟩
    · exact ⟨fun j => Fault.noConfusion, fun s => Fault.noConfusion⟩

/-- A sum of a text that would become too long and a name without a value, in both orders. -/
theorem eval_overlong_undefined :
    let product := Expr.arith .mul (.literal (.text "ab")) (.literal (.number Decimal.infinity))
    let right := Expr.arith .add product (.var "y")
    let left := Expr.arith .add (.var "y") product
    right.firstUndefined? .initial = some "y" ∧ left.firstUndefined? .initial = some "y" ∧
      right.OverlongAhead .initial (.repeatTooLarge Decimal.infinity) ∧
      right.eval .initial = .error (.repeatTooLarge Decimal.infinity) ∧
      (∀ f, ¬ left.OverlongAhead .initial f) ∧ left.eval .initial = .error (.undefined "y") := by
  intro product right left
  have hright : right.eval .initial = .error (.repeatTooLarge Decimal.infinity) := by decide +kernel
  have hleft : left.eval .initial = .error (.undefined "y") := by decide +kernel
  have hundefined : Store.initial.isDefined "y" = false := by decide
  obtain ⟨-, -, -, hfirst, -⟩ := eval_first_fault right .initial
  obtain ⟨-, hreported, -, hfirst', -⟩ := eval_first_fault left .initial
  obtain ⟨x, hx, ⟨h, -⟩ | ⟨n, hn, hahead⟩⟩ := hfirst ⟨"y", by decide, hundefined⟩
  · rw [hright] at h
    cases h
  obtain ⟨x', hx', ⟨-, hnone⟩ | ⟨m, h, -⟩⟩ := hfirst' ⟨"y", by decide, hundefined⟩
  · rw [hright] at hn
    cases hn
    exact ⟨by decide, hreported "y" hleft, hahead, hright, hnone, hleft⟩
  · rw [hleft] at h
    cases h

end Expr

end BlockScript
