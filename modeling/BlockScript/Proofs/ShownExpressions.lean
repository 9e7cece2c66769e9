import BlockScript.Proofs.QuotedText
import BlockScript.Proofs.SourceTrees

/-!
# Expressions that are shown look different

An expression is shown with its operations in brackets, its texts in quotes and its names and
numbers as they are. What comes behind it ends its last name or number, so each expression can be
told from how it is shown.

* `EndsAtom`: what comes behind an expression.
* `Look`: what kind of expression a character starts.
* `IsBinary`: the operators that operations with two operands are shown with.
* `Expr.separates`: an expression that is shown tells the expression and where it ends.
-/

namespace BlockScript

open Character Piece Decimal Grammar

/-! ### Single names and numbers -/

/-- The text starts with a character that comes behind an expression, if with any. -/
def EndsAtom (u : List Char) : Prop :=
  ∀ c ∈ u.head?, c = ' ' ∨ c = ']' ∨ c = '\n'

theorem endsAtom_cons {c : Char} {u : List Char} (h : c = ' ' ∨ c = ']' ∨ c = '\n') :
    EndsAtom (c :: u) := by
  simpa [EndsAtom] using h

theorem EndsAtom.stops {u : List Char} (h : EndsAtom u) {q : Char → Bool} (hspace : q ' ' = false)
    (hbracket : q ']' = false) (hnewline : q '\n' = false) : Stops q u := by
  intro c hc
  obtain rfl | rfl | rfl := h c hc
  · exact hspace
  · exact hbracket
  · exact hnewline

theorem EndsAtom.stops_inWord {u : List Char} (h : EndsAtom u) : Stops inWord u :=
  h.stops (by decide +kernel) (by decide +kernel) (by decide +kernel)

theorem EndsAtom.stops_inNumber {u : List Char} (h : EndsAtom u) : Stops inNumber u :=
  h.stops (by decide) (by decide) (by decide)

/-- What an expression looks like from its first character. -/
inductive Look where
  | text | number | name | operation
  /-- No expression starts so. -/
  | other
  deriving DecidableEq

/-- The look of an expression that starts with the character. -/
def Look.ofChar (c : Char) : Look :=
  if c = '"' then .text
  else if c = '[' then .operation
  else if c.isDigit then .number
  else if isAlphabetic c then .name
  else .other

/-- The look of an expression. -/
def Expr.look : Expr → Look
  | .literal (.text _) => .text
  | .literal (.number _) => .number
  | .var _ => .name
  | .signed .. | .arith .. | .rel .. | .logic .. => .operation

/-- The look of a text. -/
def Look.ofText (cs : List Char) : Option Look :=
  cs.head?.map Look.ofChar

theorem Look.ofChar_of_isDigit {c : Char} (h : c.isDigit = true) : Look.ofChar c = .number := by
  have hquote : c ≠ '"' := by
    rintro rfl
    cases h
  have hbracket : c ≠ '[' := by
    rintro rfl
    cases h
  simp [Look.ofChar, hquote, hbracket, h]

theorem Look.ofChar_of_isAlphabetic {c : Char} (h : isAlphabetic c = true) :
    Look.ofChar c = .name := by
  have hquote : c ≠ '"' := by
    rintro rfl
    exact absurd h (by decide +kernel)
  have hbracket : c ≠ '[' := by
    rintro rfl
    exact absurd h (by decide +kernel)
  have hdigit : c.isDigit = false := by
    by_contra hdigit
    rw [not_isAlphabetic_of_isDigit (by simpa using hdigit)] at h
    cases h
  simp [Look.ofChar, hquote, hbracket, hdigit, h]

theorem Expr.Writable.ofText_render {e : Expr} (h : e.Writable) (u : List Char) :
    Look.ofText (e.render.toList ++ u) = some e.look := by
  cases e with
  | literal v =>
    cases v with
    | text t => simp [render, Value.renderLiteral, Text.quoted, Look.ofText, Look.ofChar, look]
    | number x =>
      obtain ⟨c, cs, hcons, hc⟩ := (isNumber_numberText h).exists_eq_cons
      simp [render, Value.renderLiteral, hcons, Look.ofText, Look.ofChar_of_isDigit hc, look]
  | var w =>
    obtain ⟨c, cs, hcons, hc, -⟩ := h.1
    simp [render, hcons, Look.ofText, Look.ofChar_of_isAlphabetic hc, look]
  | signed op x => simp [render, Look.ofText, Look.ofChar, look]
  | arith op x y | rel op x y | logic op x y =>
    simp [render, renderBinary, Look.ofText, Look.ofChar, look]

theorem Expr.Writable.look_eq {e f : Expr} (he : e.Writable) (hf : f.Writable) {u v : List Char}
    (h : e.render.toList ++ u = f.render.toList ++ v) : e.look = f.look := by
  have hlook := he.ofText_render u
  rw [h, hf.ofText_render v] at hlook
  exact (Option.some.inj hlook).symm

/-! ### Operations -/

/-- The constructor makes operations that are shown with the operator `w`. -/
inductive IsBinary : (Expr → Expr → Expr) → String → Prop
  | arith (op : ArithOp) : IsBinary (.arith op) op.render
  | rel (op : RelOp) : IsBinary (.rel op) op.render
  | logic (op : LogicOp) : IsBinary (.logic op) op.render

/-- The operation that is shown with the operator. -/
def operation? : String → Option (Expr → Expr → Expr)
  | "+" => some (.arith .add)
  | "-" => some (.arith .sub)
  | "*" => some (.arith .mul)
  | "/" => some (.arith .div)
  | "<" => some (.rel .less)
  | "<=" => some (.rel .lessEqual)
  | ">" => some (.rel .greater)
  | ">=" => some (.rel .greaterEqual)
  | "==" => some (.rel .equal)
  | "<>" => some (.rel .notEqual)
  | "and" => some (.logic .conj)
  | "or" => some (.logic .disj)
  | _ => none

section Binary

variable {f g : Expr → Expr → Expr} {w : String} {x y : Expr}

theorem IsBinary.operation? (hf : IsBinary f w) : operation? w = some f := by
  cases hf with
  | arith op => cases op <;> rfl
  | rel op => cases op <;> rfl
  | logic op => cases op <;> rfl

theorem IsBinary.ne_space (hf : IsBinary f w) : ∀ c ∈ w.toList, (c != ' ') = true := by
  cases hf with
  | arith op => cases op <;> simp [ArithOp.render]
  | rel op => cases op <;> simp [RelOp.render]
  | logic op => cases op <;> simp [LogicOp.render]

theorem IsBinary.toList_render (hf : IsBinary f w) (x y : Expr) (u : List Char) :
    (f x y).render.toList ++ u = '[' :: (x.render.toList ++
      ' ' :: (w.toList ++ ' ' :: (y.render.toList ++ ']' :: u))) := by
  cases hf <;> simp [Expr.render, renderBinary]

theorem IsBinary.writable_iff (hf : IsBinary f w) : (f x y).Writable ↔ x.Writable ∧ y.Writable := by
  cases hf <;> rfl

theorem Expr.toList_render_signed (op : Sign) (x : Expr) (u : List Char) :
    (Expr.signed op x).render.toList ++ u =
      '[' :: (op.render.toList ++ ' ' :: (x.render.toList ++ ']' :: u)) := by
  simp [render]

/-- An expression that looks like an operation is one with one operand or with two. -/
theorem Expr.cases_of_look_operation {e : Expr} (h : e.look = .operation) :
    (∃ op x, e = .signed op x) ∨ ∃ f w x y, IsBinary f w ∧ e = f x y := by
  cases e with
  | literal v => cases v <;> cases h
  | var w => cases h
  | signed op x => exact .inl ⟨op, x, rfl⟩
  | arith op x y => exact .inr ⟨_, _, x, y, .arith op, rfl⟩
  | rel op x y => exact .inr ⟨_, _, x, y, .rel op, rfl⟩
  | logic op x y => exact .inr ⟨_, _, x, y, .logic op, rfl⟩

/-- No expression starts with the operator that a sign is shown with. -/
theorem Expr.Writable.ne_sign (hx : x.Writable) (op : Sign) (u v : List Char) :
    x.render.toList ++ u ≠ op.render.toList ++ v := by
  intro h
  have hplus : Look.ofChar '+' = .other := by decide +kernel
  have hminus : Look.ofChar '-' = .other := by decide +kernel
  have hother : some x.look = some .other := by
    rw [← hx.ofText_render u, h]
    cases op <;> simp [Sign.render, Look.ofText, hplus, hminus]
  cases x with
  | literal v => cases v <;> cases hother
  | _ => cases hother

/-- A text that starts with the expression and goes on behind it is taken apart in one way only. -/
def Expr.Separates (e : Expr) : Prop :=
  e.Writable → ∀ {f : Expr} {u v : List Char}, f.Writable → EndsAtom u → EndsAtom v →
    e.render.toList ++ u = f.render.toList ++ v → e = f ∧ u = v

theorem IsBinary.separates (hf : IsBinary f w) (hx : x.Separates) (hy : y.Separates) :
    (f x y).Separates := by
  intro he e' u v he' hu hv h
  have hlook : (f x y).look = .operation := by cases hf <;> rfl
  rw [he.look_eq he' h] at hlook
  rw [hf.writable_iff] at he
  rw [hf.toList_render] at h
  obtain ⟨op, x', rfl⟩ | ⟨g, w', x', y', hg, rfl⟩ := Expr.cases_of_look_operation hlook
  · rw [Expr.toList_render_signed] at h
    exact absurd (List.tail_eq_of_cons_eq h) (he.1.ne_sign op _ _)
  · rw [hg.writable_iff] at he'
    rw [hg.toList_render] at h
    have hspace (r : List Char) : Stops (· != ' ') (' ' :: r) := stops_cons_iff.2 (by simp)
    obtain ⟨rfl, hop⟩ := hx he.1 he'.1 (endsAtom_cons (.inl rfl)) (endsAtom_cons (.inl rfl))
      (List.tail_eq_of_cons_eq h)
    obtain ⟨hw, hright⟩ := append_inj_of_stops hf.ne_space hg.ne_space (hspace _) (hspace _)
      (List.tail_eq_of_cons_eq hop)
    obtain rfl := String.toList_inj.1 hw
    obtain rfl : f = g := Option.some.inj (hf.operation?.symm.trans hg.operation?)
    obtain ⟨rfl, hend⟩ := hy he.2 he'.2 (endsAtom_cons (.inr (.inl rfl)))
      (endsAtom_cons (.inr (.inl rfl))) (List.tail_eq_of_cons_eq hright)
    exact ⟨rfl, List.tail_eq_of_cons_eq hend⟩

theorem Expr.Separates.signed (hx : x.Separates) (op : Sign) : (Expr.signed op x).Separates := by
  intro he e' u v he' hu hv h
  have hlook : e'.look = .operation := (he.look_eq he' h).symm
  rw [toList_render_signed] at h
  obtain ⟨op', x', rfl⟩ | ⟨g, w', x', y', hg, rfl⟩ := Expr.cases_of_look_operation hlook
  · rw [toList_render_signed] at h
    have hop := List.tail_eq_of_cons_eq h
    obtain rfl : op = op' := by cases op <;> cases op' <;> first | rfl | cases hop
    have hx' : x'.Writable := he'
    obtain ⟨rfl, hend⟩ := hx he hx' (endsAtom_cons (.inr (.inl rfl)))
      (endsAtom_cons (.inr (.inl rfl))) (List.tail_eq_of_cons_eq (List.append_cancel_left hop))
    exact ⟨rfl, List.tail_eq_of_cons_eq hend⟩
  · rw [hg.writable_iff] at he'
    rw [hg.toList_render] at h
    exact absurd (List.tail_eq_of_cons_eq h).symm (he'.1.ne_sign op _ _)

end Binary

theorem Expr.separates (e : Expr) : e.Separates := by
  induction e with
  | literal a =>
    intro he f u v hf hu hv h
    have hlook := he.look_eq hf h
    cases a with
    | text t =>
      cases f with
      | literal b =>
        cases b with
        | text t' =>
          obtain ⟨rfl, rfl⟩ := Text.quoted_append_inj h
          exact ⟨rfl, rfl⟩
        | number x => cases hlook
      | _ => cases hlook
    | number x =>
      cases f with
      | literal b =>
        cases b with
        | text t => cases hlook
        | number y =>
          obtain ⟨htext, rfl⟩ := append_inj_of_stops (isNumber_numberText he).inNumber
            (isNumber_numberText hf).inNumber hu.stops_inNumber hv.stops_inNumber h
          obtain rfl := numberText_injective he hf (String.toList_inj.1 htext)
          exact ⟨rfl, rfl⟩
      | _ => cases hlook
  | var w =>
    intro he f u v hf hu hv h
    have hlook := he.look_eq hf h
    cases f with
    | literal b => cases b <;> cases hlook
    | var w' =>
      obtain ⟨hw, rfl⟩ := append_inj_of_stops he.1.inWord hf.1.inWord hu.stops_inWord
        hv.stops_inWord h
      exact ⟨congrArg _ (String.toList_inj.1 hw), rfl⟩
    | _ => cases hlook
  | signed op x ih => exact ih.signed op
  | arith op x y ihx ihy => exact (IsBinary.arith op).separates ihx ihy
  | rel op x y ihx ihy => exact (IsBinary.rel op).separates ihx ihy
  | logic op x y ihx ihy => exact (IsBinary.logic op).separates ihx ihy

end BlockScript
