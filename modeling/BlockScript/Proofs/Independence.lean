import BlockScript.Proofs.Lockstep

/-!
# What a run depends on

Whatever a program does, it does by the values of the names that it reads. Two runs that start from
the same values of these names go side by side to the end, whatever other names there are.

* `AgreeSince`: two states that have been kept side by side since the start.
* `agreeSince_lockstep`: every action that reads such names only keeps them so.
* `ends_of_agree`: both runs come to an end, or none does, and they end alike.
-/

namespace BlockScript

/-- Two states that write to the same place and agree on the names in `V`. Any other name is as it
was in `σ₀` and `τ₀`, or has been given the same value in both. -/
structure AgreeSince (V : Set String) (σ₀ τ₀ σ τ : State) : Prop where
  out : σ.out = τ.out
  agree : ∀ x ∈ V, σ.vars.get? x = τ.vars.get? x
  other : ∀ x ∉ V, (σ.vars.get? x = σ₀.vars.get? x ∧ τ.vars.get? x = τ₀.vars.get? x) ∨
    ∃ v, σ.vars.get? x = some v ∧ τ.vars.get? x = some v

variable {V : Set String} {σ₀ τ₀ σ τ : State}

theorem AgreeSince.assign (h : AgreeSince V σ₀ τ₀ σ τ) (x : String) (v : Value) :
    AgreeSince V σ₀ τ₀ (σ.assign x v) (τ.assign x v) := by
  have hσ (y : String) : (σ.assign x v).vars.get? y = if y = x then some v else σ.vars.get? y :=
    σ.vars.get?_set x y v
  have hτ (y : String) : (τ.assign x v).vars.get? y = if y = x then some v else τ.vars.get? y :=
    τ.vars.get?_set x y v
  refine ⟨h.out, fun y hy => ?_, fun y hy => ?_⟩
  · rw [hσ, hτ, h.agree y hy]
  · rw [hσ, hτ]
    by_cases hyx : y = x
    · exact .inr ⟨v, if_pos hyx, if_pos hyx⟩
    · rw [if_neg hyx, if_neg hyx]
      exact h.other y hy

/-- Every action that reads names in `V` only keeps two states side by side. -/
theorem agreeSince_lockstep : LockstepOn V (AgreeSince V σ₀ τ₀) where
  eval h e he := Expr.eval_congr fun x hx => h.agree x (he x hx)
  finished h k i := ⟨h.out, h.agree, h.other⟩
  assign h x v := h.assign x v
  emit h t := by
    obtain ⟨r, out, hσ, hτ⟩ := State.emit_congr h.out t
    rw [hσ, hτ]
    exact ⟨rfl, rfl, h.agree, h.other⟩

/-- Two runs from states that agree on the names which the statement reads end alike. -/
theorem Stmt.Ends.agree {s : Stmt} {r : Ending Fault Flow} (hs : ∀ x ∈ s.readNames, x ∈ V)
    (h : AgreeSince V σ₀ τ₀ σ τ) {ρ : State} (hend : s.Ends σ r ρ) :
    ∃ υ, s.Ends τ r υ ∧ AgreeSince V σ₀ τ₀ ρ υ := by
  obtain ⟨hr, n, hn⟩ := hend
  obtain ⟨r', ρ', υ, hσ, hτ, hagree⟩ := (agreeSince_lockstep.exec n hs h).exists_eq
  obtain ⟨rfl, rfl⟩ : r = r' ∧ ρ = ρ' := Prod.mk.inj (hn.symm.trans hσ)
  exact ⟨υ, ⟨hr, n, hτ⟩, hagree⟩

/-- **Names that a program does not read have no influence on it.** From two states that write to
the same place and agree on all names that a statement reads, both runs come to an end or none does.
They end in the same way and with the same output. The names agree again, and any other name is as
it was in both states, or has the same value in both. -/
theorem ends_of_agree {s : Stmt} (hs : ∀ x ∈ s.readNames, x ∈ V) (hout : σ.out = τ.out)
    (hagree : ∀ x ∈ V, σ.vars.get? x = τ.vars.get? x) :
    ((∃ r ρ, s.Ends σ r ρ) ↔ ∃ r υ, s.Ends τ r υ) ∧
      ∀ r ρ r' υ, s.Ends σ r ρ → s.Ends τ r' υ →
        r = r' ∧ ρ.out = υ.out ∧ (∀ x ∈ V, ρ.vars.get? x = υ.vars.get? x) ∧
          ∀ x ∉ V, (ρ.vars.get? x = σ.vars.get? x ∧ υ.vars.get? x = τ.vars.get? x) ∨
            ∃ v, ρ.vars.get? x = some v ∧ υ.vars.get? x = some v := by
  have hstart : AgreeSince V σ τ σ τ := ⟨hout, hagree, fun x _ => .inl ⟨rfl, rfl⟩⟩
  have hback : AgreeSince V τ σ τ σ :=
    ⟨hout.symm, fun x hx => (hagree x hx).symm, fun x _ => .inl ⟨rfl, rfl⟩⟩
  refine ⟨⟨?_, ?_⟩, fun r ρ r' υ hρ hυ => ?_⟩
  · rintro ⟨r, ρ, hρ⟩
    obtain ⟨υ, hυ, -⟩ := hρ.agree hs hstart
    exact ⟨r, υ, hυ⟩
  · rintro ⟨r, υ, hυ⟩
    obtain ⟨ρ, hρ, -⟩ := hυ.agree hs hback
    exact ⟨r, ρ, hρ⟩
  · obtain ⟨υ', hυ', hend⟩ := hρ.agree hs hstart
    obtain ⟨rfl, rfl⟩ := hυ'.unique hυ
    exact ⟨rfl, hend.out, hend.agree, hend.other⟩

/-- One of the states has two variables more, of which the program assigns one and neither is
read. -/
theorem agree_while_assign_break :
    ∃ s : Stmt, s = .whileDo (.var "PI") (.block [.assign "x" (.var "EXP"),
        .write (.literal (.text "a")) true, .jump .leave]) ∧
      ∃ τ ρ υ : State, τ.vars = (Store.initial.set "x" (.text "b")).set "y" (.text "c") ∧
        s.Ends {} (.ok .normal) ρ ∧ s.Ends τ (.ok .normal) υ ∧ ρ.out = υ.out ∧
        ρ.vars.get? "PI" = υ.vars.get? "PI" ∧
        ((ρ.vars.get? "x" = none ∧ υ.vars.get? "x" = some (.text "b")) ∨
          ∃ v, ρ.vars.get? "x" = some v ∧ υ.vars.get? "x" = some v) := by
  let s : Stmt := .whileDo (.var "PI") (.block [.assign "x" (.var "EXP"),
    .write (.literal (.text "a")) true, .jump .leave])
  let τ : State := { vars := (Store.initial.set "x" (.text "b")).set "y" (.text "c") }
  have hρ : s.Ends {} (.ok .normal) (s.exec 1 {}).2 :=
    ⟨by simp, 1, Prod.ext (by decide) rfl⟩
  have hυ : s.Ends τ (.ok .normal) (s.exec 1 τ).2 :=
    ⟨by simp, 1, Prod.ext (by decide) rfl⟩
  have hread : ∀ x ∈ s.readNames, x ∈ ({"PI", "EXP"} : Set String) := by
    intro x hx
    simpa [s, Stmt.readNames, Stmt.allReadNames, Expr.names] using hx
  have hagree : ∀ x ∈ ({"PI", "EXP"} : Set String),
      (State.vars {}).get? x = τ.vars.get? x := by
    rintro x (rfl | rfl)
    · rfl
    · rfl
  have hstart : State.out {} = τ.out := rfl
  obtain ⟨-, hout, hnames, hother⟩ := (ends_of_agree hread hstart hagree).2 _ _ _ _ hρ hυ
  exact ⟨s, rfl, τ, _, _, rfl, hρ, hυ, hout, hnames "PI" (by simp), hother "x" (by simp)⟩

end BlockScript
