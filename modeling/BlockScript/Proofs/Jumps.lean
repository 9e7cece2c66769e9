import BlockScript.Proofs.Steps
import BlockScript.Session

/-!
# Jumps and the loops around them

A jump ends the nearest loop around it or starts its next round, and nothing else becomes of it. A
statement hands a jump on only if one stands in it outside of all its loops.

* `Stmt.hasLoose`: a jump stands in the statement outside of all its loops.
* `HandsOn`: the ways in which a run hands on control; `handsOn_whileDo`, `handsOn_repeatUntil`: a
  loop hands on no jump.
* `Stmt.exec_handsOn`: a statement hands on only those jumps that stand outside of its loops.
* `hasLoose_of_jump`: what a program is blamed for that has a jump outside of a loop.
-/

namespace BlockScript

mutual

/-- The jump stands in the statement outside of all its loops. -/
def Stmt.hasLoose (j : Jump) : Stmt → Bool
  | .jump k => decide (k = j)
  | .ifThen _ s => s.hasLoose j
  | .ifElse _ s t => s.hasLoose j || t.hasLoose j
  | .block ss => Stmt.anyLoose j ss
  | .assign .. | .write .. | .whileDo .. | .repeatUntil .. => false

/-- The jump stands in one of the statements outside of all its loops. -/
def Stmt.anyLoose (j : Jump) : List Stmt → Bool
  | [] => false
  | s :: ss => s.hasLoose j || Stmt.anyLoose j ss

end

/-! ### The ways in which a run hands on control -/

/-- Where the run ends without a fault, it hands on control in one of the ways `F`. -/
def HandsOn (F : Set Flow) (run : State → Outcome) : Prop :=
  ∀ σ flow, (run σ).1 = .ok flow → flow ∈ F

section HandsOn

variable {F G : Set Flow} {run : State → Outcome}

theorem handsOn_pass {flow : Flow} (h : flow ∈ F) (f : State → State) :
    HandsOn F fun σ => (.ok flow, f σ) := by
  intro σ flow' heq
  cases heq
  exact h

theorem HandsOn.mono (h : HandsOn F run) (hFG : F ⊆ G) : HandsOn G run :=
  fun σ flow heq => hFG (h σ flow heq)

theorem handsOn_withValue (e : Expr) {next : Value → State → Outcome}
    (hnext : ∀ v, HandsOn F (next v)) : HandsOn F (e.withValue next) := by
  intro σ flow heq
  unfold Expr.withValue at heq
  cases he : e.eval σ.vars with
  | error f =>
    rw [he] at heq
    cases heq
  | ok v =>
    rw [he] at heq
    exact hnext v σ flow heq

theorem handsOn_test (c : Expr) {f g : State → Outcome} (hf : HandsOn F f) (hg : HandsOn F g) :
    HandsOn F (c.withValue fun v => if v.isTruthy then f else g) := by
  refine handsOn_withValue c fun v => ?_
  split
  · exact hf
  · exact hg

theorem HandsOn.andThen {next : Flow → State → Outcome} (h : HandsOn F run)
    (hnext : ∀ flow ∈ F, HandsOn G (next flow)) : HandsOn G fun σ => (run σ).andThen next := by
  intro σ flow heq
  have hfirst := h σ
  dsimp only at heq
  generalize run σ = o at hfirst heq
  obtain ⟨flow' | f | _, τ⟩ := o
  · exact hnext flow' (hfirst flow' rfl) τ flow heq
  · cases heq
  · cases heq

theorem handsOn_emit (t : String) : HandsOn {.normal} fun σ => σ.emit t := by
  intro σ flow heq
  obtain ⟨r, out, hemit, hr⟩ := σ.emit_cases t
  simp only [hemit] at heq
  obtain rfl | ⟨e, rfl⟩ := hr
  · cases heq
    rfl
  · cases heq

/-! ### Loops -/

theorem handsOn_behind {next : State → Outcome} (hnext : HandsOn {.normal} next) (k : LoopKind)
    (rounds : Nat) (flow : Flow) : HandsOn {.normal} (Loop.behind k rounds next flow) := by
  unfold Loop.behind
  split
  · exact handsOn_pass (Set.mem_singleton _) _
  · exact hnext

/-- Whatever its body does, a loop hands on no jump. -/
theorem handsOn_whileDo (c : Expr) (body : State → Outcome) (n rounds : Nat) :
    HandsOn {.normal} (Loop.whileDo (fun σ => c.test σ.vars) body n rounds) := by
  induction n generalizing rounds with
  | zero =>
    intro σ flow heq
    cases heq
  | succ n ih =>
    have hbody : HandsOn Set.univ body := fun _ _ _ => trivial
    rw [Loop.whileDo_succ]
    refine handsOn_test c (hbody.andThen fun flow _ => ?_) (handsOn_pass (Set.mem_singleton _) _)
    exact handsOn_behind (ih (rounds + 1)) _ _ flow

/-- Whatever its body does, a loop hands on no jump. -/
theorem handsOn_repeatUntil (body : State → Outcome) (c : Expr) (n rounds : Nat) :
    HandsOn {.normal} (Loop.repeatUntil body (fun σ => c.test σ.vars) n rounds) := by
  induction n generalizing rounds with
  | zero =>
    intro σ flow heq
    cases heq
  | succ n ih =>
    have hbody : HandsOn Set.univ body := fun _ _ _ => trivial
    rw [Loop.repeatUntil_succ]
    refine hbody.andThen fun flow _ => handsOn_behind (handsOn_test c ?_ (ih (rounds + 1))) _ _ flow
    exact handsOn_pass (Set.mem_singleton _) _

end HandsOn

/-! ### Statements -/

namespace Stmt

/-- The ways of handing on control that the jumps outside of all loops allow. -/
def flows (s : Stmt) : Set Flow :=
  {flow | ∀ j, flow = .jump j → s.hasLoose j = true}

theorem jump_mem_flows {s : Stmt} {j : Jump} : .jump j ∈ s.flows ↔ s.hasLoose j = true := by
  simp [flows]

theorem normal_subset_flows (s : Stmt) : {.normal} ⊆ s.flows := by
  simp [flows]

theorem flows_subset {s t : Stmt} (h : ∀ j, s.hasLoose j = true → t.hasLoose j = true) :
    s.flows ⊆ t.flows :=
  fun _ hflow j hj => h j (hflow j hj)

theorem execAll_handsOn {n : Nat} {ss : List Stmt} (hss : ∀ s ∈ ss, HandsOn s.flows (s.exec n)) :
    HandsOn (block ss).flows (execAll n ss) := by
  induction ss with
  | nil =>
    have hnil : execAll n [] = fun σ => (.ok .normal, σ) := funext (execAll_nil n)
    rw [hnil]
    exact handsOn_pass (normal_subset_flows _ rfl) _
  | cons s ss ih =>
    have hfirst : s.flows ⊆ (block (s :: ss)).flows :=
      flows_subset fun j hj => by simp [hasLoose, anyLoose, hj]
    have hrest : (block ss).flows ⊆ (block (s :: ss)).flows := by
      refine flows_subset fun j hj => ?_
      rw [hasLoose] at hj
      simp [hasLoose, anyLoose, hj]
    rw [execAll_cons_eq_andThen]
    refine (hss s (by simp)).andThen fun flow hflow => ?_
    unfold execRest
    split
    · exact (ih fun t ht => hss t (by simp [ht])).mono hrest
    · exact handsOn_pass (hfirst hflow) _

/-- A statement hands on only those jumps that stand in it outside of all its loops. -/
theorem exec_handsOn (n : Nat) (s : Stmt) : HandsOn s.flows (s.exec n) := by
  induction s with
  | assign x e =>
    rw [exec_assign]
    exact handsOn_withValue e fun v => handsOn_pass (normal_subset_flows _ rfl) _
  | write e newline =>
    rw [exec_write]
    refine handsOn_withValue e fun v => (handsOn_emit _).andThen ?_
    rintro _ rfl
    unfold State.endLine
    split
    · exact (handsOn_emit _).mono (normal_subset_flows _)
    · exact handsOn_pass (normal_subset_flows _ rfl) _
  | ifThen c s ih =>
    have hnone : (block []).flows ⊆ (ifThen c s).flows := flows_subset fun j hj => by cases hj
    rw [exec_ifThen, exec_ifElse]
    exact handsOn_test c ih ((execAll_handsOn (by simp)).mono hnone)
  | ifElse c s t ihs iht =>
    have hs : s.flows ⊆ (ifElse c s t).flows := flows_subset fun j hj => by simp [hasLoose, hj]
    have ht : t.flows ⊆ (ifElse c s t).flows := flows_subset fun j hj => by simp [hasLoose, hj]
    rw [exec_ifElse]
    exact handsOn_test c (ihs.mono hs) (iht.mono ht)
  | whileDo c s _ => exact (handsOn_whileDo c _ n 0).mono (normal_subset_flows _)
  | repeatUntil s c _ => exact (handsOn_repeatUntil _ c n 0).mono (normal_subset_flows _)
  | block ss ih => exact execAll_handsOn ih
  | jump j => exact handsOn_pass (jump_mem_flows.2 (by simp [hasLoose])) _

/-- No run of a statement has the fault that is left to whole programs. -/
theorem misplacedJump_stepwise (j : Jump) : StepwiseWithin Set.univ Set.univ fun run =>
    ∀ σ, (run σ).1 ≠ .fault (.misplacedJump j) where
  pass flow σ := by simp
  exhausted σ := by simp
  finished k i σ := by simp
  assign x _ v σ := by simp
  emit t σ := by
    obtain ⟨r, out, hemit, rfl | ⟨e, rfl⟩⟩ := σ.emit_cases t <;> simp [hemit]
  withValue e next _ hnext σ := by
    unfold Expr.withValue
    cases he : e.eval σ.vars with
    | ok v => exact hnext v σ
    | error f =>
      obtain ⟨x, -, rfl, -⟩ | ⟨n, rfl⟩ := Expr.eval_eq_error he <;> simp
  andThen first next hfirst hnext σ := by
    have h := hfirst σ
    dsimp only
    generalize first σ = o at h ⊢
    obtain ⟨flow | f | _, τ⟩ := o
    · exact hnext flow τ
    · exact h
    · exact h

end Stmt

/-- A program is blamed for a jump only if one is handed on by its statements. -/
theorem State.exec_of_interpret {n : Nat} {p : Stmt} {σ τ : State} {j : Jump}
    (h : σ.interpret n p = (.fault (.misplacedJump j), τ)) : p.exec n σ = (.ok (.jump j), τ) := by
  have hfault := (Stmt.misplacedJump_stepwise j).exec n p (by simp) (by simp) σ
  unfold interpret at h
  generalize p.exec n σ = o at h hfault ⊢
  obtain ⟨r, ρ⟩ := o
  rcases r with (_ | k) | f | _ <;> dsimp only at h
  · cases hflush : ρ.out.flush <;> simp [hflush] at h
  · cases hflush : ρ.out.flush with
    | some e => simp [hflush] at h
    | none =>
      simp only [hflush] at h
      cases h
      rfl
  · cases hflush : ρ.out.flush with
    | some e => simp [hflush] at h
    | none =>
      simp only [hflush] at h
      cases h
      exact absurd rfl hfault
  · cases h

/-- **No jump leaves its loop.** A statement that hands on a jump has one outside of all its loops.
So a program is blamed for a jump outside of a loop only if it has one, and a program with all its
jumps inside of loops never is. -/
theorem hasLoose_of_jump (p : Stmt) (σ τ : State) (j : Jump) :
    (p.Ends σ (.ok (.jump j)) τ → p.hasLoose j = true) ∧
      (∀ n, σ.interpret n p = (.fault (.misplacedJump j), τ) → p.hasLoose j = true) ∧
      ((∀ k, p.hasLoose k = false) →
        ∀ n, σ.interpret n p ≠ (.fault (.misplacedJump j), τ)) := by
  have hexec : ∀ n, p.exec n σ = (.ok (.jump j), τ) → p.hasLoose j = true := by
    intro n hn
    exact Stmt.jump_mem_flows.1 (p.exec_handsOn n σ (.jump j) (by rw [hn]))
  refine ⟨?_, fun n hn => hexec n (State.exec_of_interpret hn), fun hloose n hn => ?_⟩
  · rintro ⟨-, n, hn⟩
    exact hexec n hn
  · have hj := hexec n (State.exec_of_interpret hn)
    rw [hloose j] at hj
    cases hj

/-- The first jump stays in its loop and the second one does not, so the second one is blamed, and
without it none is. -/
theorem hasLoose_while_break_continue :
    ∃ loop p : Stmt, loop = .whileDo (.var "PI") (.block [.ifThen (.var "EXP") (.jump .leave)]) ∧
      p = .block [loop, .ifElse (.var "PI") (.jump .next) (.jump .leave)] ∧
      ∃ τ : State, State.interpret 1 p {} = (.fault (.misplacedJump .next), τ) ∧
        p.hasLoose .next = true ∧
        (∀ k, loop.hasLoose k = false) ∧
        ∀ n τ, State.interpret n loop {} ≠ (.fault (.misplacedJump .leave), τ) := by
  let loop : Stmt := .whileDo (.var "PI") (.block [.ifThen (.var "EXP") (.jump .leave)])
  let p : Stmt := .block [loop, .ifElse (.var "PI") (.jump .next) (.jump .leave)]
  have hfault : State.interpret 1 p {} = (.fault (.misplacedJump .next), {}) := by rfl
  have hloose : ∀ k, loop.hasLoose k = false := fun k => rfl
  exact ⟨loop, p, rfl, rfl, {}, hfault, (hasLoose_of_jump p {} {} .next).2.1 1 hfault, hloose,
    fun n τ => (hasLoose_of_jump loop {} τ .leave).2.2 hloose n⟩

end BlockScript
