import BlockScript.Proofs.Names
import BlockScript.Run.Exec

/-!
# Runs step by step

Whatever a program does is made up of a few actions: it changes a variable, writes a text, ends a
loop, goes on with the value of an expression, or goes on from an outcome. What holds of each of
these holds of whole runs.

* `Expr.withValue`, `Outcome.andThen`: what is run in turn.
* `Stmt.exec_assign`, `Stmt.exec_write`, `Loop.whileDo_succ`, …: statements as they are made up.
* `StepwiseWithin`: a property that is kept when runs are made up of others, by the names they read
  and assign; `StepwiseWithin.exec`: the run of every statement with such names has it.
* `Stepwise`: such a property whatever the names are; `Stepwise.exec`: every run has it.
* `Stmt.Ends`: a statement comes to an end, for some number of rounds.
-/

namespace BlockScript

/-- Goes on with the value of an expression. -/
def Expr.withValue (e : Expr) (next : Value → State → Outcome) (σ : State) : Outcome :=
  match e.eval σ.vars with
  | .error f => (.fault f, σ)
  | .ok v => next v σ

/-- Goes on from an outcome by how it handed on control. A fault stops everything. -/
def Outcome.andThen (o : Outcome) (next : Flow → State → Outcome) : Outcome :=
  match o with
  | (.ok flow, τ) => next flow τ
  | (.fault f, τ) => (.fault f, τ)
  | (.exhausted, τ) => (.exhausted, τ)

/-! ### Statements as they are made up -/

/-- Ends a line behind a value, if it is to be ended. -/
def State.endLine (newline : Bool) (flow : Flow) : State → Outcome :=
  if flow = .normal ∧ newline then fun σ => σ.emit "\n" else fun σ => (.ok flow, σ)

/-- Writing changes the output only, and has no other fault than one of the sink. -/
theorem State.emit_cases (σ : State) (t : String) :
    ∃ r out, σ.emit t = (r, { σ with out := out }) ∧
      (r = .ok .normal ∨ ∃ e, r = .fault (.output e)) := by
  unfold emit write
  rcases σ.out.write t with ⟨_ | e, out⟩
  · exact ⟨_, out, rfl, .inl rfl⟩
  · exact ⟨_, out, rfl, .inr ⟨e, rfl⟩⟩

/-- What becomes of a text that is written depends on the sink only. -/
theorem State.emit_congr {σ τ : State} (h : σ.out = τ.out) (t : String) :
    ∃ r out, σ.emit t = (r, { σ with out := out }) ∧ τ.emit t = (r, { τ with out := out }) := by
  simp only [emit, write, ← h]
  rcases σ.out.write t with ⟨_ | e, out⟩
  · exact ⟨_, out, rfl, rfl⟩
  · exact ⟨_, out, rfl, rfl⟩

namespace Loop

/-- What a loop does behind a round: it ends there, with `rounds` over, or goes on. -/
def behind (kind : LoopKind) (rounds : Nat) (next : State → Outcome) (flow : Flow) :
    State → Outcome :=
  if flow = .jump .leave then fun σ => (.ok .normal, σ.note (.finished kind rounds)) else next

theorem whileDo_succ (c : Expr) (body : State → Outcome) (n rounds : Nat) :
    whileDo (fun σ => c.test σ.vars) body (n + 1) rounds =
      c.withValue fun v =>
        if v.isTruthy then fun σ => (body σ).andThen <| behind .whileLoop (rounds + 1) <|
          whileDo (fun σ => c.test σ.vars) body n (rounds + 1)
        else fun σ => (.ok .normal, σ.note (.finished .whileLoop rounds)) := by
  funext σ
  rw [whileDo, Expr.test, Expr.withValue]
  cases c.eval σ.vars with
  | error f => rfl
  | ok v =>
    simp only [Except.map]
    cases v.isTruthy with
    | false => rfl
    | true =>
      rw [if_pos rfl]
      obtain ⟨r, τ⟩ := body σ
      rcases r with (_ | _ | _) | f | _ <;> rfl

theorem repeatUntil_succ (body : State → Outcome) (c : Expr) (n rounds : Nat) :
    repeatUntil body (fun σ => c.test σ.vars) (n + 1) rounds =
      fun σ => (body σ).andThen <| behind .repeatLoop (rounds + 1) <| c.withValue fun v =>
        if v.isTruthy then fun σ => (.ok .normal, σ.note (.finished .repeatLoop (rounds + 1)))
        else repeatUntil body (fun σ => c.test σ.vars) n (rounds + 1) := by
  funext σ
  rw [repeatUntil]
  obtain ⟨r, τ⟩ := body σ
  rcases r with (_ | _ | _) | f | _
  case ok.normal | ok.jump.next =>
    change _ = c.withValue _ τ
    dsimp only
    rw [Expr.test, Expr.withValue]
    cases c.eval τ.vars with
    | error f => rfl
    | ok v =>
      simp only [Except.map]
      cases v.isTruthy <;> rfl
  all_goals rfl

end Loop

namespace Stmt

variable (n : Nat)

theorem exec_assign (x : String) (e : Expr) :
    (Stmt.assign x e).exec n = e.withValue fun v σ => (.ok .normal, σ.assign x v) := by
  funext σ
  rw [exec]
  rfl

theorem exec_write (e : Expr) (newline : Bool) :
    (Stmt.write e newline).exec n =
      e.withValue fun v σ => (σ.emit v.toText).andThen (State.endLine newline) := by
  funext σ
  rw [exec, Expr.withValue]
  cases e.eval σ.vars with
  | error f => rfl
  | ok v =>
    dsimp only
    obtain ⟨r, τ⟩ := σ.emit v.toText
    rcases r with (_ | j) | f | _ <;> cases newline <;> rfl

theorem exec_ifElse (c : Expr) (s t : Stmt) :
    (Stmt.ifElse c s t).exec n =
      c.withValue fun v => if v.isTruthy then s.exec n else t.exec n := by
  funext σ
  rw [exec, Expr.test, Expr.withValue]
  cases c.eval σ.vars with
  | error f => rfl
  | ok v =>
    simp only [Except.map]
    cases v.isTruthy <;> rfl

/-- Without an `else`, an empty block takes its place. -/
theorem exec_ifThen (c : Expr) (s : Stmt) :
    (Stmt.ifThen c s).exec n = (Stmt.ifElse c s (.block [])).exec n := by
  funext σ
  rw [exec, exec, exec_block, execAll_nil]

/-- Runs the rest of a list of statements. -/
def execRest (ss : List Stmt) (flow : Flow) : State → Outcome :=
  if flow = .normal then Stmt.execAll n ss else fun σ => (.ok flow, σ)

theorem execAll_cons_eq_andThen (s : Stmt) (ss : List Stmt) :
    Stmt.execAll n (s :: ss) = fun σ => (s.exec n σ).andThen (Stmt.execRest n ss) := by
  funext σ
  rw [execAll_cons]
  obtain ⟨r, τ⟩ := s.exec n σ
  rcases r with (_ | j) | f | _ <;> rfl

end Stmt

/-! ### What holds of every run -/

/-- A property of runs that is kept when they are made up of others, as long as they read names in
`R` only and assign names in `A` only. -/
structure StepwiseWithin (R A : Set String) (P : (State → Outcome) → Prop) : Prop where
  pass : ∀ flow : Flow, P fun σ => (.ok flow, σ)
  exhausted : P fun σ => (.exhausted, σ)
  finished : ∀ (k : LoopKind) (i : Nat), P fun σ => (.ok .normal, σ.note (.finished k i))
  assign : ∀ x ∈ A, ∀ v : Value, P fun σ => (.ok .normal, σ.assign x v)
  emit : ∀ t : String, P fun σ => σ.emit t
  withValue : ∀ (e : Expr) (next : Value → State → Outcome), (∀ x ∈ e.names, x ∈ R) →
    (∀ v, P (next v)) → P (e.withValue next)
  andThen : ∀ (first : State → Outcome) (next : Flow → State → Outcome), P first →
    (∀ flow, P (next flow)) → P fun σ => (first σ).andThen next

namespace StepwiseWithin

variable {R A : Set String} {P : (State → Outcome) → Prop} {body : State → Outcome} {c : Expr}

theorem test (hP : StepwiseWithin R A P) (hc : ∀ x ∈ c.names, x ∈ R) {f g : State → Outcome}
    (hf : P f) (hg : P g) : P (c.withValue fun v => if v.isTruthy then f else g) := by
  refine hP.withValue c _ hc fun v => ?_
  split
  · exact hf
  · exact hg

theorem behind (hP : StepwiseWithin R A P) {next : State → Outcome} (hnext : P next)
    (k : LoopKind) (rounds : Nat) (flow : Flow) : P (Loop.behind k rounds next flow) := by
  unfold Loop.behind
  split
  · exact hP.finished k rounds
  · exact hnext

theorem endLine (hP : StepwiseWithin R A P) (newline : Bool) (flow : Flow) :
    P (State.endLine newline flow) := by
  unfold State.endLine
  split
  · exact hP.emit "\n"
  · exact hP.pass flow

theorem whileDo (hP : StepwiseWithin R A P) (hc : ∀ x ∈ c.names, x ∈ R) (hbody : P body)
    (n rounds : Nat) : P (Loop.whileDo (fun σ => c.test σ.vars) body n rounds) := by
  induction n generalizing rounds with
  | zero => exact hP.exhausted
  | succ n ih =>
    rw [Loop.whileDo_succ]
    exact hP.test hc (hP.andThen _ _ hbody (hP.behind (ih _) _ _)) (hP.finished _ _)

theorem repeatUntil (hP : StepwiseWithin R A P) (hc : ∀ x ∈ c.names, x ∈ R) (hbody : P body)
    (n rounds : Nat) : P (Loop.repeatUntil body (fun σ => c.test σ.vars) n rounds) := by
  induction n generalizing rounds with
  | zero => exact hP.exhausted
  | succ n ih =>
    rw [Loop.repeatUntil_succ]
    have hnext := hP.test hc (hP.finished .repeatLoop (rounds + 1)) (ih (rounds + 1))
    exact hP.andThen _ _ hbody (hP.behind hnext _ _)

theorem execAll (hP : StepwiseWithin R A P) {n : Nat} {ss : List Stmt}
    (hss : ∀ s ∈ ss, P (s.exec n)) : P (Stmt.execAll n ss) := by
  induction ss with
  | nil =>
    have hnil : Stmt.execAll n [] = fun σ => (.ok .normal, σ) := funext (Stmt.execAll_nil n)
    rw [hnil]
    exact hP.pass _
  | cons s ss ih =>
    rw [Stmt.execAll_cons_eq_andThen]
    refine hP.andThen _ _ (hss s (by simp)) fun flow => ?_
    unfold Stmt.execRest
    split
    · exact ih fun s hs => hss s (by simp [hs])
    · exact hP.pass flow

/-- What is kept when runs are made up of others holds of the run of every statement with the right
names. -/
theorem exec (hP : StepwiseWithin R A P) (n : Nat) (s : Stmt) (hR : ∀ x ∈ s.readNames, x ∈ R)
    (hA : ∀ x ∈ s.assignedNames, x ∈ A) : P (s.exec n) := by
  induction s with
  | assign x e =>
    rw [Stmt.exec_assign]
    exact hP.withValue e _ hR (hP.assign x (hA x (by simp [Stmt.assignedNames])))
  | write e newline =>
    rw [Stmt.exec_write]
    exact hP.withValue e _ hR fun v => hP.andThen _ _ (hP.emit _) (hP.endLine newline)
  | ifThen c s ih =>
    simp only [Stmt.readNames, List.forall_mem_append] at hR
    rw [Stmt.exec_ifThen, Stmt.exec_ifElse]
    exact hP.test hR.1 (ih hR.2 hA) (hP.execAll (by simp))
  | ifElse c s t ihs iht =>
    simp only [Stmt.readNames, Stmt.assignedNames, List.forall_mem_append] at hR hA
    rw [Stmt.exec_ifElse]
    exact hP.test hR.1.1 (ihs hR.1.2 hA.1) (iht hR.2 hA.2)
  | whileDo c s ih =>
    simp only [Stmt.readNames, List.forall_mem_append] at hR
    exact hP.whileDo hR.1 (ih hR.2 hA) n 0
  | repeatUntil s c ih =>
    simp only [Stmt.readNames, List.forall_mem_append] at hR
    exact hP.repeatUntil hR.2 (ih hR.1 hA) n 0
  | block ss ih =>
    refine hP.execAll fun s hs => ih s hs (fun x hx => hR x ?_) fun x hx => hA x ?_
    · exact Stmt.mem_allReadNames.2 ⟨s, hs, hx⟩
    · exact Stmt.mem_allAssignedNames.2 ⟨s, hs, hx⟩
  | jump j => exact hP.pass (.jump j)

end StepwiseWithin

/-- A property of runs that is kept when they are made up of others. -/
structure Stepwise (P : (State → Outcome) → Prop) : Prop where
  stay : ∀ r : Ending Fault Flow, P fun σ => (r, σ)
  finished : ∀ (k : LoopKind) (i : Nat), P fun σ => (.ok .normal, σ.note (.finished k i))
  assign : ∀ (x : String) (v : Value), P fun σ => (.ok .normal, σ.assign x v)
  emit : ∀ t : String, P fun σ => σ.emit t
  withValue : ∀ (e : Expr) (next : Value → State → Outcome), (∀ v, P (next v)) →
    P (e.withValue next)
  andThen : ∀ (first : State → Outcome) (next : Flow → State → Outcome), P first →
    (∀ flow, P (next flow)) → P fun σ => (first σ).andThen next

/-- Such a property is kept whatever names are read and assigned. -/
theorem Stepwise.within {P : (State → Outcome) → Prop} (hP : Stepwise P) (R A : Set String) :
    StepwiseWithin R A P :=
  { hP with
    pass := fun flow => hP.stay (.ok flow)
    exhausted := hP.stay .exhausted
    assign := fun x _ => hP.assign x
    withValue := fun e next _ => hP.withValue e next }

/-- What is kept when runs are made up of others holds of the run of every statement. -/
theorem Stepwise.exec {P : (State → Outcome) → Prop} (hP : Stepwise P) (n : Nat) (s : Stmt) :
    P (s.exec n) :=
  (hP.within Set.univ Set.univ).exec n s (by simp) (by simp)

/-! ### Ends of a run -/

/-- The statement comes to an end, for some number of rounds. -/
def Stmt.Ends (s : Stmt) (σ : State) (r : Ending Fault Flow) (τ : State) : Prop :=
  r ≠ .exhausted ∧ ∃ n, s.exec n σ = (r, τ)

end BlockScript
