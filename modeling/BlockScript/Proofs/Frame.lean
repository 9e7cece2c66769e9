import BlockScript.Proofs.LimitedOutput
import BlockScript.Session

/-!
# What a run leaves alone

A run changes the variables that its statement assigns and no others. It takes no value away, so a
name that has a value once has one ever after, and reading it is no fault.

* `State.Keeps`: names that have a value keep having one.
* `Framed`: what an outcome leaves as it was, by the names that are read and assigned;
  `Stmt.exec_framed`: every run does so.
* `Request`, `State.LeadsTo`: what an interpreter is asked to do, one request after another.
* `ends_framed`: what a run leaves alone, and what requests one after another do.
-/

namespace BlockScript

namespace State

/-- A name that has a value in `σ` has one in `τ`, and so has a name whose assignment was noted in
between. -/
structure Keeps (σ τ : State) : Prop where
  defined : ∀ x, σ.vars.isDefined x = true → τ.vars.isDefined x = true
  noted : ∀ x v, .assigned x v ∈ τ.trace.events →
    .assigned x v ∈ σ.trace.events ∨ τ.vars.isDefined x = true

variable {ρ σ τ : State}

theorem Keeps.of_eq (hvars : τ.vars = σ.vars)
    (htrace : ∀ x v, .assigned x v ∈ τ.trace.events → .assigned x v ∈ σ.trace.events) :
    σ.Keeps τ where
  defined x hx := by rwa [hvars]
  noted x v h := .inl (htrace x v h)

theorem Keeps.trans (h : ρ.Keeps σ) (h' : σ.Keeps τ) : ρ.Keeps τ where
  defined x hx := h'.defined x (h.defined x hx)
  noted x v hx := by
    obtain hx | hx := h'.noted x v hx
    · exact (h.noted x v hx).imp id (h'.defined x)
    · exact .inr hx

/-- A name without a value had none before. -/
theorem Keeps.undefined (h : σ.Keeps τ) {x : String} (hx : τ.vars.isDefined x = false) :
    σ.vars.isDefined x = false := by
  by_contra hσ
  rw [h.defined x (by simpa using hσ)] at hx
  cases hx

theorem keeps_note {e : Event} (he : ∀ x v, e ≠ .assigned x v) (σ : State) : σ.Keeps (σ.note e) :=
  .of_eq rfl fun x v h => (Trace.mem_events_note h).resolve_left fun heq => he x v heq.symm

theorem keeps_assign (σ : State) (x : String) (v : Value) : σ.Keeps (σ.assign x v) where
  defined y hy := by simp [assign, Store.isDefined_set, note, hy]
  noted y w h := by
    obtain h | h := Trace.mem_events_note h
    · cases h
      exact .inr (by simp [assign, Store.isDefined_set])
    · exact .inl h

/-- The number of names in `A` that have no value. -/
def missing (A : Finset String) (σ : State) : Nat :=
  (A.filter fun x => σ.vars.isDefined x = false).card

theorem Keeps.missing_le (h : σ.Keeps τ) (A : Finset String) : τ.missing A ≤ σ.missing A := by
  refine Finset.card_le_card fun x hx => ?_
  rw [Finset.mem_filter] at hx ⊢
  exact ⟨hx.1, h.undefined hx.2⟩

/-- An assignment gives one of the names that have no value a value, or it adds no variable. -/
theorem size_assign {A : Finset String} {x : String} (hx : x ∈ A) (σ : State) (v : Value) :
    (σ.assign x v).vars.size + (σ.assign x v).missing A = σ.vars.size + σ.missing A := by
  have hsize : (σ.assign x v).vars.size =
      if σ.vars.isDefined x then σ.vars.size else σ.vars.size + 1 := σ.vars.size_set x v
  have hdefined (y : String) : (σ.assign x v).vars.isDefined y = (y = x || σ.vars.isDefined y) :=
    σ.vars.isDefined_set x y v
  have hmissing : (σ.assign x v).missing A =
      ((A.filter fun y => σ.vars.isDefined y = false).erase x).card := by
    refine congrArg Finset.card (Finset.ext fun y => ?_)
    simp [hdefined, and_left_comm]
  rw [hsize, hmissing]
  cases hσ : σ.vars.isDefined x with
  | true =>
    rw [Finset.erase_eq_of_notMem (by simp [hσ])]
    rfl
  | false =>
    have hmem : x ∈ A.filter fun y => σ.vars.isDefined y = false := by simp [hx, hσ]
    have hcard : _ + 1 = σ.missing A := Finset.card_erase_add_one hmem
    rw [if_neg (by simp), ← hcard]
    omega

end State

open State

/-! ### Runs -/

/-- What an outcome leaves as it was in the state `σ`, where names in `R` are read and names in `A`
are assigned. Variables are added for names in `A` that had no value. -/
structure Framed (R : Set String) (A : Finset String) (σ : State) (o : Outcome) : Prop where
  extend : σ.Extends o.2
  keep : σ.Keeps o.2
  unassigned : ∀ x ∉ A, o.2.vars.get? x = σ.vars.get? x
  size : o.2.vars.size + o.2.missing A = σ.vars.size + σ.missing A
  undefined : ∀ x, o.1 = .fault (.undefined x) → x ∈ R ∧ o.2.vars.isDefined x = false

variable {R : Set String} {A : Finset String} {σ τ : State}

/-- An outcome with the same variables and no fault for want of a value leaves everything alone. -/
theorem Framed.of_vars_eq {r : Ending Fault Flow} (hvars : τ.vars = σ.vars) (hout : σ.Extends τ)
    (hkeep : σ.Keeps τ) (hr : ∀ x, r ≠ .fault (.undefined x)) : Framed R A σ (r, τ) where
  extend := hout
  keep := hkeep
  unassigned x _ := by rw [hvars]
  size := by simp only [missing, hvars]
  undefined x h := absurd h (hr x)

theorem framed_withValue {e : Expr} (he : ∀ x ∈ e.names, x ∈ R)
    {next : Value → State → Outcome} (hnext : ∀ v, Framed R A σ (next v σ)) :
    Framed R A σ (e.withValue next σ) := by
  unfold Expr.withValue
  cases h : e.eval σ.vars with
  | ok v => exact hnext v
  | error f =>
    refine ⟨.of_out_eq rfl, .of_eq rfl fun _ _ => id, fun _ _ => rfl, rfl, fun x hx => ?_⟩
    cases hx
    obtain ⟨y, hy, heq, hσ⟩ | ⟨n, heq⟩ := Expr.eval_eq_error h
    · cases heq
      exact ⟨he _ hy, hσ⟩
    · cases heq

theorem Framed.andThen {o : Outcome} {next : Flow → State → Outcome} (ho : Framed R A σ o)
    (hnext : ∀ flow τ, Framed R A τ (next flow τ)) : Framed R A σ (o.andThen next) := by
  obtain ⟨flow | f | _, τ⟩ := o
  · have hτ := hnext flow τ
    refine ⟨ho.extend.trans hτ.extend, ho.keep.trans hτ.keep, fun x hx => ?_, ?_, hτ.undefined⟩
    · exact (hτ.unassigned x hx).trans (ho.unassigned x hx)
    · exact hτ.size.trans ho.size
  · exact ho
  · exact ho

/-- Every run that reads and assigns such names leaves the rest alone. -/
theorem framed_stepwise : StepwiseWithin R A fun run => ∀ σ, Framed R A σ (run σ) where
  pass flow σ := .of_vars_eq rfl (.of_out_eq rfl) (.of_eq rfl fun _ _ => id) (by simp)
  exhausted σ := .of_vars_eq rfl (.of_out_eq rfl) (.of_eq rfl fun _ _ => id) (by simp)
  finished k i σ := .of_vars_eq rfl (.of_out_eq rfl) (keeps_note (by simp) σ) (by simp)
  assign x hx v σ :=
    { extend := .of_out_eq rfl
      keep := keeps_assign σ x v
      unassigned := fun y hy => by
        have hne : y ≠ x := by
          rintro rfl
          exact hy hx
        exact (σ.vars.get?_set x y v).trans (if_neg hne)
      size := size_assign hx σ v
      undefined := by simp }
  emit t σ := by
    have hextend := extends_emit σ t
    obtain ⟨r, out, heq, hr⟩ := σ.emit_cases t
    dsimp only
    rw [heq] at hextend ⊢
    refine .of_vars_eq rfl hextend (.of_eq rfl fun _ _ => id) fun x => ?_
    rcases hr with rfl | ⟨e, rfl⟩ <;> simp
  withValue e next he hnext σ := framed_withValue he fun v => hnext v σ
  andThen first next hfirst hnext σ := (hfirst σ).andThen hnext

theorem Stmt.exec_framed (n : Nat) (s : Stmt) (σ : State) :
    Framed {x | x ∈ s.readNames} s.assignedNames.toFinset σ (s.exec n σ) :=
  framed_stepwise.exec n s (fun x hx => hx) (fun x hx => by simpa using hx) σ

/-! ### Requests -/

/-- What an interpreter can be asked to do. -/
inductive Request where
  /-- To run source text. -/
  | source (code : String)
  /-- To run a tree. -/
  | tree (p : Stmt)

namespace State

/-- Does what is asked, where each loop is allowed `n` rounds. -/
def serve (n : Nat) : Request → State → Ending Failure Unit × State
  | .source code, σ => σ.run n code
  | .tree p, σ => failing (σ.interpret n p)

/-- What is asked comes to an end, for some number of rounds. -/
def Serves (σ : State) (q : Request) (r : Ending Failure Unit) (τ : State) : Prop :=
  r ≠ .exhausted ∧ ∃ n, σ.serve n q = (r, τ)

/-- Requests one after another, whatever comes of them, lead from `σ` to `τ`. -/
def LeadsTo : State → State → Prop :=
  Relation.ReflTransGen fun σ τ => ∃ q r, σ.Serves q r τ

/-- What comes of a request takes no value away, and a name that it blames has none. -/
structure Answered (σ : State) (o : Ending Failure Unit × State) : Prop where
  keep : σ.Keeps o.2
  undefined : ∀ x, o.1 = .fault (.run (.undefined x)) → o.2.vars.isDefined x = false

theorem answered_interpret (n : Nat) (p : Stmt) (σ : State) :
    Answered σ (failing (σ.interpret n p)) := by
  obtain ⟨-, hkeep, -, -, hundefined⟩ := p.exec_framed n σ
  unfold interpret
  generalize p.exec n σ = o at hkeep hundefined
  obtain ⟨r, τ⟩ := o
  rcases r with (_ | j) | f | _ <;> dsimp only
  · cases τ.out.flush <;> exact ⟨hkeep, by simp [failing]⟩
  · cases τ.out.flush <;> exact ⟨hkeep, by simp [failing]⟩
  · cases τ.out.flush with
    | some e => exact ⟨hkeep, by simp [failing]⟩
    | none =>
      refine ⟨hkeep, fun x hx => ?_⟩
      cases hx
      exact (hundefined x rfl).2
  · exact ⟨hkeep, by simp [failing]⟩

theorem Answered.behind {o : Ending Failure Unit × State} (h : ρ.Keeps σ) (ho : Answered σ o) :
    Answered ρ o where
  keep := h.trans ho.keep
  undefined := ho.undefined

theorem keeps_noteScan (σ : State) (r : Except ScanError Scanned) : σ.Keeps (σ.noteScan r) := by
  cases r with
  | error e => exact .of_eq rfl fun _ _ => id
  | ok s => exact keeps_note (by simp) σ

theorem keeps_noteParse (σ : State) (r : Except ParseError Stmt) : σ.Keeps (σ.noteParse r) := by
  cases r with
  | error e => exact .of_eq rfl fun _ _ => id
  | ok p => exact keeps_note (by simp) σ

theorem keeps_noteCompile (σ : State) (code : String) : σ.Keeps (σ.noteCompile code) := by
  simp only [noteCompile]
  cases scan code with
  | error e => exact .of_eq rfl fun _ _ => id
  | ok s => exact (keeps_noteScan _ _).trans (keeps_noteParse _ _)

theorem compile_ne_run (code : String) (f : Fault) : compile code ≠ .error (.run f) := by
  unfold compile
  cases scan code with
  | error e => simp
  | ok s => cases h : parse s.tokens <;> simp [h]

theorem answered_serve (n : Nat) (q : Request) (σ : State) : Answered σ (σ.serve n q) := by
  cases q with
  | tree p => exact answered_interpret n p σ
  | source code =>
    refine Answered.behind (keeps_noteCompile σ code) ?_
    simp only [serve, run]
    cases h : compile code with
    | ok p => exact answered_interpret n p _
    | error f =>
      refine ⟨.of_eq rfl fun _ _ => id, fun x hx => ?_⟩
      cases hx
      exact absurd h (compile_ne_run code _)

theorem LeadsTo.keeps (h : σ.LeadsTo τ) : σ.Keeps τ := by
  induction h with
  | refl => exact .of_eq rfl fun _ _ => id
  | @tail τ ρ _ hstep ih =>
    obtain ⟨q, r, -, n, hn⟩ := hstep
    have hkeep := (answered_serve n q τ).keep
    rw [hn] at hkeep
    exact ih.trans hkeep

end State

/-- **A run changes what its statement assigns and nothing else.** However a statement ends, output
is only added, a variable that it does not assign is as it was, and a variable that has a value
keeps one. It blames a name only if it reads it and the name had no value before, nor has one at the
end. So in requests one after another, no name is ever blamed that every program starts with, or
that had a value or was assigned before. -/
theorem ends_framed :
    (∀ (s : Stmt) (σ τ : State) (r : Ending Fault Flow), s.Ends σ r τ →
      (∃ output, τ.out.written = σ.out.written ++ output) ∧
      (∀ x ∉ s.assignedNames, τ.vars.get? x = σ.vars.get? x) ∧
      (∀ x, σ.vars.isDefined x = true → τ.vars.isDefined x = true) ∧
      σ.vars.size ≤ τ.vars.size ∧
      τ.vars.size ≤ σ.vars.size + s.assignedNames.toFinset.card ∧
      ∀ x, r = .fault (.undefined x) →
        x ∈ s.readNames ∧ σ.vars.isDefined x = false ∧ τ.vars.isDefined x = false) ∧
    ∀ (σ τ ρ υ : State) (q : Request) (x : String), σ.vars = Store.initial →
      σ.trace.events = [] → σ.LeadsTo τ → τ.LeadsTo ρ →
        ρ.Serves q (.fault (.run (.undefined x))) υ →
          x ≠ "PI" ∧ x ≠ "EXP" ∧ τ.vars.isDefined x = false ∧ υ.vars.isDefined x = false ∧
            ∀ v, .assigned x v ∉ υ.trace.events := by
  constructor
  · rintro s σ τ r ⟨-, n, hn⟩
    obtain ⟨⟨-, hout⟩, hkeep, hunassigned, hsize, hundefined⟩ := s.exec_framed n σ
    simp only [hn] at hout hkeep hunassigned hsize hundefined
    have hmissing := hkeep.missing_le s.assignedNames.toFinset
    have hcard : σ.missing s.assignedNames.toFinset ≤ s.assignedNames.toFinset.card :=
      Finset.card_filter_le _ _
    refine ⟨hout, fun x hx => hunassigned x (by simpa using hx), hkeep.defined, by omega, by omega,
      fun x hx => ?_⟩
    obtain ⟨hread, hx⟩ := hundefined x hx
    exact ⟨hread, hkeep.undefined hx, hx⟩
  · rintro σ τ ρ υ q x hσ hevents hτ hρ ⟨-, n, hn⟩
    obtain ⟨hkeep, hblamed⟩ := answered_serve n q ρ
    rw [hn] at hkeep hblamed
    have hυ : υ.vars.isDefined x = false := hblamed x rfl
    have hmiddle : τ.vars.isDefined x = false := hρ.keeps.undefined (hkeep.undefined hυ)
    have hstart : σ.vars.isDefined x = false := hτ.keeps.undefined hmiddle
    rw [hσ] at hstart
    refine ⟨?_, ?_, hmiddle, hυ, fun v hv => ?_⟩
    · rintro rfl
      exact absurd hstart (by decide)
    · rintro rfl
      exact absurd hstart (by decide)
    · have hall : σ.Keeps υ := hτ.keeps.trans (hρ.keeps.trans hkeep)
      obtain hv | hv := hall.noted x v hv
      · simp [hevents] at hv
      · rw [hυ] at hv
        cases hv

/-- The first fault leaves the assignment in front of it, and the second one, of a later request, is
of a name that was never assigned. -/
theorem framed_assign_write_write :
    ∃ s p : Stmt, s = .block [.assign "x" (.literal (.text "a")), .write (.var "y") false] ∧
      p = .block [.write (.var "x") false, .write (.var "z") true] ∧
      ∃ τ υ : State, s.Ends {} (.fault (.undefined "y")) τ ∧
        τ.Serves (.tree p) (.fault (.run (.undefined "z"))) υ ∧
        τ.vars.get? "PI" = Store.initial.get? "PI" ∧ τ.vars.size ≤ 3 ∧ "y" ∈ s.readNames ∧
        "z" ≠ "PI" ∧ τ.vars.isDefined "z" = false := by
  let s : Stmt := .block [.assign "x" (.literal (.text "a")), .write (.var "y") false]
  let p : Stmt := .block [.write (.var "x") false, .write (.var "z") true]
  let τ : State := { vars := Store.initial.set "x" (.text "a") }
  let υ : State := { τ with out := { written := "a".toUTF8 } }
  have hends : s.Ends {} (.fault (.undefined "y")) τ := ⟨by simp, 1, rfl⟩
  have hserves : State.Serves {} (.tree s) (.fault (.run (.undefined "y"))) τ := ⟨by simp, 1, rfl⟩
  have hserves' : τ.Serves (.tree p) (.fault (.run (.undefined "z"))) υ := ⟨by simp, 1, rfl⟩
  obtain ⟨-, hPI, -, -, hsize, hy⟩ := ends_framed.1 s {} τ _ hends
  obtain ⟨hz, -, hz', -, -⟩ := ends_framed.2 {} τ τ υ (.tree p) "z" rfl rfl
    (.single ⟨_, _, hserves⟩) .refl hserves'
  exact ⟨s, p, rfl, rfl, τ, υ, hends, hserves', hPI "PI" (by decide), hsize, (hy "y" rfl).1, hz,
    hz'⟩

end BlockScript
