import BlockScript.Run.Eval
import BlockScript.Run.Trace

/-!
# What a statement does

* `State`: the variables, the output and the trace of a running program.
* `Flow`: how a statement that ends without a fault hands on control.
* `Ending`: a result, a fault, or no end within the allowed rounds.
* `Stmt.exec`: what a statement does to a state, where each loop is allowed a number of rounds.

A program that runs forever ends with `Ending.exhausted` for every allowance. More rounds than a
program needs change nothing.
-/

namespace BlockScript

/-- What a running program changes. -/
structure State where
  vars : Store := Store.initial
  out : Sink := {}
  trace : Trace := {}

namespace State

/-- The state with an event noted. -/
def note (σ : State) (e : Event) : State :=
  { σ with trace := σ.trace.note e }

/-- The state after an assignment. -/
def assign (σ : State) (x : String) (v : Value) : State :=
  { σ.note (.assigned x v) with vars := σ.vars.set x v }

/-- Writes a text. -/
def write (σ : State) (t : String) : Option SinkError × State :=
  let (e, out) := σ.out.write t
  (e, { σ with out := out })

end State

/-- How a statement that ends without a fault hands on control. -/
inductive Flow where
  | normal
  | jump (j : Jump)
  deriving DecidableEq, Repr

/-- How something that was run ends. -/
inductive Ending (ε α : Type) where
  | ok (a : α)
  | fault (e : ε)
  /-- Some loop was allowed too few rounds. -/
  | exhausted
  deriving DecidableEq, Repr

/-- How a statement ends and the state it leaves. -/
abbrev Outcome := Ending Fault Flow × State

namespace Loop

/-- Repeats `body` as long as `test` holds, for fewer than `n` rounds more; `rounds` are over. -/
def whileDo (test : State → Except Fault Bool) (body : State → Outcome) :
    (n rounds : Nat) → State → Outcome
  | 0, _, σ => (.exhausted, σ)
  | n + 1, rounds, σ =>
    match test σ with
    | .error f => (.fault f, σ)
    | .ok false => (.ok .normal, σ.note (.finished .whileLoop rounds))
    | .ok true =>
      match body σ with
      | (.ok (.jump .leave), τ) => (.ok .normal, τ.note (.finished .whileLoop (rounds + 1)))
      | (.ok _, τ) => whileDo test body n (rounds + 1) τ
      | (.fault f, τ) => (.fault f, τ)
      | (.exhausted, τ) => (.exhausted, τ)

/-- Repeats `body` until `test` holds, for at most `n` rounds more; `rounds` are over. -/
def repeatUntil (body : State → Outcome) (test : State → Except Fault Bool) :
    (n rounds : Nat) → State → Outcome
  | 0, _, σ => (.exhausted, σ)
  | n + 1, rounds, σ =>
    match body σ with
    | (.ok (.jump .leave), τ) => (.ok .normal, τ.note (.finished .repeatLoop (rounds + 1)))
    | (.ok _, τ) =>
      match test τ with
      | .error f => (.fault f, τ)
      | .ok true => (.ok .normal, τ.note (.finished .repeatLoop (rounds + 1)))
      | .ok false => repeatUntil body test n (rounds + 1) τ
    | (.fault f, τ) => (.fault f, τ)
    | (.exhausted, τ) => (.exhausted, τ)

end Loop

/-- Writes a text as a statement. -/
def State.emit (σ : State) (t : String) : Outcome :=
  match σ.write t with
  | (none, τ) => (.ok .normal, τ)
  | (some e, τ) => (.fault (.output e), τ)

mutual

/-- What a statement does to a state, where each loop is allowed `n` rounds. -/
def Stmt.exec (n : Nat) : Stmt → State → Outcome
  | .assign x e, σ =>
    match e.eval σ.vars with
    | .error f => (.fault f, σ)
    | .ok v => (.ok .normal, σ.assign x v)
  | .write e newline, σ =>
    match e.eval σ.vars with
    | .error f => (.fault f, σ)
    | .ok v =>
      match σ.emit v.toText, newline with
      | (.ok .normal, τ), true => τ.emit "\n"
      | o, _ => o
  | .ifThen c s, σ =>
    match c.test σ.vars with
    | .error f => (.fault f, σ)
    | .ok true => s.exec n σ
    | .ok false => (.ok .normal, σ)
  | .ifElse c s t, σ =>
    match c.test σ.vars with
    | .error f => (.fault f, σ)
    | .ok true => s.exec n σ
    | .ok false => t.exec n σ
  | .whileDo c s, σ => Loop.whileDo (fun σ => c.test σ.vars) (s.exec n) n 0 σ
  | .repeatUntil s c, σ => Loop.repeatUntil (s.exec n) (fun σ => c.test σ.vars) n 0 σ
  | .block ss, σ => Stmt.execAll n ss σ
  | .jump j, σ => (.ok (.jump j), σ)

/-- What statements do to a state, one after another as long as none of them jumps. -/
def Stmt.execAll (n : Nat) : List Stmt → State → Outcome
  | [], σ => (.ok .normal, σ)
  | s :: ss, σ =>
    match s.exec n σ with
    | (.ok .normal, τ) => Stmt.execAll n ss τ
    | o => o

end

/-! ### One statement after another -/

@[simp] theorem Stmt.exec_block (n : Nat) (ss : List Stmt) (σ : State) :
    (Stmt.block ss).exec n σ = Stmt.execAll n ss σ := by
  rw [Stmt.exec]

@[simp] theorem Stmt.execAll_nil (n : Nat) (σ : State) :
    Stmt.execAll n [] σ = (.ok .normal, σ) := by
  rw [Stmt.execAll]

theorem Stmt.execAll_cons (n : Nat) (s : Stmt) (ss : List Stmt) (σ : State) :
    Stmt.execAll n (s :: ss) σ =
      match s.exec n σ with
      | (.ok .normal, τ) => Stmt.execAll n ss τ
      | o => o := by
  rw [Stmt.execAll]

/-- Statements run in two parts, the second only if the first hands on control normally. -/
theorem Stmt.execAll_append (n : Nat) (ss ts : List Stmt) (σ : State) :
    Stmt.execAll n (ss ++ ts) σ =
      match Stmt.execAll n ss σ with
      | (.ok .normal, τ) => Stmt.execAll n ts τ
      | o => o := by
  induction ss generalizing σ with
  | nil => simp
  | cons s ss ih =>
    rw [List.cons_append, execAll_cons, execAll_cons]
    split
    · exact ih _
    · next h =>
      split
      · next τ hτ => exact absurd hτ (h τ)
      · rfl

end BlockScript
