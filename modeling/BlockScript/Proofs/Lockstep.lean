import BlockScript.Proofs.Steps

/-!
# Runs side by side

What two runs have in common that start alike, or are allowed different numbers of rounds.

* `LockstepOn`: a relation between states that every single action of a program keeps, by the names
  that it reads; `LockstepOn.exec`: a whole run keeps it, and the two runs end alike.
* `Lockstep`: such a relation whatever names are read.
* `Follows`: a run comes to an end wherever another one does, in related states;
  `Stmt.exec_follows`: a statement that is allowed more rounds follows itself.
* `Outlasts`: a run with rounds to spare; `Stmt.exec_outlasts`: more rounds than a statement needs
  change nothing.
* `Stmt.Ends.unique`: a statement comes to one end only.
-/

namespace BlockScript

/-- Two runs ended alike, in states that `R` relates. -/
def EndAlike {α : Type} (R : State → State → Prop) (o p : α × State) : Prop :=
  o.1 = p.1 ∧ R o.2 p.2

theorem EndAlike.exists_eq {α : Type} {R : State → State → Prop} {o p : α × State}
    (h : EndAlike R o p) : ∃ r σ τ, o = (r, σ) ∧ p = (r, τ) ∧ R σ τ := by
  obtain ⟨r, σ⟩ := o
  obtain ⟨r', τ⟩ := p
  obtain ⟨rfl, hr⟩ := h
  exact ⟨r, σ, τ, rfl, rfl, hr⟩

/-- A relation between states that every action of a program keeps, where expressions have the same
values in the two states as long as they read names in `V` only. -/
structure LockstepOn (V : Set String) (R : State → State → Prop) : Prop where
  eval : ∀ {σ τ : State}, R σ τ → ∀ e : Expr, (∀ x ∈ e.names, x ∈ V) →
    e.eval σ.vars = e.eval τ.vars
  finished : ∀ {σ τ : State}, R σ τ → ∀ (k : LoopKind) (i : Nat),
    R (σ.note (.finished k i)) (τ.note (.finished k i))
  assign : ∀ {σ τ : State}, R σ τ → ∀ (x : String) (v : Value), R (σ.assign x v) (τ.assign x v)
  emit : ∀ {σ τ : State}, R σ τ → ∀ t : String, EndAlike R (σ.emit t) (τ.emit t)

/-- A relation between states that every action of a program keeps, where expressions have the same
values in the two states. -/
structure Lockstep (R : State → State → Prop) : Prop where
  eval : ∀ {σ τ : State}, R σ τ → ∀ e : Expr, e.eval σ.vars = e.eval τ.vars
  finished : ∀ {σ τ : State}, R σ τ → ∀ (k : LoopKind) (i : Nat),
    R (σ.note (.finished k i)) (τ.note (.finished k i))
  assign : ∀ {σ τ : State}, R σ τ → ∀ (x : String) (v : Value), R (σ.assign x v) (τ.assign x v)
  emit : ∀ {σ τ : State}, R σ τ → ∀ t : String, EndAlike R (σ.emit t) (τ.emit t)

section Related

variable {V : Set String} {R : State → State → Prop} {σ τ : State}

/-- Ending alike is kept when runs are made up of others. -/
theorem LockstepOn.stepwise (hR : LockstepOn V R) :
    StepwiseWithin V Set.univ fun run => ∀ σ τ, R σ τ → EndAlike R (run σ) (run τ) where
  pass _ _ _ h := ⟨rfl, h⟩
  exhausted _ _ h := ⟨rfl, h⟩
  finished k i _ _ h := ⟨rfl, hR.finished h k i⟩
  assign x _ v _ _ h := ⟨rfl, hR.assign h x v⟩
  emit t _ _ h := hR.emit h t
  withValue e next he hnext σ τ h := by
    unfold Expr.withValue
    rw [← hR.eval h e he]
    cases e.eval σ.vars with
    | error f => exact ⟨rfl, h⟩
    | ok v => exact hnext v σ τ h
  andThen first next hfirst hnext σ τ h := by
    obtain ⟨r, σ', τ', ho, hp, hr⟩ := (hfirst σ τ h).exists_eq
    simp only [ho, hp]
    cases r with
    | ok flow => exact hnext flow σ' τ' hr
    | fault f => exact ⟨rfl, hr⟩
    | exhausted => exact ⟨rfl, hr⟩

/-- Runs of one statement from related states end alike, in related states. -/
theorem LockstepOn.exec (hR : LockstepOn V R) (n : Nat) {s : Stmt} (hs : ∀ x ∈ s.readNames, x ∈ V)
    (h : R σ τ) : EndAlike R (s.exec n σ) (s.exec n τ) :=
  hR.stepwise.exec n s hs (by simp) σ τ h

theorem Lockstep.on (hR : Lockstep R) (V : Set String) : LockstepOn V R :=
  { hR with eval := fun h e _ => hR.eval h e }

theorem Lockstep.exec (hR : Lockstep R) (n : Nat) (s : Stmt) (h : R σ τ) :
    EndAlike R (s.exec n σ) (s.exec n τ) :=
  (hR.on Set.univ).exec n (by simp) h

end Related

/-! ### Runs that follow others -/

/-- Wherever `f` comes to an end, `g` comes to a like one, from states that `R` relates. -/
def Follows (R : State → State → Prop) (g f : State → Outcome) : Prop :=
  ∀ σ τ : State, R σ τ → (f σ).1 ≠ .exhausted → EndAlike R (f σ) (g τ)

section Follows

variable {R : State → State → Prop} {f f' g g' : State → Outcome} {n m : Nat}

/-- What never comes to an end is followed by everything. -/
theorem follows_exhausted (g : State → Outcome) : Follows R g fun σ => (.exhausted, σ) :=
  fun _ _ _ hend => absurd rfl hend

theorem Lockstep.follows_exec (hR : Lockstep R) (n : Nat) (s : Stmt) :
    Follows R (s.exec n) (s.exec n) :=
  fun _ _ h _ => hR.exec n s h

theorem Follows.withValue (hR : Lockstep R) (e : Expr) {f g : Value → State → Outcome}
    (h : ∀ v, Follows R (g v) (f v)) : Follows R (e.withValue g) (e.withValue f) := by
  intro σ τ hστ hend
  unfold Expr.withValue at hend ⊢
  rw [← hR.eval hστ]
  cases he : e.eval σ.vars with
  | error f => exact ⟨rfl, hστ⟩
  | ok v =>
    rw [he] at hend
    exact h v σ τ hστ hend

theorem Follows.test (hR : Lockstep R) (c : Expr) (h : Follows R g f) (h' : Follows R g' f') :
    Follows R (c.withValue fun v => if v.isTruthy then g else g')
      (c.withValue fun v => if v.isTruthy then f else f') := by
  refine .withValue hR c fun v => ?_
  split
  · exact h
  · exact h'

theorem Follows.andThen {next next' : Flow → State → Outcome} (h : Follows R g f)
    (hnext : ∀ flow, Follows R (next' flow) (next flow)) :
    Follows R (fun σ => (g σ).andThen next') fun σ => (f σ).andThen next := by
  intro σ τ hστ hend
  dsimp only at hend ⊢
  -- a first part without an end would leave the whole without one
  have hfirst : (f σ).1 ≠ .exhausted := fun hx => hend (by
    rw [← Prod.eta (f σ), hx]
    rfl)
  obtain ⟨r, σ', τ', hf, hg, hr⟩ := (h σ τ hστ hfirst).exists_eq
  rw [hf] at hend ⊢
  rw [hg]
  cases r with
  | ok flow => exact hnext flow σ' τ' hr hend
  | fault e => exact ⟨rfl, hr⟩
  | exhausted => exact ⟨rfl, hr⟩

theorem Follows.behind {k k' : LoopKind} {rounds rounds' : Nat}
    (hlast : Follows R (fun σ => (.ok .normal, σ.note (.finished k' rounds')))
      fun σ => (.ok .normal, σ.note (.finished k rounds)))
    (h : Follows R g f) (flow : Flow) :
    Follows R (Loop.behind k' rounds' g flow) (Loop.behind k rounds f flow) := by
  unfold Loop.behind
  split
  · exact hlast
  · exact h

theorem Lockstep.follows_finished (hR : Lockstep R) (k : LoopKind) (rounds : Nat) :
    Follows R (fun σ => (.ok .normal, σ.note (.finished k rounds)))
      fun σ => (.ok .normal, σ.note (.finished k rounds)) :=
  fun _ _ h _ => ⟨rfl, hR.finished h k rounds⟩

theorem Loop.whileDo_follows (hR : Lockstep R) (c : Expr) (h : Follows R g f) (hnm : n ≤ m)
    (rounds : Nat) : Follows R (Loop.whileDo (fun σ => c.test σ.vars) g m rounds)
      (Loop.whileDo (fun σ => c.test σ.vars) f n rounds) := by
  induction n generalizing m rounds with
  | zero => exact follows_exhausted _
  | succ n ih =>
    obtain ⟨m, rfl⟩ : ∃ k, m = k + 1 := ⟨m - 1, by omega⟩
    have hrest := ih (m := m) (by omega) (rounds + 1)
    rw [whileDo_succ, whileDo_succ]
    exact .test hR c (.andThen h (.behind (hR.follows_finished _ _) hrest))
      (hR.follows_finished _ _)

theorem Loop.repeatUntil_follows (hR : Lockstep R) (c : Expr) (h : Follows R g f) (hnm : n ≤ m)
    (rounds : Nat) : Follows R (Loop.repeatUntil g (fun σ => c.test σ.vars) m rounds)
      (Loop.repeatUntil f (fun σ => c.test σ.vars) n rounds) := by
  induction n generalizing m rounds with
  | zero => exact follows_exhausted _
  | succ n ih =>
    obtain ⟨m, rfl⟩ : ∃ k, m = k + 1 := ⟨m - 1, by omega⟩
    have hrest := ih (m := m) (by omega) (rounds + 1)
    rw [repeatUntil_succ, repeatUntil_succ]
    exact .andThen h
      (.behind (hR.follows_finished _ _) (.test hR c (hR.follows_finished _ _) hrest))

theorem Stmt.execAll_follows {ss : List Stmt}
    (hss : ∀ s ∈ ss, Follows R (s.exec m) (s.exec n)) :
    Follows R (Stmt.execAll m ss) (Stmt.execAll n ss) := by
  induction ss with
  | nil =>
    intro σ τ h _
    rw [execAll_nil, execAll_nil]
    exact ⟨rfl, h⟩
  | cons s ss ih =>
    have hrest := ih fun s hs => hss s (by simp [hs])
    rw [execAll_cons_eq_andThen, execAll_cons_eq_andThen]
    refine .andThen (hss s (by simp)) fun flow => ?_
    unfold execRest
    split
    · exact hrest
    · exact fun _ _ h _ => ⟨rfl, h⟩

/-- A statement that is allowed more rounds follows itself. -/
theorem Stmt.exec_follows (hR : Lockstep R) (hnm : n ≤ m) (s : Stmt) :
    Follows R (s.exec m) (s.exec n) := by
  induction s with
  | assign x e => exact hR.follows_exec n (.assign x e)
  | write e newline => exact hR.follows_exec n (.write e newline)
  | ifThen c s ih =>
    rw [exec_ifThen, exec_ifThen, exec_ifElse, exec_ifElse]
    exact .test hR c ih (execAll_follows (n := n) (by simp))
  | ifElse c s t ihs iht =>
    rw [exec_ifElse, exec_ifElse]
    exact .test hR c ihs iht
  | whileDo c s ih => exact Loop.whileDo_follows hR c ih hnm 0
  | repeatUntil s c ih => exact Loop.repeatUntil_follows hR c ih hnm 0
  | block ss ih => exact execAll_follows ih
  | jump j => exact hR.follows_exec n (.jump j)

end Follows

/-! ### More rounds -/

theorem eq_lockstep : Lockstep Eq where
  eval h e := by rw [h]
  finished h k i := by rw [h]
  assign h x v := by rw [h]
  emit h t := by
    rw [h]
    exact ⟨rfl, rfl⟩

/-- Wherever `f` comes to an end, `g` comes to the same one. -/
def Outlasts (g f : State → Outcome) : Prop :=
  ∀ σ, (f σ).1 ≠ .exhausted → g σ = f σ

/-- More rounds than a statement needs change nothing. -/
theorem Stmt.exec_outlasts {n m : Nat} (hnm : n ≤ m) (s : Stmt) :
    Outlasts (s.exec m) (s.exec n) := by
  intro σ hend
  obtain ⟨r, τ, _, hn, hm, rfl⟩ := (s.exec_follows eq_lockstep hnm σ σ rfl hend).exists_eq
  rw [hn, hm]

/-- A statement comes to one end only. -/
theorem Stmt.Ends.unique {s : Stmt} {σ τ τ' : State} {r r' : Ending Fault Flow}
    (h : s.Ends σ r τ) (h' : s.Ends σ r' τ') : r = r' ∧ τ = τ' := by
  obtain ⟨hr, n, hn⟩ := h
  obtain ⟨hr', m, hm⟩ := h'
  -- rounds enough for both runs
  have hleft := s.exec_outlasts (le_max_left n m) σ (by rwa [hn])
  have hright := s.exec_outlasts (le_max_right n m) σ (by rwa [hm])
  rw [hleft, hn, hm] at hright
  exact Prod.mk.inj hright

end BlockScript
