import BlockScript.Proofs.Complements
import BlockScript.Proofs.Equivalence

/-!
# Laws of loops

* `whileDo_equivalent`: a loop that looks at its condition in front of each round is one that looks
  at the opposite behind each round, if the condition lets in the first round.
* `Outcome.inLoop`: an outcome as the loop around it sees it; `Loop.whileDo_congr`,
  `Loop.repeatUntil_congr`: a loop depends on nothing else of its body.
* `loops_equivalent_of_skip`: a jump to the next round leaves out the rest of the round.
-/

namespace BlockScript

open Decimal State

/-! ### Conditions in front of rounds and behind them -/

section Conditions

variable {c d : Expr} {f g : State → Outcome} {last : State → State}

/-- Behind a round, the loop goes on where the opposite of its condition holds. -/
theorem Loop.repeatUntil_succ_of_complementary (h : c.Complementary d) (body : State → Outcome)
    (n rounds : Nat) : repeatUntil body (fun σ => d.test σ.vars) (n + 1) rounds =
      fun σ => (body σ).andThen <| behind .repeatLoop (rounds + 1) <| c.withValue fun v =>
        if v.isTruthy then repeatUntil body (fun σ => d.test σ.vars) n (rounds + 1)
        else fun σ => (.ok .normal, σ.note (.finished .repeatLoop (rounds + 1))) := by
  rw [repeatUntil_succ, h.withValue_eq]

/-- Looking at the opposite behind each round takes no more rounds. -/
theorem Loop.repeatUntil_follows_whileDo (h : c.Complementary d) (hbody : Follows Alike g f)
    (hlast : ∀ σ, (last σ).Alike σ) (n i j : Nat) : Follows Alike
      (c.withValue fun v => if v.isTruthy then repeatUntil g (fun σ => d.test σ.vars) n j
        else fun σ => (.ok .normal, last σ))
      (whileDo (fun σ => c.test σ.vars) f n i) := by
  have hnote (k : LoopKind) (i : Nat) (σ : State) := σ.alike_note (.finished k i)
  -- behind a round both loops stand where they started, but an end is noted there by now
  induction n generalizing i j last with
  | zero => exact follows_exhausted _
  | succ n ih =>
    rw [whileDo_succ, repeatUntil_succ_of_complementary h]
    refine .test alike_lockstep c (.andThen hbody fun flow => ?_)
      (follows_of_alike .normal (hnote .whileLoop i) hlast)
    exact .behind (follows_of_alike .normal (hnote _ _) (hnote _ _))
      (ih (hnote .repeatLoop (j + 1)) (i + 1) (j + 1)) flow

/-- Looking at the condition in front of each round takes one look more. -/
theorem Loop.whileDo_follows_repeatUntil (h : c.Complementary d) (hbody : Follows Alike g f)
    (hlast : ∀ σ, (last σ).Alike σ) (n i j : Nat) : Follows Alike
      (whileDo (fun σ => c.test σ.vars) g (n + 1) i)
      (c.withValue fun v => if v.isTruthy then repeatUntil f (fun σ => d.test σ.vars) n j
        else fun σ => (.ok .normal, last σ)) := by
  have hnote (k : LoopKind) (i : Nat) (σ : State) := σ.alike_note (.finished k i)
  induction n generalizing i j last with
  | zero =>
    rw [whileDo_succ]
    exact .test alike_lockstep c (follows_exhausted _)
      (follows_of_alike .normal hlast (hnote .whileLoop i))
  | succ n ih =>
    rw [whileDo_succ, repeatUntil_succ_of_complementary h]
    refine .test alike_lockstep c (.andThen hbody fun flow => ?_)
      (follows_of_alike .normal hlast (hnote .whileLoop i))
    exact .behind (follows_of_alike .normal (hnote _ _) (hnote _ _))
      (ih (hnote .repeatLoop (j + 1)) (i + 1) (j + 1)) flow

end Conditions

theorem Stmt.exec_ifThen_repeatUntil (c d : Expr) (b : Stmt) (n : Nat) :
    (Stmt.ifThen c (.repeatUntil b d)).exec n = c.withValue fun v =>
      if v.isTruthy then Loop.repeatUntil (b.exec n) (fun σ => d.test σ.vars) n 0
      else fun σ => (.ok .normal, σ) := by
  have hnone : (Stmt.block []).exec n = fun σ => (.ok .normal, σ) := funext fun σ => by simp
  have hloop : (Stmt.repeatUntil b d).exec n =
      Loop.repeatUntil (b.exec n) (fun σ => d.test σ.vars) n 0 := funext fun σ => by rw [exec]
  rw [exec_ifThen, exec_ifElse, hnone, hloop]

/-- **A loop that looks at its condition in front of each round** is one that looks at the opposite
behind each round, if the condition lets in the first round. Every condition has an opposite. -/
theorem whileDo_equivalent (c : Expr) (b : Stmt) :
    c.Complementary (.rel .equal (.signed .minus c) (.literal (.number zero))) ∧
      ∀ d, c.Complementary d →
        (Stmt.whileDo c b).Equivalent (.ifThen c (.repeatUntil b d)) := by
  refine ⟨c.complementary_negation, fun d h => Stmt.equivalent_of_follows (fun n => ⟨n, ?_⟩)
    fun n => ⟨n + 1, ?_⟩⟩
  · rw [Stmt.exec_ifThen_repeatUntil]
    exact Loop.repeatUntil_follows_whileDo h (alike_lockstep.follows_exec n b) .refl n 0 0
  · rw [Stmt.exec_ifThen_repeatUntil]
    exact Loop.whileDo_follows_repeatUntil h (b.exec_follows alike_lockstep n.le_succ) .refl n 0 0

/-- Both loops write the value of `x` once. The text that it has then is no condition that holds. -/
theorem equivalent_while_var :
    ∃ (c d : Expr) (b : Stmt), c = .var "x" ∧
      d = .rel .equal (.signed .minus (.var "x")) (.literal (.number zero)) ∧
      b = .block [.write (.var "x") true, .assign "x" (.literal (.text ""))] ∧
      c.Complementary d ∧
      ∃ σ τ υ : State, σ.vars = Store.initial.set "x" (.text "1") ∧ σ.out = {} ∧
        (Stmt.whileDo c b).Ends σ (.ok .normal) τ ∧
        (Stmt.ifThen c (.repeatUntil b d)).Ends σ (.ok .normal) υ ∧ τ.Alike υ ∧
        υ.vars = Store.initial.set "x" (.text "") ∧ υ.out.written = "1\n".toUTF8 := by
  let b : Stmt := .block [.write (.var "x") true, .assign "x" (.literal (.text ""))]
  let σ : State := { vars := Store.initial.set "x" (.text "1") }
  let τ : State := ((Stmt.whileDo (.var "x") b).exec 2 σ).2
  obtain ⟨hd, hequivalent⟩ := whileDo_equivalent (.var "x") b
  have hloop : (Stmt.whileDo (.var "x") b).Ends σ (.ok .normal) τ :=
    ⟨by simp, 2, Prod.ext (by decide) rfl⟩
  have hvars : τ.vars = Store.initial.set "x" (.text "") := by decide
  have hout : τ.out.written = "1\n".toUTF8 := by decide
  obtain ⟨υ, hυ, halike⟩ := (hequivalent _ hd).exists_ends hloop
  rw [halike.1] at hvars
  rw [halike.2] at hout
  exact ⟨_, _, b, rfl, rfl, rfl, hd, σ, τ, υ, rfl, rfl, hloop, hυ, halike, hvars, hout⟩

/-! ### Jumps to the next round -/

/-- How a loop goes on behind its body: a jump to the next round is as good as none. -/
def Flow.inLoop : Flow → Flow
  | .jump .next => .normal
  | flow => flow

/-- The outcome of its body as a loop sees it. -/
def Outcome.inLoop (o : Outcome) : Outcome :=
  o.andThen fun flow σ => (.ok flow.inLoop, σ)

theorem Outcome.andThen_assoc (o : Outcome) (next next' : Flow → State → Outcome) :
    (o.andThen next).andThen next' = o.andThen fun flow σ => (next flow σ).andThen next' := by
  obtain ⟨flow | f | _, τ⟩ := o <;> rfl

namespace Loop

variable {body body' : State → Outcome}

theorem andThen_behind (o : Outcome) (k : LoopKind) (rounds : Nat) (next : State → Outcome) :
    o.andThen (behind k rounds next) = o.inLoop.andThen (behind k rounds next) := by
  obtain ⟨(_ | _ | _) | f | _, τ⟩ := o <;> rfl

/-- A loop depends on its body only by what it sees of it. -/
theorem whileDo_congr (h : ∀ σ, (body σ).inLoop = (body' σ).inLoop) (c : Expr) (n rounds : Nat) :
    whileDo (fun σ => c.test σ.vars) body n rounds =
      whileDo (fun σ => c.test σ.vars) body' n rounds := by
  induction n generalizing rounds with
  | zero => rfl
  | succ n ih =>
    rw [whileDo_succ, whileDo_succ, ih]
    simp only [andThen_behind (body _), andThen_behind (body' _), h]

/-- A loop depends on its body only by what it sees of it. -/
theorem repeatUntil_congr (h : ∀ σ, (body σ).inLoop = (body' σ).inLoop) (c : Expr)
    (n rounds : Nat) : repeatUntil body (fun σ => c.test σ.vars) n rounds =
      repeatUntil body' (fun σ => c.test σ.vars) n rounds := by
  induction n generalizing rounds with
  | zero => rfl
  | succ n ih =>
    rw [repeatUntil_succ, repeatUntil_succ, ih]
    simp only [andThen_behind (body _), andThen_behind (body' _), h]

end Loop

namespace Stmt

theorem execAll_append_eq_andThen (n : Nat) (ss ts : List Stmt) (σ : State) :
    execAll n (ss ++ ts) σ = (execAll n ss σ).andThen (execRest n ts) := by
  rw [execAll_append]
  obtain ⟨r, τ⟩ := execAll n ss σ
  rcases r with (_ | j) | f | _ <;> rfl

/-- Leaving a round early is, to the loop, doing the rest of it on the opposite condition. -/
theorem execAll_skip {g d : Expr} (h : g.Complementary d) (n : Nat) (post : List Stmt)
    (σ : State) : (execAll n (.ifThen g (.jump .next) :: post) σ).inLoop =
      (execAll n [.ifThen d (.block post)] σ).inLoop := by
  rw [execAll_cons, execAll_cons, exec, exec, Expr.test, Expr.test]
  obtain ⟨f, hg, hd⟩ | ⟨v, w, hg, hd, hvw⟩ := h σ.vars
  · rw [hg, hd]
    rfl
  · rw [hg, hd]
    simp only [Except.map, hvw]
    cases v.isTruthy with
    | true =>
      simp only [exec, Bool.not_true, execAll_nil]
      rfl
    | false =>
      simp only [exec_block, Bool.not_false]
      -- nothing comes behind the rest of the round
      obtain ⟨r, τ⟩ := execAll n post σ
      rcases r with (_ | j) | f | _ <;> simp only [execAll_nil]

theorem exec_skip {g d : Expr} (h : g.Complementary d) (n : Nat) (pre post : List Stmt)
    (σ : State) :
    ((block (pre ++ [Stmt.ifThen g (.jump .next)] ++ post)).exec n σ).inLoop =
      ((block (pre ++ [Stmt.ifThen d (.block post)])).exec n σ).inLoop := by
  rw [exec_block, exec_block, List.append_assoc, execAll_append_eq_andThen,
    execAll_append_eq_andThen, Outcome.inLoop, Outcome.inLoop, Outcome.andThen_assoc,
    Outcome.andThen_assoc]
  congr 1
  -- what differs comes behind `pre`, so it is done only if `pre` hands on control normally
  funext flow τ
  unfold execRest
  split
  · exact execAll_skip h n post τ
  · rfl

end Stmt

/-- **A jump to the next round leaves out the rest of the round.** -/
theorem loops_equivalent_of_skip {g d : Expr} (h : g.Complementary d) (c : Expr)
    (pre post : List Stmt) :
    (Stmt.whileDo c (.block (pre ++ [Stmt.ifThen g (.jump .next)] ++ post))).Equivalent
        (.whileDo c (.block (pre ++ [Stmt.ifThen d (.block post)]))) ∧
      (Stmt.repeatUntil (.block (pre ++ [Stmt.ifThen g (.jump .next)] ++ post)) c).Equivalent
        (.repeatUntil (.block (pre ++ [Stmt.ifThen d (.block post)])) c) := by
  constructor
  · refine Stmt.equivalent_of_exec_eq fun n => funext fun σ => ?_
    rw [Stmt.exec, Stmt.exec, Loop.whileDo_congr (Stmt.exec_skip h n pre post)]
  · refine Stmt.equivalent_of_exec_eq fun n => funext fun σ => ?_
    rw [Stmt.exec, Stmt.exec, Loop.repeatUntil_congr (Stmt.exec_skip h n pre post)]

/-- The first round is left early, and the second one is not: what stands behind the jump is done
once. -/
theorem equivalent_skip_var :
    ∃ (g d : Expr) (pre post : List Stmt), g = .var "x" ∧
      d = .rel .equal (.signed .minus (.var "x")) (.literal (.number zero)) ∧
      pre = [.assign "x" (.var "y"), .assign "y" (.literal (.text "")),
        .write (.literal (.text "b")) false] ∧
      post = [.write (.literal (.text "a")) true] ∧ g.Complementary d ∧
      ∃ σ τ υ : State, σ.vars = (Store.initial.set "x" (.text "1")).set "y" (.text "1") ∧
        σ.out = {} ∧
        (Stmt.whileDo g (.block (pre ++ [Stmt.ifThen g (.jump .next)] ++ post))).Ends σ
          (.ok .normal) τ ∧
        (Stmt.whileDo g (.block (pre ++ [Stmt.ifThen d (.block post)]))).Ends σ (.ok .normal) υ ∧
        τ.Alike υ ∧ υ.vars = (Store.initial.set "x" (.text "")).set "y" (.text "") ∧
        υ.out.written = "bba\n".toUTF8 := by
  let pre : List Stmt := [.assign "x" (.var "y"), .assign "y" (.literal (.text "")),
    .write (.literal (.text "b")) false]
  let post : List Stmt := [.write (.literal (.text "a")) true]
  let loop : Stmt :=
    .whileDo (.var "x") (.block (pre ++ [Stmt.ifThen (.var "x") (.jump .next)] ++ post))
  let σ : State := { vars := (Store.initial.set "x" (.text "1")).set "y" (.text "1") }
  let τ : State := (loop.exec 3 σ).2
  have hd := (Expr.var "x").complementary_negation
  have hloop : loop.Ends σ (.ok .normal) τ := ⟨by simp, 3, Prod.ext (by decide) rfl⟩
  have hvars : τ.vars = (Store.initial.set "x" (.text "")).set "y" (.text "") := by decide
  have hout : τ.out.written = "bba\n".toUTF8 := by decide
  obtain ⟨υ, hυ, halike⟩ :=
    (loops_equivalent_of_skip hd (.var "x") pre post).1.exists_ends hloop
  rw [halike.1] at hvars
  rw [halike.2] at hout
  exact ⟨_, _, pre, post, rfl, rfl, rfl, rfl, hd, σ, τ, υ, rfl, rfl, hloop, hυ, halike, hvars,
    hout⟩

end BlockScript
