import BlockScript.Proofs.LineBreak
import BlockScript.Proofs.Lockstep
import BlockScript.Proofs.Recognition
import BlockScript.Session

/-!
# Running a program part by part

* `compile_append_newline`: the tree of two programs on lines of their own.
* `State.Ends`: a program comes to an end, for some number of rounds.
* `State.EndsInTurn`: two programs come to an end one after the other, the second one starting only
  if the first one had no failure.
* `ends_append_newline_iff`: the two programs joined end in the same way.
-/

namespace BlockScript

/-! ### States with the same variables and output -/

theorem Sink.write_flushes (k : Sink) (t : String) : (k.write t).2.flushes = k.flushes := by
  unfold write
  cases k.limit with
  | none => rfl
  | some n =>
    dsimp only
    split <;> rfl

namespace State

/-- The same variables and the same output. The traces may differ. -/
def Alike (σ τ : State) : Prop :=
  σ.vars = τ.vars ∧ σ.out = τ.out

variable {σ τ ρ : State}

theorem Alike.refl (σ : State) : σ.Alike σ :=
  ⟨rfl, rfl⟩

theorem Alike.symm (h : σ.Alike τ) : τ.Alike σ :=
  ⟨h.1.symm, h.2.symm⟩

theorem Alike.trans (h : σ.Alike τ) (h' : τ.Alike ρ) : σ.Alike ρ :=
  ⟨h.1.trans h'.1, h.2.trans h'.2⟩

theorem alike_noteScan (σ : State) (r : Except ScanError Scanned) : (σ.noteScan r).Alike σ := by
  cases r <;> exact ⟨rfl, rfl⟩

theorem alike_noteParse (σ : State) (r : Except ParseError Stmt) : (σ.noteParse r).Alike σ := by
  cases r <;> exact ⟨rfl, rfl⟩

theorem alike_noteCompile (σ : State) (code : String) : (σ.noteCompile code).Alike σ := by
  simp only [noteCompile]
  cases scan code with
  | error e => exact .refl σ
  | ok s => exact (alike_noteParse _ _).trans (alike_noteScan _ _)

theorem emit_alike (h : σ.Alike τ) (t : String) : EndAlike Alike (σ.emit t) (τ.emit t) := by
  obtain ⟨r, out, hσ, hτ⟩ := emit_congr h.2 t
  rw [hσ, hτ]
  exact ⟨rfl, h.1, rfl⟩

/-- Nothing that a program does depends on the trace. -/
theorem alike_lockstep : Lockstep Alike where
  eval h e := by rw [h.1]
  finished h k i := ⟨h.1, h.2⟩
  assign h x v := ⟨congrArg (·.set x v) h.1, h.2⟩
  emit h t := emit_alike h t

/-- Every action keeps the sink's ability to pass on what was written. -/
theorem flushes_lockstep (b : Bool) : Lockstep fun σ τ => σ = τ ∧ σ.out.flushes = b where
  eval h e := by rw [h.1]
  finished := by
    rintro σ _ ⟨rfl, hb⟩ k i
    exact ⟨rfl, hb⟩
  assign := by
    rintro σ _ ⟨rfl, hb⟩ x v
    exact ⟨rfl, hb⟩
  emit := by
    rintro σ _ ⟨rfl, hb⟩ t
    refine ⟨rfl, rfl, ?_⟩
    have hw : (σ.out.write t).2.flushes = b := (σ.out.write_flushes t).trans hb
    simp only [emit, write]
    cases (σ.out.write t).1 with
    | none => exact hw
    | some e => exact hw

/-- A run keeps the sink's ability to pass on what was written. -/
theorem exec_flushes (n : Nat) (s : Stmt) (σ : State) :
    (s.exec n σ).2.out.flushes = σ.out.flushes :=
  ((flushes_lockstep σ.out.flushes).exec n s ⟨rfl, rfl⟩).2.2

end State

/-! ### The tree of two programs -/

open Grammar

theorem compile_eq_ok_iff {code : String} {p : Stmt} : compile code = .ok p ↔
    ∃ s ss, scan code = .ok s ∧ readProgram s.tokens = .ok ss ∧ p = .block ss := by
  unfold compile
  cases scan code with
  | error e => simp
  | ok s =>
    simp only [Except.ok.injEq, exists_and_left, exists_eq_left', eq_comm (a := p)]
    rw [← parse_eq_ok_iff]
    cases parse s.tokens <;> simp

/-- The tree of two programs on lines of their own has the statements of the one and then those of
the other. -/
theorem compile_append_newline {a b : String} {ss ts : List Stmt}
    (ha : compile a = .ok (.block ss)) (hb : compile b = .ok (.block ts))
    (hopen : ¬ EndsInText a.toList) : compile (a ++ "\n" ++ b) = .ok (.block (ss ++ ts)) := by
  obtain ⟨x, ss', hx, hpx, hss⟩ := compile_eq_ok_iff.1 ha
  obtain ⟨y, ts', hy, hpy, hts⟩ := compile_eq_ok_iff.1 hb
  cases hss
  cases hts
  refine compile_eq_ok_iff.2
    ⟨⟨x.tokens ++ y.tokens.map (Token.later x.lines), y.lines + x.lines⟩, ss ++ ts, ?_, ?_, rfl⟩
  · rw [scan_append_newline hx hopen, hy]
    rfl
  · have hlexemes : (x.tokens ++ y.tokens.map (Token.later x.lines)).map Token.lexeme =
        x.tokens.map Token.lexeme ++ y.tokens.map Token.lexeme := by
      simp [Function.comp_def]
    rw [readProgram_eq_ok_iff, hlexemes]
    exact (readProgram_eq_ok_iff.1 hpx).sequence_append (readProgram_eq_ok_iff.1 hpy) endsStmt_none

/-! ### Two programs in turn -/

namespace State

/-- How a program ends whose statements ended so, where the output can be passed on. -/
def settle : Outcome → Ending Failure Unit × State
  | (.ok .normal, τ) => (.ok (), τ)
  | (.ok (.jump j), τ) => (.fault (.run (.misplacedJump j)), τ)
  | (.fault f, τ) => (.fault (.run f), τ)
  | (.exhausted, τ) => (.exhausted, τ)

/-- Runs a program and then, if it had no failure, another one, where each loop is allowed `n`
rounds. -/
def runInTurn (n : Nat) (a b : String) (σ : State) : Ending Failure Unit × State :=
  match σ.run n a with
  | (.ok (), τ) => τ.run n b
  | o => o

variable {σ τ : State} {a b : String} {p : Stmt}

theorem run_eq_settle (h : compile a = .ok p) (hσ : σ.out.flushes = true) (n : Nat) :
    σ.run n a = settle (p.exec n (σ.noteCompile a)) := by
  have hflush : (p.exec n (σ.noteCompile a)).2.out.flush = none := by
    rw [Sink.flush, exec_flushes, (alike_noteCompile σ a).2, hσ]
    rfl
  simp only [run, h, interpret]
  generalize p.exec n (σ.noteCompile a) = o at hflush ⊢
  obtain ⟨r, τ⟩ := o
  rcases r with (_ | j) | f | _ <;> simp only [hflush, settle, failing]

theorem settle_endAlike {o o' : Outcome} (h : EndAlike Alike o o') :
    EndAlike Alike (settle o) (settle o') := by
  obtain ⟨r, σ, τ, rfl, rfl, hr⟩ := h.exists_eq
  rcases r with (_ | j) | f | _ <;> exact ⟨rfl, hr⟩

/-- Run as one, two programs do what they do in turn. -/
theorem run_append_newline {ss ts : List Stmt} (ha : compile a = .ok (.block ss))
    (hb : compile b = .ok (.block ts)) (hopen : ¬ EndsInText a.toList)
    (hσ : σ.out.flushes = true) (n : Nat) :
    EndAlike Alike (σ.run n (a ++ "\n" ++ b)) (σ.runInTurn n a b) := by
  have hstart : (σ.noteCompile (a ++ "\n" ++ b)).Alike (σ.noteCompile a) :=
    (alike_noteCompile _ _).trans (alike_noteCompile _ _).symm
  have hflushes := exec_flushes n (.block ss) (σ.noteCompile a)
  rw [(alike_noteCompile σ a).2, hσ] at hflushes
  obtain ⟨r, ρ, ρ', ho, ho', hρ⟩ := (alike_lockstep.exec n (.block ss) hstart).exists_eq
  rw [ho'] at hflushes
  rw [runInTurn, run_eq_settle (compile_append_newline ha hb hopen) hσ, run_eq_settle ha hσ, ho',
    Stmt.exec_block, Stmt.execAll_append, ← Stmt.exec_block, ho]
  rcases r with (_ | j) | f | _
  -- the first program handed on control, so the second one starts where it ended
  · have hnext : ρ.Alike (ρ'.noteCompile b) := hρ.trans (alike_noteCompile _ _).symm
    simp only [settle, run_eq_settle hb hflushes]
    rw [← Stmt.exec_block]
    exact settle_endAlike (alike_lockstep.exec n (.block ts) hnext)
  all_goals exact ⟨rfl, hρ⟩

/-- A program comes to an end, for some number of rounds. -/
def Ends (σ : State) (code : String) (r : Ending Failure Unit) (τ : State) : Prop :=
  r ≠ .exhausted ∧ ∃ n, σ.run n code = (r, τ)

/-- Two programs come to an end one after the other on the same variables and output. The second
one starts only if the first one had no failure. -/
inductive EndsInTurn (σ : State) (a b : String) : Ending Failure Unit → State → Prop
  | failed {f : Failure} {τ : State} (h : σ.Ends a (.fault f) τ) : EndsInTurn σ a b (.fault f) τ
  | both {r : Ending Failure Unit} {ρ τ : State} (h : σ.Ends a (.ok ()) ρ) (h' : ρ.Ends b r τ) :
    EndsInTurn σ a b r τ

/-- A program ends as its statements do from any state with the same variables and output. -/
theorem exists_ends_of_settle {n : Nat} {r : Ending Failure Unit} {ρ : State}
    (h : compile a = .ok p) (hτ : σ.Alike τ) (hflushes : σ.out.flushes = true)
    (hr : r ≠ .exhausted) (hp : settle (p.exec n σ) = (r, ρ)) :
    ∃ ρ', τ.Ends a r ρ' ∧ ρ.Alike ρ' := by
  have hstart : σ.Alike (τ.noteCompile a) := hτ.trans (alike_noteCompile τ a).symm
  have hend := settle_endAlike (alike_lockstep.exec n p hstart)
  rw [hτ.2] at hflushes
  rw [hp, ← run_eq_settle h hflushes] at hend
  exact ⟨(τ.run n a).2, ⟨hr, n, Prod.ext hend.1.symm rfl⟩, hend.2⟩

/-- More rounds than a program needs change nothing. -/
theorem run_outlasts {n m : Nat} (hnm : n ≤ m) (σ : State) (code : String)
    (hend : (σ.run n code).1 ≠ .exhausted) : σ.run m code = σ.run n code := by
  unfold run at hend ⊢
  cases hc : compile code with
  | error f => rfl
  | ok p =>
    simp only [hc] at hend
    have hp : p.exec m (σ.noteCompile code) = p.exec n (σ.noteCompile code) := by
      apply p.exec_outlasts hnm
      intro hx
      apply hend
      simp only [interpret]
      rw [← Prod.eta (p.exec n (σ.noteCompile code)), hx]
      rfl
    simp only [interpret, hp]

theorem endsInTurn_iff {r : Ending Failure Unit} :
    σ.EndsInTurn a b r τ ↔ r ≠ .exhausted ∧ ∃ n, σ.runInTurn n a b = (r, τ) := by
  constructor
  · rintro (⟨hr, n, hn⟩ | ⟨⟨hr, n, hn⟩, hr', m, hm⟩)
    · exact ⟨hr, n, by rw [runInTurn, hn]⟩
    -- rounds enough for both programs
    · have ha : σ.run (max n m) a = _ :=
        (run_outlasts (le_max_left n m) σ a (by simp [hn])).trans hn
      refine ⟨hr', max n m, ?_⟩
      rw [runInTurn, ha]
      exact (run_outlasts (le_max_right n m) _ b (by simpa [hm] using hr')).trans hm
  · rintro ⟨hr, n, hn⟩
    unfold runInTurn at hn
    rcases ha : σ.run n a with ⟨r', ρ⟩
    rw [ha] at hn
    cases r' with
    | ok u => exact .both ⟨by simp, n, ha⟩ ⟨hr, n, hn⟩
    | fault f =>
      cases hn
      exact .failed ⟨hr, n, ha⟩
    | exhausted =>
      cases hn
      exact absurd rfl hr

end State

/-- **Running a program part by part is running it as a whole.** Joined by a line break, two
programs end exactly as they do in turn: with the same result, variables and output. The first
program must not end inside a text literal, as the line break would become part of it. -/
theorem ends_append_newline_iff {a b : String} {p q : Stmt} (ha : compile a = .ok p)
    (hb : compile b = .ok q) :
    (¬ EndsInText a.toList ↔
      (scan (a ++ "\n")).map Scanned.tokens = (scan a).map Scanned.tokens) ∧
    (¬ EndsInText a.toList → ∀ σ : State, σ.out.flush = none →
      ∀ (r : Ending Failure Unit) (vars : Store) (out : Sink),
        (∃ τ, σ.Ends (a ++ "\n" ++ b) r τ ∧ τ.vars = vars ∧ τ.out = out) ↔
          ∃ τ, σ.EndsInTurn a b r τ ∧ τ.vars = vars ∧ τ.out = out) := by
  obtain ⟨x, ss, hx, -, rfl⟩ := compile_eq_ok_iff.1 ha
  obtain ⟨-, ts, -, -, rfl⟩ := compile_eq_ok_iff.1 hb
  constructor
  · rw [hx]
    exact not_endsInText_iff hx
  · intro hopen σ hσ r vars out
    have hflushes : σ.out.flushes = true := by simpa [Sink.flush] using hσ
    have hrun (n : Nat) := State.run_append_newline ha hb hopen hflushes n
    simp only [State.endsInTurn_iff]
    constructor
    · rintro ⟨τ, ⟨hr, n, hn⟩, rfl, rfl⟩
      obtain ⟨r', ρ, τ', ho, ho', hρ⟩ := (hrun n).exists_eq
      obtain ⟨rfl, rfl⟩ : r' = r ∧ ρ = τ := by simpa [ho] using hn
      exact ⟨τ', ⟨hr, n, ho'⟩, hρ.1.symm, hρ.2.symm⟩
    · rintro ⟨τ, ⟨hr, n, hn⟩, rfl, rfl⟩
      obtain ⟨r', ρ, τ', ho, ho', hρ⟩ := (hrun n).exists_eq
      obtain ⟨rfl, rfl⟩ : r' = r ∧ τ' = τ := by simpa [ho'] using hn
      exact ⟨ρ, ⟨hr, n, ho⟩, hρ.1, hρ.2⟩

/-- The second program reads what the first one assigned, and it writes behind what that one wrote.
Behind a jump outside of a loop it is not run at all. -/
theorem ends_assign_newline_write :
    (∃ ρ τ υ : State, State.Ends {} "x := \"a\" write x" (.ok ()) ρ ∧
      ρ.Ends "write x x := \"b\"" (.ok ()) τ ∧
      State.Ends {} ("x := \"a\" write x" ++ "\n" ++ "write x x := \"b\"") (.ok ()) υ ∧
      ρ.vars = Store.initial.set "x" (.text "a") ∧ ρ.out = { written := "a".toUTF8 } ∧
      τ.Alike υ ∧
      υ.vars = Store.initial.set "x" (.text "b") ∧ υ.out = { written := "aa".toUTF8 }) ∧
    ∃ τ, State.Ends {} ("break" ++ "\n" ++ "continue") (.fault (.run (.misplacedJump .leave))) τ ∧
      τ.vars = Store.initial ∧ τ.out = {} := by
  constructor
  · let p : Stmt := .block [.assign "x" (.literal (.text "a")), .write (.var "x") false]
    let q : Stmt := .block [.write (.var "x") false, .assign "x" (.literal (.text "b"))]
    have hscan : scan "x := \"a\" write x" = .ok ⟨[⟨.word "x", 1⟩, ⟨.symbol .assign, 1⟩,
        ⟨.text "a", 1⟩, ⟨.keyword .writeKw, 1⟩, ⟨.word "x", 1⟩], 1⟩ := by decide +kernel
    have hscan' : scan "write x x := \"b\"" = .ok ⟨[⟨.keyword .writeKw, 1⟩, ⟨.word "x", 1⟩,
        ⟨.word "x", 1⟩, ⟨.symbol .assign, 1⟩, ⟨.text "b", 1⟩], 1⟩ := by decide +kernel
    have hp : compile "x := \"a\" write x" = .ok p :=
      compile_eq_ok_iff.2 ⟨_, _, hscan, by cbv, rfl⟩
    have hq : compile "write x x := \"b\"" = .ok q :=
      compile_eq_ok_iff.2 ⟨_, _, hscan', by cbv, rfl⟩
    have hopen : ¬ EndsInText "x := \"a\" write x".toList :=
      (not_endsInText_iff hscan).2 (by decide +kernel)
    let σ : State := { vars := Store.initial.set "x" (.text "a"), out := { written := "a".toUTF8 } }
    let σ' : State :=
      { vars := Store.initial.set "x" (.text "b"), out := { written := "aa".toUTF8 } }
    obtain ⟨ρ, hρ, hσρ⟩ : ∃ ρ, State.Ends {} "x := \"a\" write x" (.ok ()) ρ ∧ σ.Alike ρ :=
      State.exists_ends_of_settle (n := 0) hp (.refl {}) rfl (by simp) rfl
    -- from where the first program ended
    obtain ⟨τ, hτ, hστ⟩ : ∃ τ, ρ.Ends "write x x := \"b\"" (.ok ()) τ ∧ σ'.Alike τ :=
      State.exists_ends_of_settle (n := 0) hq hσρ rfl (by simp) rfl
    obtain ⟨υ, hυ, hvars, hout⟩ :=
      ((ends_append_newline_iff hp hq).2 hopen {} rfl (.ok ()) σ'.vars σ'.out).2
        ⟨τ, .both hρ hτ, hστ.1.symm, hστ.2.symm⟩
    have halike : τ.Alike υ := ⟨hστ.1.symm.trans hvars.symm, hστ.2.symm.trans hout.symm⟩
    exact ⟨ρ, τ, υ, hρ, hτ, hυ, hσρ.1.symm, hσρ.2.symm, halike, hvars, hout⟩
  · have hscan : scan "break" = .ok ⟨[⟨.keyword .breakKw, 1⟩], 1⟩ := by decide +kernel
    have hscan' : scan "continue" = .ok ⟨[⟨.keyword .continueKw, 1⟩], 1⟩ := by decide +kernel
    have hbreak : compile "break" = .ok (.block [.jump .leave]) :=
      compile_eq_ok_iff.2 ⟨_, _, hscan, by cbv, rfl⟩
    have hcontinue : compile "continue" = .ok (.block [.jump .next]) :=
      compile_eq_ok_iff.2 ⟨_, _, hscan', by cbv, rfl⟩
    have hopen : ¬ EndsInText "break".toList := (not_endsInText_iff hscan).2 (by decide +kernel)
    obtain ⟨τ, hτ, hvars, hout⟩ :=
      State.exists_ends_of_settle (n := 0) hbreak (.refl {}) rfl (by simp) rfl
    exact ((ends_append_newline_iff hbreak hcontinue).2 hopen {} rfl _ _ _).2
      ⟨τ, .failed hτ, hvars.symm, hout.symm⟩

end BlockScript
