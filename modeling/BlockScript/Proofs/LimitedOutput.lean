import BlockScript.Proofs.Steps

/-!
# Output that does not fit

With room for some bytes of output only, a program does what it does without a limit as long as its
output fits, and it stops in front of the first byte that does not.

* `State.Extends`: output was added, and none was taken back.
* `Truncated`: what becomes of an outcome if there is room for `n` bytes only.
* `Truncates`: the outcome of a run is truncated, from wherever it starts;
  `truncates_stepwise`: every run does so.
* `ends_withRoom`: how a statement ends if its output fits, and if it does not.
-/

namespace BlockScript

/-- The first bytes of two arrays, if there are more of them than in the first array. -/
theorem extract_append_of_size_le {a b : ByteArray} {n : Nat} (h : a.size ≤ n) :
    (a ++ b).extract 0 n = a ++ b.extract 0 (n - a.size) := by
  have ha : a.extract 0 n = a := by
    rw [← Nat.max_eq_left h]
    exact ByteArray.extract_zero_max_size
  rw [ByteArray.extract_append, ha, Nat.zero_sub]

namespace State

/-- The state with another limit on its output. -/
def withLimit (σ : State) (limit : Option Nat) : State :=
  { σ with out := { σ.out with limit := limit } }

/-- The state with room for `n` bytes more. -/
def withRoom (σ : State) (n : Nat) : State :=
  σ.withLimit (some (σ.out.written.size + n))

/-- Output was added behind the earlier output, which is still there. -/
def Extends (σ τ : State) : Prop :=
  τ.out.limit = σ.out.limit ∧ ∃ bytes, τ.out.written = σ.out.written ++ bytes

variable {ρ σ τ : State} {n : Nat}

theorem Extends.of_out_eq (h : τ.out = σ.out) : σ.Extends τ :=
  ⟨by rw [h], .empty, by rw [h, ByteArray.append_empty]⟩

theorem Extends.trans (h : ρ.Extends σ) (h' : σ.Extends τ) : ρ.Extends τ := by
  obtain ⟨hl, b, hb⟩ := h
  obtain ⟨hl', b', hb'⟩ := h'
  exact ⟨hl'.trans hl, b ++ b', by rw [hb', hb, ByteArray.append_assoc]⟩

theorem Extends.size_le (h : σ.Extends τ) : σ.out.written.size ≤ τ.out.written.size := by
  obtain ⟨-, bytes, hw⟩ := h
  rw [hw, ByteArray.size_append]
  omega

/-- What fits of the output is decided once there is too much of it. -/
theorem Extends.extract_eq (h : σ.Extends τ) (hn : n ≤ σ.out.written.size) :
    τ.out.written.extract 0 n = σ.out.written.extract 0 n := by
  obtain ⟨-, bytes, hw⟩ := h
  rw [hw, ByteArray.extract_append, Nat.zero_sub, Nat.sub_eq_zero_of_le hn, ByteArray.extract_same,
    ByteArray.append_empty]

theorem emit_of_limit_none (h : σ.out.limit = none) (t : String) :
    σ.emit t = (.ok .normal, { σ with out := σ.out.append t.toUTF8 }) := by
  simp [emit, write, h]

theorem emit_of_fits (h : σ.out.limit = some n) {t : String}
    (hle : σ.out.written.size + t.toUTF8.size ≤ n) :
    σ.emit t = (.ok .normal, { σ with out := σ.out.append t.toUTF8 }) := by
  simp only [emit, write, Sink.write, h, if_pos hle]

theorem emit_of_full (h : σ.out.limit = some n) {t : String}
    (hlt : ¬ σ.out.written.size + t.toUTF8.size ≤ n) :
    σ.emit t = (.fault (.output .full),
      { σ with out := σ.out.append (t.toUTF8.extract 0 (n - σ.out.written.size)) }) := by
  simp only [emit, write, Sink.write, h, if_neg hlt]

theorem extends_emit (σ : State) (t : String) : σ.Extends (σ.emit t).2 := by
  cases h : σ.out.limit with
  | none =>
    rw [emit_of_limit_none h]
    exact ⟨rfl, _, rfl⟩
  | some n =>
    by_cases hle : σ.out.written.size + t.toUTF8.size ≤ n
    · rw [emit_of_fits h hle]
      exact ⟨rfl, _, rfl⟩
    · rw [emit_of_full h hle]
      exact ⟨rfl, _, rfl⟩

end State

open State

/-! ### Outcomes with less room -/

/-- The outcome `p` is what becomes of `o` if there is room for `n` bytes only. -/
structure Truncated (n : Nat) (o p : Outcome) : Prop where
  fits : o.2.out.written.size ≤ n → p = (o.1, o.2.withLimit (some n))
  full : n < o.2.out.written.size →
    ∃ τ, p = (.fault (.output .full), τ) ∧ τ.out.written = o.2.out.written.extract 0 n

/-- The outcome of a run without a limit is truncated if there is one. -/
structure Truncates (n : Nat) (run : State → Outcome) : Prop where
  extend : ∀ σ : State, σ.Extends (run σ).2
  truncated : ∀ σ : State, σ.out.limit = none → σ.out.written.size ≤ n →
    Truncated n (run σ) (run (σ.withLimit (some n)))

variable {n : Nat} {σ : State} {o o' p : Outcome}

/-- Nothing becomes of an outcome that has room enough. -/
theorem truncated_of_le (h : σ.out.written.size ≤ n) (r : Ending Fault Flow) :
    Truncated n (r, σ) (r, σ.withLimit (some n)) where
  fits _ := rfl
  full hlt := absurd h (by simpa using hlt)

/-- A program that has stopped for want of room does not notice how it would have gone on. -/
theorem Truncated.of_extends (h : Truncated n o p) (hn : n < o.2.out.written.size)
    (ho' : o.2.Extends o'.2) : Truncated n o' p where
  fits hle := by
    have := ho'.size_le
    omega
  full _ := by
    obtain ⟨τ, hp, hw⟩ := h.full hn
    exact ⟨τ, hp, by rw [hw, ho'.extract_eq hn.le]⟩

/-- What writes nothing is truncated. -/
theorem truncates_silent (r : Ending Fault Flow) (f : State → State)
    (hout : ∀ σ, (f σ).out = σ.out)
    (hlimit : ∀ σ l, f (σ.withLimit l) = (f σ).withLimit l) :
    Truncates n fun σ => (r, f σ) where
  extend σ := .of_out_eq (hout σ)
  truncated σ _ hroom := by
    rw [hlimit]
    exact truncated_of_le (by rwa [hout]) r

theorem truncates_emit (t : String) : Truncates n fun σ => σ.emit t where
  extend σ := extends_emit σ t
  truncated σ hσ hroom := by
    rw [emit_of_limit_none hσ]
    constructor
    · intro hle
      rw [Sink.append, ByteArray.size_append] at hle
      exact emit_of_fits rfl hle
    · intro hlt
      rw [Sink.append, ByteArray.size_append] at hlt
      exact ⟨_, emit_of_full rfl (Nat.not_le.2 hlt), (extract_append_of_size_le hroom).symm⟩

theorem Truncates.withValue (e : Expr) {next : Value → State → Outcome}
    (hnext : ∀ v, Truncates n (next v)) : Truncates n (e.withValue next) where
  extend σ := by
    unfold Expr.withValue
    cases e.eval σ.vars with
    | error f => exact .of_out_eq rfl
    | ok v => exact (hnext v).extend σ
  truncated σ hσ hroom := by
    have hvars : (σ.withLimit (some n)).vars = σ.vars := rfl
    unfold Expr.withValue
    rw [hvars]
    cases e.eval σ.vars with
    | error f => exact truncated_of_le hroom _
    | ok v => exact (hnext v).truncated σ hσ hroom

theorem Truncates.andThen {first : State → Outcome} {next : Flow → State → Outcome}
    (hfirst : Truncates n first) (hnext : ∀ flow, Truncates n (next flow)) :
    Truncates n fun σ => (first σ).andThen next := by
  have hextend : ∀ o : Outcome, o.2.Extends (o.andThen next).2 := by
    rintro ⟨flow | f | _, τ⟩
    · exact (hnext flow).extend τ
    · exact .of_out_eq rfl
    · exact .of_out_eq rfl
  refine ⟨fun σ => (hfirst.extend σ).trans (hextend _), fun σ hσ hroom => ?_⟩
  have htrunc := hfirst.truncated σ hσ hroom
  have hlimit : (first σ).2.out.limit = none := (hfirst.extend σ).1.trans hσ
  by_cases hle : (first σ).2.out.written.size ≤ n
  · rw [htrunc.fits hle]
    generalize first σ = o at hlimit hle
    obtain ⟨flow | f | _, τ⟩ := o
    · exact (hnext flow).truncated τ hlimit hle
    · exact truncated_of_le hle _
    · exact truncated_of_le hle _
  · have hlt : n < (first σ).2.out.written.size := by omega
    -- the first part stops, and with it the whole
    have hstop : (first (σ.withLimit (some n))).andThen next = first (σ.withLimit (some n)) := by
      obtain ⟨τ, hp, -⟩ := htrunc.full hlt
      rw [hp]
      rfl
    rw [hstop]
    exact htrunc.of_extends hlt (hextend _)

/-- Every run is truncated where there is less room. -/
theorem truncates_stepwise : Stepwise (Truncates n) where
  stay r := truncates_silent r id (fun _ => rfl) fun _ _ => rfl
  finished k i := truncates_silent _ (·.note (.finished k i)) (fun _ => rfl) fun _ _ => rfl
  assign x v := truncates_silent _ (·.assign x v) (fun _ => rfl) fun _ _ => rfl
  emit := truncates_emit
  withValue e _ hnext := .withValue e hnext
  andThen _ _ hfirst hnext := hfirst.andThen hnext

/-- **A sink that is full cuts the output and stops the program.** Let a statement come to an end
where there is no limit on its output. With room for `n` bytes it ends in the same way if they are
enough, and else at the fault of the sink, with exactly `n` bytes of that output. -/
theorem ends_withRoom {s : Stmt} {σ τ : State} {r : Ending Fault Flow}
    (h : s.Ends (σ.withLimit none) r τ) (n : Nat) :
    ∃ output, τ.out.written = σ.out.written ++ output ∧
      (output.size ≤ n → s.Ends (σ.withRoom n) r (τ.withLimit (σ.withRoom n).out.limit)) ∧
      (n < output.size → ∃ ρ, s.Ends (σ.withRoom n) (.fault (.output .full)) ρ ∧
        ρ.out.written = σ.out.written ++ output.extract 0 n) := by
  obtain ⟨hr, m, hm⟩ := h
  have hrun : Truncates (σ.out.written.size + n) (s.exec m) := truncates_stepwise.exec m s
  obtain ⟨-, output, hw⟩ := hrun.extend (σ.withLimit none)
  have htrunc := hrun.truncated (σ.withLimit none) rfl (Nat.le_add_right _ _)
  rw [hm] at hw htrunc
  have hout : τ.out.written = σ.out.written ++ output := hw
  have hsize : τ.out.written.size = σ.out.written.size + output.size := by
    rw [hout, ByteArray.size_append]
  refine ⟨output, hout, fun hle => ?_, fun hlt => ?_⟩
  · have hfits : τ.out.written.size ≤ σ.out.written.size + n := by omega
    exact ⟨hr, m, htrunc.fits hfits⟩
  · have hmore : σ.out.written.size + n < τ.out.written.size := by omega
    obtain ⟨ρ, hρ, hcut⟩ := htrunc.full hmore
    refine ⟨ρ, ⟨by simp, m, hρ⟩, ?_⟩
    rw [hcut, hout, extract_append_of_size_le (Nat.le_add_right _ _), Nat.add_sub_cancel_left]

/-- Between a value and its newline, inside a loop, and in front of another fault. -/
theorem ends_withRoom_repeat_writeln :
    ∃ ρ, (Stmt.repeatUntil (.block [.write (.literal (.text "ab")) true, .write (.var "y") false])
        (.var "x")).Ends (State.withRoom {} 2) (.fault (.output .full)) ρ ∧
      ρ.out.written = "ab".toUTF8 := by
  have h : (Stmt.repeatUntil (.block [.write (.literal (.text "ab")) true,
      .write (.var "y") false]) (.var "x")).Ends (State.withLimit {} none) (.fault (.undefined "y"))
        { out := { written := "ab\n".toUTF8 } } :=
    ⟨by simp, 1, by rfl⟩
  obtain ⟨output, hout, -, hfull⟩ := ends_withRoom h 2
  obtain rfl : output = "ab\n".toUTF8 := by simpa using hout.symm
  exact hfull (by decide)

end BlockScript
