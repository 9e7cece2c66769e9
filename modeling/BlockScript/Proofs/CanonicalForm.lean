import BlockScript.Proofs.Canonical
import BlockScript.Proofs.Equivalence

/-!
# Writing down any tree

Blocks carry no variables of their own, so every tree does what some tree does that can be written
down.

* `Stmt.tidy`: puts the statements of a block that stands directly in a block there, and a branch
  that would take the `else` behind it in a block of its own.
* `Stmt.canonicalForm`: the same of a whole program.
* `Stmt.isPlaced_tidy`: blocks and `else` branches stand where they can be written.
* `Stmt.exec_tidy`: the statement does what it did.
* `canonicalForm_equivalent`: both for whole programs.
-/

namespace BlockScript.Stmt

/-- The statements that a statement makes up inside of a block. -/
def spliced : Stmt → List Stmt
  | .block ss => ss
  | s => [s]

/-- The statement, in a block of its own if an `else` behind it would become part of it. -/
def closed (s : Stmt) : Stmt :=
  if s.isOpen then .block [s] else s

mutual

/-- The statement with blocks inside of it only where they can be written, and with a block around
each open branch in front of an `else`. -/
def tidy : Stmt → Stmt
  | .assign x e => .assign x e
  | .write e newline => .write e newline
  | .ifThen c s => .ifThen c s.tidy
  | .ifElse c s t => .ifElse c s.tidy.closed t.tidy
  | .whileDo c s => .whileDo c s.tidy
  | .repeatUntil s c => .repeatUntil s.tidy c
  | .block ss => .block (tidyAll ss)
  | .jump j => .jump j

/-- The statements like that, with those of a block in place of the block. -/
def tidyAll : List Stmt → List Stmt
  | [] => []
  | s :: ss => s.tidy.spliced ++ tidyAll ss

end

/-- The statement as a whole program that can be written down. -/
def canonicalForm (s : Stmt) : Stmt :=
  .block s.tidy.spliced

/-! ### Where blocks stand -/

theorem allPlaced_append (ss ts : List Stmt) :
    allPlaced (ss ++ ts) = (allPlaced ss && allPlaced ts) := by
  induction ss with
  | nil => rfl
  | cons s ss ih => rw [List.cons_append, allPlaced, allPlaced, ih, Bool.and_assoc]

theorem allPlaced_spliced {s : Stmt} (h : s.isPlaced true = true) :
    allPlaced s.spliced = true := by
  cases s with
  | assign | write | jump => rfl
  | ifThen | ifElse | whileDo | repeatUntil => simpa [spliced, allPlaced, isPlaced] using h
  | block ss =>
    rw [isPlaced, Bool.true_and] at h
    exact h

theorem isPlaced_closed {s : Stmt} (h : s.isPlaced true = true) :
    s.closed.isOpen = false ∧ s.closed.isPlaced true = true := by
  unfold closed
  split_ifs with hopen
  · have hsingle : s.spliced = [s] := by
      cases s with
      | block ss => cases hopen
      | _ => rfl
    have hplaced := allPlaced_spliced h
    rw [hsingle] at hplaced
    exact ⟨rfl, hplaced⟩
  · exact ⟨by simpa using hopen, h⟩

/-- Blocks and `else` branches stand where they can be written. -/
theorem isPlaced_tidy (s : Stmt) : s.tidy.isPlaced true = true := by
  induction s with
  | assign | write | jump => rfl
  | ifThen c s ih => simpa [tidy, isPlaced] using ih
  | ifElse c s t ihs iht =>
    obtain ⟨hopen, hplaced⟩ := isPlaced_closed ihs
    simp [tidy, isPlaced, hopen, hplaced, iht]
  | whileDo c s ih => simpa [tidy, isPlaced] using ih
  | repeatUntil s c ih => simpa [tidy, isPlaced] using ih
  | block ss ih =>
    -- in place of a block stand the statements in it, and none of them is a block any more
    rw [tidy, isPlaced, Bool.true_and]
    induction ss with
    | nil => rfl
    | cons s ss ihs =>
      rw [tidyAll, allPlaced_append, allPlaced_spliced (ih s (by simp)),
        ihs fun t ht => ih t (by simp [ht])]
      rfl

/-! ### What a statement does -/

theorem execAll_singleton (n : Nat) (s : Stmt) : execAll n [s] = s.exec n := by
  funext σ
  rw [execAll_cons]
  obtain ⟨r, τ⟩ := s.exec n σ
  rcases r with (_ | j) | f | _ <;> simp

theorem execAll_spliced (n : Nat) (s : Stmt) : execAll n s.spliced = s.exec n := by
  cases s with
  | block ss => exact funext fun σ => (exec_block n ss σ).symm
  | _ => exact execAll_singleton n _

theorem exec_closed (n : Nat) (s : Stmt) : s.closed.exec n = s.exec n := by
  unfold closed
  split_ifs
  · exact (funext fun σ => exec_block n [s] σ).trans (execAll_singleton n s)
  · rfl

theorem execAll_tidyAll {n : Nat} {ss : List Stmt} (h : ∀ s ∈ ss, s.tidy.exec n = s.exec n) :
    execAll n (tidyAll ss) = execAll n ss := by
  induction ss with
  | nil => rfl
  | cons s ss ih =>
    funext σ
    rw [tidyAll, execAll_append, execAll_spliced, h s (by simp), execAll_cons,
      ih fun t ht => h t (by simp [ht])]

/-- The statement does what it did, whatever number of rounds its loops are allowed. -/
theorem exec_tidy (n : Nat) (s : Stmt) : s.tidy.exec n = s.exec n := by
  induction s with
  | assign | write | jump => rfl
  | ifThen c s ih => rw [tidy, exec_ifThen, exec_ifThen, exec_ifElse, exec_ifElse, ih]
  | ifElse c s t ihs iht => rw [tidy, exec_ifElse, exec_ifElse, exec_closed, ihs, iht]
  | whileDo c s ih =>
    funext σ
    rw [tidy, exec, exec, ih]
  | repeatUntil s c ih =>
    funext σ
    rw [tidy, exec, exec, ih]
  | block ss ih =>
    funext σ
    rw [tidy, exec_block, exec_block, execAll_tidyAll ih]

end Stmt

/-- **Every tree does what some tree does that can be written down.** -/
theorem canonicalForm_equivalent (s : Stmt) :
    s.canonicalForm.isCanonical = true ∧ s.Equivalent s.canonicalForm := by
  constructor
  · exact Stmt.allPlaced_spliced s.isPlaced_tidy
  · refine Stmt.equivalent_of_exec_eq fun n => funext fun σ => ?_
    rw [Stmt.canonicalForm, Stmt.exec_block, Stmt.execAll_spliced, Stmt.exec_tidy]

end BlockScript
