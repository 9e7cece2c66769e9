import BlockScript.Proofs.ParsedTrees
import BlockScript.Proofs.Payload

/-!
# Names and numbers in the tree of a program

A tree that comes from source text has names that are not reserved, and numbers that are zero or
positive. The numbers are finite if those in the source text are.

* `Lexeme.number?`: the number that a lexeme denotes; `isNonneg_of_number?`: it is not negative.
* `Expr.Writable`, `Stmt.Writable`: trees with such names and finite numbers.
* `FiniteNumbers`: the numbers in source text are finite; `writable_of_compile`: so are those in its
  tree.
-/

namespace BlockScript

open Piece Decimal Grammar

/-! ### Numbers -/

/-- The number that the lexeme denotes, if it is a number. -/
def Lexeme.number? : Lexeme → Option Float
  | .number ds => numberPayload? ds
  | .hex ds => hexPayload? ds
  | .word _ | .text _ | .keyword _ | .symbol _ | .connective _ | .eof => none

theorem isNonneg_zero : IsNonneg zero := by
  unfold IsNonneg
  decide

/-- Taking up digits keeps clear of the minus sign. -/
theorem isNonneg_hexInteger {sig : Float} (h : IsNonneg sig) (cs : List Char) :
    IsNonneg (hexInteger sig cs).1 := by
  have hsixteen : ∃ m e hm, sixteen.toModel.unpack = .finite .positive m e hm :=
    ⟨2 ^ 52, -48, by decide, rfl⟩
  induction cs generalizing sig with
  | nil => exact h
  | cons c cs ih =>
    rw [hexInteger]
    cases hexValue? c with
    | none => exact h
    | some d =>
      rw [Option.map_some]
      dsimp only
      split_ifs
      · exact toBits_infinity.le
      · exact ih ((h.mul hsixteen).add (Numeral.isNonneg_nearest _))

/-- No lexeme denotes a negative number. -/
theorem isNonneg_of_number? {l : Lexeme} (hl : l.WellFormed) {x : Float} (h : l.number? = some x) :
    IsNonneg x := by
  cases l with
  | number w =>
    rw [Lexeme.number?, numberPayload?_of_isNumber hl, Option.map_eq_some_iff] at h
    obtain ⟨n, -, rfl⟩ := h
    exact n.isNonneg_nearest
  | hex w =>
    by_cases hw : w = ""
    · subst hw
      rw [Lexeme.number?, hexPayload?_empty] at h
      cases h
    · rw [Lexeme.number?, hexPayload?_of_isHexDigit hl hw] at h
      cases h
      exact isNonneg_hexInteger isNonneg_zero _
  | _ => cases h

/-! ### Trees -/

/-- The word is not reserved. -/
def IsName (w : String) : Prop :=
  IsWord w.toList ∧ ∀ k : Keyword, k.spelling ≠ w

/-- The names are not reserved, and the numbers are finite and not negative. -/
def Expr.Writable : Expr → Prop
  | .literal (.text _) => True
  | .literal (.number x) => IsMagnitude x
  | .var w => IsName w
  | .signed _ x => x.Writable
  | .arith _ x y | .rel _ x y | .logic _ x y => x.Writable ∧ y.Writable

mutual

/-- The names are not reserved, and the numbers are finite and not negative. -/
def Stmt.Writable : Stmt → Prop
  | .assign x e => IsName x ∧ e.Writable
  | .write e _ => e.Writable
  | .ifThen c s | .whileDo c s => c.Writable ∧ s.Writable
  | .ifElse c s t => c.Writable ∧ s.Writable ∧ t.Writable
  | .repeatUntil s c => s.Writable ∧ c.Writable
  | .block ss => Stmt.AllWritable ss
  | .jump _ => True

/-- The same of all the statements. -/
def Stmt.AllWritable : List Stmt → Prop
  | [] => True
  | s :: ss => s.Writable ∧ Stmt.AllWritable ss

end

/-- The lexeme is well-formed and no number that is infinite. -/
def Lexeme.Finite (l : Lexeme) : Prop :=
  l.WellFormed ∧ l.number? ≠ some infinity

theorem Lexeme.Finite.isMagnitude {l : Lexeme} (hl : l.Finite) {x : Float}
    (h : l.number? = some x) : IsMagnitude x := by
  refine (isNonneg_of_number? hl.1 h).isMagnitude ?_
  rintro rfl
  exact hl.2 h

theorem Grammar.Operator.writable {n : Nat} {l : Lexeme} {f : Expr → Expr → Expr}
    (h : Operator n l f) {x y : Expr} (hx : x.Writable) (hy : y.Writable) : (f x y).Writable := by
  cases h <;> exact ⟨hx, hy⟩

theorem Grammar.DerivesExpr.writable {c : ExprClass} {u : List Lexeme} {e : Expr}
    {next : Option Lexeme} (h : DerivesExpr c u e next) (hu : ∀ l ∈ u, l.Finite) : e.Writable := by
  induction h with
  | @number ds x next h => exact (hu (.number ds) (by simp)).isMagnitude h
  | @hex ds x next hne h => exact (hu (.hex ds) (by simp)).isMagnitude h
  | @word w next => exact (hu (.word w) (by simp)).1
  | text => trivial
  | closed h ih => exact ih fun l hl => hu l (by simp [hl])
  | unclosed h hnext ih => exact ih fun l hl => hu l (by simp [hl])
  | bare h ih => exact ih hu
  | signed s h ih => exact ih fun l hl => hu l (by simp [hl])
  | first h ih => exact ih hu
  | further hn hx hop hy ihx ihy =>
    exact hop.writable (ihx fun l hl => hu l (by simp [hl])) (ihy fun l hl => hu l (by simp [hl]))
  | whole h hnext ih => exact ih hu
  | equality hn hx hop hy ihx ihy =>
    exact hop.writable (ihx fun l hl => hu l (by simp [hl])) (ihy fun l hl => hu l (by simp [hl]))

theorem Grammar.DerivesStmt.writable {c : StmtClass} {u : List Lexeme} {s : Stmt}
    {next : Option Lexeme} (h : DerivesStmt c u s next) (hu : ∀ l ∈ u, l.Finite) : s.Writable := by
  induction h with
  | @assign name u e next h =>
    exact ⟨(hu (.word name) (by simp)).1, h.writable fun l hl => hu l (by simp [hl])⟩
  | write h => exact h.writable fun l hl => hu l (by simp [hl])
  | jump => trivial
  | ifThen hc hs hnext ih =>
    exact ⟨hc.writable fun l hl => hu l (by simp [hl]), ih fun l hl => hu l (by simp [hl])⟩
  | ifElse hc hs ht ihs iht =>
    exact ⟨hc.writable fun l hl => hu l (by simp [hl]), ihs fun l hl => hu l (by simp [hl]),
      iht fun l hl => hu l (by simp [hl])⟩
  | whileDo hc hs ih =>
    exact ⟨hc.writable fun l hl => hu l (by simp [hl]), ih fun l hl => hu l (by simp [hl])⟩
  | repeatUntil hs hc ih =>
    exact ⟨ih fun l hl => hu l (by simp [hl]), hc.writable fun l hl => hu l (by simp [hl])⟩
  | single h ih => exact ih hu
  | block h ih => exact ih fun l hl => hu l (by simp [hl])
  | nil => trivial
  | cons hs hss ihs ihss =>
    exact ⟨ihs fun l hl => hu l (by simp [hl]), ihss fun l hl => hu l (by simp [hl])⟩

/-! ### Source text -/

/-- No number in the source text has an infinite value. -/
def FiniteNumbers (code : String) : Prop :=
  ∀ s, scan code = .ok s → ∀ t ∈ s.tokens, t.lexeme.number? ≠ some infinity

theorem scan_wellFormed {code : String} {s : Scanned} (h : scan code = .ok s) :
    ∀ t ∈ s.tokens, t.lexeme.WellFormed := by
  unfold scan at h
  obtain ⟨ts, hcut, rfl⟩ := scanFrom_eq_ok_iff.1 h
  exact hcut.wellFormed

/-- The tree of a program with finite numbers is writable, and its blocks and branches stand where
they can be written. -/
theorem writable_of_compile {code : String} {p : Stmt} (h : compile code = .ok p)
    (hfinite : FiniteNumbers code) : p.Writable ∧ p.isPlaced true = true := by
  unfold compile at h
  cases hscan : scan code with
  | error e => simp [hscan] at h
  | ok s =>
    rw [hscan] at h
    cases hparse : parse s.tokens with
    | error e => simp [hparse] at h
    | ok q =>
      obtain rfl : q = p := by simpa [hparse] using h
      obtain ⟨ss, hread, rfl⟩ := parse_eq_ok_iff.1 hparse
      have hderives := readProgram_sound hread
      have htokens : ∀ l ∈ s.tokens.map Token.lexeme, l.Finite := by
        intro l hl
        obtain ⟨t, ht, rfl⟩ := List.mem_map.1 hl
        exact ⟨scan_wellFormed hscan t ht, hfinite s hscan t ht⟩
      exact ⟨hderives.writable htokens, hderives.wellPlaced⟩

end BlockScript
