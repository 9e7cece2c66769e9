import BlockScript.Proofs.Canonical
import BlockScript.Proofs.Recognition

/-!
# The trees of parsed programs

What is known of the tree of a program before its tokens are looked at.

* `isProgram_cons_iff`: a program is a statement and the program behind it.
* `isProgram_append_iff`: a program can be cut between any two of its statements.
* `parse_append_iff`: programs one behind the other are one program, cut where it can be cut.
* `DerivesStmt.wellPlaced`: a phrase in front of `else` is not open, and its blocks are in place.
* `isCanonical_of_parse`: the parser makes canonical trees only.
-/

namespace BlockScript.Grammar

/-! ### Where one statement ends -/

theorem isProgram_nil_iff {u : List Lexeme} : IsProgram u (.block []) ↔ u = [] := by
  constructor
  · intro h
    unfold IsProgram at h
    cases h
    rfl
  · rintro rfl
    exact .nil

theorem IsProgram.endsStmt_head {u : List Lexeme} {p : Stmt} (h : IsProgram u p) :
    EndsStmt u.head? := by
  simpa using DerivesStmt.endsStmt_head h endsStmt_none

/-- A program is a statement, which could end the program, and the program behind it. -/
theorem isProgram_cons_iff {u : List Lexeme} {s : Stmt} {ss : List Stmt} :
    IsProgram u (.block (s :: ss)) ↔
      ∃ v w, u = v ++ w ∧ DerivesStmt .statement v s none ∧ IsProgram w (.block ss) := by
  constructor
  · intro h
    unfold IsProgram at h
    cases h with
    | cons hs hss => exact ⟨_, _, rfl, hs.endsStmt endsStmt_none, hss⟩
  · rintro ⟨v, w, rfl, hs, hss⟩
    -- no program starts with what continues a statement
    refine .cons (hs.endsStmt ?_) hss
    simpa using hss.endsStmt_head

/-- A program can be cut between any two of its statements. -/
theorem isProgram_append_iff {u : List Lexeme} {ss ts : List Stmt} :
    IsProgram u (.block (ss ++ ts)) ↔
      ∃ v w, u = v ++ w ∧ IsProgram v (.block ss) ∧ IsProgram w (.block ts) := by
  constructor
  · intro h
    induction ss generalizing u with
    | nil => exact ⟨[], u, rfl, isProgram_nil_iff.2 rfl, h⟩
    | cons s ss ih =>
      obtain ⟨x, y, rfl, hx, hy⟩ := isProgram_cons_iff.1 h
      obtain ⟨v, w, rfl, hv, hw⟩ := ih hy
      exact ⟨x ++ v, w, by simp, isProgram_cons_iff.2 ⟨x, v, rfl, hx, hv⟩, hw⟩
  · rintro ⟨v, w, rfl, hv, hw⟩
    exact DerivesStmt.sequence_append hv hw endsStmt_none

/-- The statement in front of a program is read up to where the program starts. -/
theorem readStatement_in_front {us ts : List Token} {s p : Stmt}
    (hs : DerivesStmt .statement (us.map Token.lexeme) s none)
    (hp : IsProgram (ts.map Token.lexeme) p) :
    plain (readStatement (us ++ ts)) = .ok (s, ts) := by
  have hnext : EndsStmt (nextLexeme ts) := by simpa [nextLexeme] using hp.endsStmt_head
  exact (hs.endsStmt hnext).reads rfl rfl

/-- The tokens tell where the statements of the first of two programs end. -/
theorem eq_of_append_eq_append {us vs us' vs' : List Token} {ss : List Stmt} {p p' : Stmt}
    (hu : IsProgram (us.map Token.lexeme) (.block ss)) (hv : IsProgram (vs.map Token.lexeme) p)
    (hu' : IsProgram (us'.map Token.lexeme) (.block ss)) (hv' : IsProgram (vs'.map Token.lexeme) p')
    (h : us ++ vs = us' ++ vs') : us = us' := by
  obtain ⟨ts, rfl⟩ := hv.exists_eq_block
  obtain ⟨ts', rfl⟩ := hv'.exists_eq_block
  induction ss generalizing us us' with
  | nil =>
    rw [isProgram_nil_iff, List.map_eq_nil_iff] at hu hu'
    rw [hu, hu']
  | cons s ss ih =>
    obtain ⟨a, b, hab, ha, hb⟩ := isProgram_cons_iff.1 hu
    obtain ⟨a', b', hab', ha', hb'⟩ := isProgram_cons_iff.1 hu'
    obtain ⟨xs, ys, rfl, rfl, rfl⟩ := List.map_eq_append_iff.1 hab
    obtain ⟨xs', ys', rfl, rfl, rfl⟩ := List.map_eq_append_iff.1 hab'
    rw [List.append_assoc, List.append_assoc] at h
    have hread : plain (readStatement (xs ++ (ys ++ vs))) = .ok (s, ys ++ vs) :=
      readStatement_in_front ha (by simpa using isProgram_append_iff.2 ⟨_, _, rfl, hb, hv⟩)
    have hread' : plain (readStatement (xs' ++ (ys' ++ vs'))) = .ok (s, ys' ++ vs') :=
      readStatement_in_front ha' (by simpa using isProgram_append_iff.2 ⟨_, _, rfl, hb', hv'⟩)
    -- both programs start with the same statement, so the same tokens are left behind it
    have hrest : ys ++ vs = ys' ++ vs' := by
      rw [h, hread'] at hread
      simpa [eq_comm] using hread
    obtain rfl := ih hb hb' hrest
    rw [hrest] at h
    rw [List.append_cancel_right h]

/-! ### Which `if` an `else` belongs to -/

/-- The statement can be written in front of `next`, as a block only if `branch`. -/
structure Fits (branch : Bool) (s : Stmt) (next : Option Lexeme) : Prop where
  placed : s.isPlaced branch = true
  closed : next = some (.keyword .elseKw) → s.isOpen = false

/-- The tree of a phrase has the shape of its class. -/
def WellPlaced : StmtClass → Stmt → Option Lexeme → Prop
  | .statement => Fits false
  | .branch => Fits true
  | .sequence => fun s _ => s.isCanonical = true

theorem Fits.branch {s : Stmt} {next : Option Lexeme} (h : Fits false s next) :
    Fits true s next := by
  refine ⟨?_, h.closed⟩
  have hplaced := h.placed
  cases s <;> simp_all [Stmt.isPlaced]

/-- The tree that is derived from lexemes has the shape of its class. In front of `else` it is not
open, as each `if` in it that could take the `else` would have taken it. -/
theorem DerivesStmt.wellPlaced {c : StmtClass} {u : List Lexeme} {s : Stmt} {next : Option Lexeme}
    (h : DerivesStmt c u s next) : WellPlaced c s next := by
  induction h with
  | assign h => exact ⟨rfl, fun _ => rfl⟩
  | write h => exact ⟨rfl, fun _ => rfl⟩
  | jump => exact ⟨rfl, fun _ => rfl⟩
  | ifThen hc hs hnext ih => exact ⟨ih.placed, fun h => absurd h hnext⟩
  | ifElse hc hs ht ihs iht =>
    refine ⟨?_, iht.closed⟩
    simp [Stmt.isPlaced, ihs.closed rfl, ihs.placed, iht.placed]
  | whileDo hc hs ih => exact ⟨ih.placed, ih.closed⟩
  | repeatUntil hs hc ih => exact ⟨ih.placed, fun _ => rfl⟩
  | single hs ih => exact ih.branch
  | block hb ih =>
    obtain ⟨ss, rfl, hss⟩ := Stmt.exists_eq_block_of_isCanonical ih
    exact ⟨hss, fun _ => rfl⟩
  | nil => rfl
  | cons hs hss ihs ihss =>
    simp only [WellPlaced, Stmt.isCanonical, Stmt.allPlaced, Bool.and_eq_true]
    exact ⟨ihs.placed, ihss⟩

end BlockScript.Grammar

namespace BlockScript

open Grammar

theorem parse_block_iff {ts : List Token} {ss : List Stmt} :
    parse ts = .ok (.block ss) ↔ IsProgram (ts.map Token.lexeme) (.block ss) := by
  simp [parse_eq_ok_iff, readProgram_eq_ok_iff]

/-- **No separator is needed between statements.** Two programs one behind the other are a program
with the statements of both, a program can be cut in two between any two of its statements, and
there is one place to cut. -/
theorem parse_append_iff (ts : List Token) (ss ss' : List Stmt) :
    (parse ts = .ok (.block (ss ++ ss')) ↔
      ∃ us vs, ts = us ++ vs ∧ parse us = .ok (.block ss) ∧ parse vs = .ok (.block ss')) ∧
    ∀ us vs us' vs', ts = us ++ vs → parse us = .ok (.block ss) → parse vs = .ok (.block ss') →
      ts = us' ++ vs' → parse us' = .ok (.block ss) → parse vs' = .ok (.block ss') →
        us = us' ∧ vs = vs' := by
  simp only [parse_block_iff]
  constructor
  · rw [isProgram_append_iff]
    constructor
    · rintro ⟨v, w, hts, hv, hw⟩
      obtain ⟨us, vs, rfl, rfl, rfl⟩ := List.map_eq_append_iff.1 hts
      exact ⟨us, vs, rfl, hv, hw⟩
    · rintro ⟨us, vs, rfl, hu, hv⟩
      exact ⟨_, _, List.map_append, hu, hv⟩
  · rintro us vs us' vs' rfl hu hv h hu' hv'
    obtain rfl := eq_of_append_eq_append hu hv hu' hv' h
    exact ⟨rfl, List.append_cancel_left h⟩

/-- Neither a parenthesis that is left open nor an `if` without `else` takes up the statement behind
it. -/
theorem parse_open_append_if :
    parse ([⟨.keyword .ifKw, 1⟩, ⟨.word "x", 1⟩, ⟨.keyword .thenKw, 1⟩, ⟨.word "x", 1⟩,
          ⟨.symbol .assign, 1⟩, ⟨.symbol .leftParen, 1⟩, ⟨.word "y", 1⟩] ++
        [⟨.keyword .ifKw, 1⟩, ⟨.word "y", 1⟩, ⟨.keyword .thenKw, 1⟩, ⟨.keyword .breakKw, 1⟩,
          ⟨.keyword .elseKw, 1⟩, ⟨.keyword .continueKw, 1⟩]) =
      .ok (.block ([.ifThen (.var "x") (.assign "x" (.var "y"))] ++
        [.ifElse (.var "y") (.jump .leave) (.jump .next)])) :=
  (parse_append_iff _ _ _).1.2 ⟨_, _, rfl, by cbv, by cbv⟩

/-- **The parser makes canonical trees only.** So an `else` belongs to the nearest `if` that can
take it. -/
theorem isCanonical_of_parse {ts : List Token} {p : Stmt} (h : parse ts = .ok p) :
    p.isCanonical = true := by
  obtain ⟨ss, hr, rfl⟩ := parse_eq_ok_iff.1 h
  exact (readProgram_sound hr).wellPlaced

/-- The `else` belongs to the second `if`, and a block may stand behind it. -/
theorem isCanonical_if_while_if_else :
    ∃ p, p = .block [.ifThen (.var "x") (.whileDo (.var "x")
        (.ifElse (.var "y") (.jump .leave) (.block [.jump .next])))] ∧
      parse [⟨.keyword .ifKw, 1⟩, ⟨.word "x", 1⟩, ⟨.keyword .thenKw, 1⟩, ⟨.keyword .whileKw, 1⟩,
        ⟨.word "x", 1⟩, ⟨.keyword .doKw, 1⟩, ⟨.keyword .ifKw, 1⟩, ⟨.word "y", 1⟩,
        ⟨.keyword .thenKw, 1⟩, ⟨.keyword .breakKw, 1⟩, ⟨.keyword .elseKw, 1⟩,
        ⟨.keyword .beginKw, 1⟩, ⟨.keyword .continueKw, 1⟩, ⟨.keyword .endKw, 1⟩] = .ok p ∧
      p.isCanonical = true := by
  refine ⟨_, rfl, ?parse, isCanonical_of_parse ?parse⟩
  cbv

end BlockScript
