import BlockScript.Proofs.Cursor
import BlockScript.Proofs.Readers
import Mathlib.Data.List.GetD
import Mathlib.Tactic

/-!
# The cursor moves forward and stays within the tokens

Whatever a parser with a cursor finds, it has stepped over a token for it, so its loops end; and it
steps only over tokens that are there, except when it fails for want of an expression.

* `tokenAt`: the token under the cursor; `drop_eq_nil_or`: it is the first of those left to a
  reader.
* `Agrees`: what becomes of a parser is what a reader makes of the tokens, with the bounds on the
  cursor and on the fuel; `Agrees.bind`, `Agrees.map`: so it is for parsers one after another.
* `Tracks`: a parser agrees with a reader wherever the cursor stands.
* `primaryWalk_tracks`, `chainWalk_tracks`, `bodyWalk_tracks`, …: each parser tracks its reader if
  those it calls do with less fuel; `exprWalks_track`, `stmtWalks_track`: all of them do.
* `parser_advances`: what this means for the cursor.
-/

namespace BlockScript.Cursor

open Grammar Walk

variable {α β : Type} {ts : List Token} {fuel i j n lo lo' top top' : ℕ}

/-! ### The token under the cursor -/

/-- The token at a position, or the end of input. -/
def tokenAt (ts : List Token) (i : ℕ) : Token :=
  ts.getD i (endToken ts)

theorem lt_length_of_lexeme_ne (h : (tokenAt ts i).lexeme ≠ .eof) : i < ts.length := by
  by_contra hle
  refine h ?_
  rw [tokenAt, List.getD_eq_default _ _ (not_lt.1 hle)]
  rfl

theorem lt_length_of_some {op? : Lexeme → Option β} (hop : op? .eof = none) {op : β}
    (h : op? (tokenAt ts i).lexeme = some op) : i < ts.length := by
  refine lt_length_of_lexeme_ne fun heof => ?_
  rw [heof, hop] at h
  cases h

theorem drop_eq_cons (h : i < ts.length) : ts.drop i = tokenAt ts i :: ts.drop (i + 1) := by
  rw [tokenAt, List.getD_eq_getElem _ _ h, List.drop_eq_getElem_cons h]

theorem tokenAt_eq_of_drop {t : Token} {r : List Token} (h : ts.drop i = t :: r) :
    tokenAt ts i = t := by
  have hlt : i < ts.length := by
    by_contra hle
    rw [List.drop_eq_nil_of_le (not_lt.1 hle)] at h
    cases h
  rw [drop_eq_cons hlt] at h
  exact (List.cons.inj h).1

theorem drop_eq_nil_or (ts : List Token) (i : ℕ) :
    (ts.drop i = [] ∧ tokenAt ts i = endToken ts) ∨
      i < ts.length ∧ ts.drop i = tokenAt ts i :: ts.drop (i + 1) := by
  obtain hlt | hle := lt_or_ge i ts.length
  · exact .inr ⟨hlt, drop_eq_cons hlt⟩
  · exact .inl ⟨List.drop_eq_nil_of_le hle, List.getD_eq_default _ _ hle⟩

/-- A stop in front of the tokens from a position on blames the token there. -/
theorem toError_drop (f : ParseFault) (ts : List Token) (i : ℕ) :
    (Stop.mk f (ts.drop i)).toError ts = ⟨f, tokenAt ts i⟩ := by
  obtain ⟨hnil, hat⟩ | ⟨-, hcons⟩ := drop_eq_nil_or ts i
  · rw [hnil, hat]
    rfl
  · rw [hcons]
    rfl

/-! ### Looking and moving -/

theorem bind_apply (m : Walk α) (k : α → Walk β) (i : ℕ) :
    (m >>= k) i = match m i with
      | .done v j => k v j
      | .failed e j => .failed e j
      | .outside => .outside
      | .running => .running := rfl

theorem bind_of_done {m : Walk α} {v : α} (h : m i = .done v j) (k : α → Walk β) :
    (m >>= k) i = k v j := by
  rw [bind_apply, h]

theorem check_apply (ts : List Token) (l : Lexeme) (i : ℕ) :
    check ts l i = .done (decide ((tokenAt ts i).lexeme = l)) i := rfl

theorem hasNext_apply (ts : List Token) (i : ℕ) :
    hasNext ts i = .done (decide (i < ts.length)) i := rfl

theorem matchNext_cases (ts : List Token) (l : Lexeme) (i : ℕ) :
    ((tokenAt ts i).lexeme = l ∧ matchNext ts l i = .done true (i + 1)) ∨
      (tokenAt ts i).lexeme ≠ l ∧ matchNext ts l i = .done false i := by
  rw [matchNext, bind_of_done (check_apply ts l i)]
  by_cases h : (tokenAt ts i).lexeme = l
  · rw [decide_eq_true h]
    exact .inl ⟨h, rfl⟩
  · rw [decide_eq_false h]
    exact .inr ⟨h, rfl⟩

theorem matchOp_of_some {op? : Lexeme → Option β} {op : β}
    (h : op? (tokenAt ts i).lexeme = some op) : matchOp ts op? i = .done (some op) (i + 1) := by
  rw [matchOp, bind_of_done (show peekAt ts 0 i = .done (tokenAt ts i) i from rfl), h]
  rfl

theorem matchOp_of_none {op? : Lexeme → Option β} (h : op? (tokenAt ts i).lexeme = none) :
    matchOp ts op? i = .done none i := by
  rw [matchOp, bind_of_done (show peekAt ts 0 i = .done (tokenAt ts i) i from rfl), h]
  rfl

theorem previous_succ (h : i < ts.length) : previous ts (i + 1) = .done (tokenAt ts i) (i + 1) := by
  rw [previous, dif_pos ⟨Nat.succ_pos i, h⟩, tokenAt, List.getD_eq_getElem _ _ h]
  rfl

theorem consume_of_eq {l : Lexeme} (h : (tokenAt ts i).lexeme = l) (hl : l ≠ .eof) :
    consume ts l i = .done (tokenAt ts i) (i + 1) := by
  rw [consume, bind_of_done (check_apply ts l i), decide_eq_true h]
  exact previous_succ (lt_length_of_lexeme_ne (h ▸ hl))

theorem consume_of_ne {l : Lexeme} (h : (tokenAt ts i).lexeme ≠ l) :
    consume ts l i = .failed ⟨.expected l, tokenAt ts i⟩ i := by
  rw [consume, bind_of_done (check_apply ts l i), decide_eq_false h]
  rfl

/-! ### Following a reader -/

/-- What becomes of a parser is what a reader makes of the tokens. A value leaves the cursor at `lo`
or behind it, but on no place behind the tokens; an error leaves it at most one place behind `top`.
The parser is still running only if it did not get enough fuel. It never asks for a token that is
not there. -/
inductive Agrees (ts : List Token) (lo top : ℕ) (enough : Prop) :
    Except Stop (α × List Token) → Outcome α → Prop
  | done (v : α) {j : ℕ} (hlo : lo ≤ j) (hj : j ≤ ts.length) :
    Agrees ts lo top enough (.ok (v, ts.drop j)) (.done v j)
  | failed (s : Stop) {j : ℕ} (hj : j ≤ top + 1) :
    Agrees ts lo top enough (.error s) (.failed (s.toError ts) j)
  | running (x : Except Stop (α × List Token)) (h : ¬ enough) :
    Agrees ts lo top enough x .running

/-- The parser agrees with a reader of the tokens from the cursor on, wherever this stands. It takes
at least one token. The fuel is enough if it is ten times the tokens left and `cost` more. -/
def Tracks (ts : List Token) (fuel cost : ℕ) (read : (us : List Token) → Reading α us)
    (m : Walk α) : Prop :=
  ∀ i, Agrees ts (i + 1) (max i ts.length) (10 * (ts.length - i) + cost ≤ fuel)
    (plain (read (ts.drop i))) (m i)

section Agrees

variable {enough enough' : Prop} {x : Except Stop (α × List Token)} {o : Outcome α} {m : Walk α}

theorem Agrees.mono (h : Agrees ts lo top enough x o) (hlo : lo' ≤ lo) (htop : top ≤ top')
    (henough : enough' → enough) : Agrees ts lo' top' enough' x o := by
  cases h with
  | done v h hj => exact .done v (hlo.trans h) hj
  | failed s hj => exact .failed s (by omega)
  | running x h => exact .running x fun h' => h (henough h')

theorem Agrees.bind {k : α → Walk β} {f : α × List Token → Except Stop (β × List Token)}
    (h : Agrees ts lo top enough x (m i)) (htop : ts.length ≤ top)
    (hk : ∀ v j, lo ≤ j → j ≤ ts.length →
      Agrees ts lo' ts.length enough (f (v, ts.drop j)) (k v j)) :
    Agrees ts lo' top enough (x.bind f) ((m >>= k) i) := by
  rw [bind_apply]
  generalize m i = o at h
  cases h with
  | done v hlo hj => exact (hk v _ hlo hj).mono le_rfl htop id
  | failed s hj => exact .failed s hj
  | running x h => exact .running _ h

theorem Agrees.map {g : α → β} (h : Agrees ts lo top enough x (m i)) :
    Agrees ts lo top enough (x.map fun p => (g p.1, p.2))
      ((m >>= fun v => (pure (g v) : Walk β)) i) := by
  rw [bind_apply]
  generalize m i = o at h
  cases h with
  | done v hlo hj => exact .done (g v) hlo hj
  | failed s hj => exact .failed s hj
  | running x h => exact .running _ h

/-- An error at the cursor. -/
theorem agrees_fail (f : ParseFault) (hj : i ≤ top + 1) :
    Agrees ts lo top enough (.error ⟨f, ts.drop j⟩ : Except Stop (α × List Token))
      (.failed ⟨f, tokenAt ts j⟩ i) := by
  rw [← toError_drop]
  exact .failed _ hj

theorem nextLexeme_drop_ne {l : Lexeme} (h : (tokenAt ts i).lexeme ≠ l) :
    nextLexeme (ts.drop i) ≠ some l := by
  obtain ⟨hnil, -⟩ | ⟨-, hcons⟩ := drop_eq_nil_or ts i
  · simp [hnil]
  · simpa [hcons] using h

theorem nextIs_drop {l : Lexeme} (hl : l ≠ .eof) (ts : List Token) (i : ℕ) :
    nextIs l (ts.drop i) = decide ((tokenAt ts i).lexeme = l) := by
  obtain ⟨hnil, hat⟩ | ⟨-, hcons⟩ := drop_eq_nil_or ts i
  · have hne : (endToken ts).lexeme ≠ l := hl.symm
    rw [hnil, hat, decide_eq_false hne]
    rfl
  · rw [hcons]
    rfl

theorem plain_take_of_ne {l : Lexeme} (h : (tokenAt ts i).lexeme ≠ l) :
    plain (take l (ts.drop i)) = .error ⟨.expected l, ts.drop i⟩ :=
  plain_take_eq_error_iff.2 ⟨nextLexeme_drop_ne h, rfl⟩

theorem plain_take_of_eq {l : Lexeme} (h : (tokenAt ts i).lexeme = l) (hi : i < ts.length) :
    plain (take l (ts.drop i)) = .ok ((), ts.drop (i + 1)) :=
  plain_take_eq_ok_iff.2 ⟨_, drop_eq_cons hi, h⟩

/-- Stepping over a lexeme is taking it. -/
theorem agrees_consume {l : Lexeme} (hl : l ≠ .eof) {k : Token → Walk β}
    {f : Unit × List Token → Except Stop (β × List Token)} (hi : i ≤ top + 1)
    (htop : ts.length ≤ top)
    (hk : i < ts.length →
      Agrees ts lo ts.length enough (f ((), ts.drop (i + 1))) (k (tokenAt ts i) (i + 1))) :
    Agrees ts lo top enough ((plain (take l (ts.drop i))).bind f) ((consume ts l >>= k) i) := by
  by_cases h : (tokenAt ts i).lexeme = l
  · have hlt : i < ts.length := lt_length_of_lexeme_ne (h ▸ hl)
    rw [bind_of_done (consume_of_eq h hl), plain_take_of_eq h hlt]
    exact (hk hlt).mono le_rfl htop id
  · rw [bind_apply, consume_of_ne h, plain_take_of_ne h]
    exact agrees_fail _ hi

/-- A lexeme that comes next is stepped over, or else something else is done. -/
theorem agrees_matchNext {l : Lexeme} {m' : Walk α}
    (hm : (tokenAt ts i).lexeme = l → Agrees ts lo top enough x (m (i + 1)))
    (hm' : (tokenAt ts i).lexeme ≠ l → Agrees ts lo top enough x (m' i)) :
    Agrees ts lo top enough x
      ((matchNext ts l >>= fun b => if b = true then m else m') i) := by
  obtain ⟨h, hmatch⟩ | ⟨h, hmatch⟩ := matchNext_cases ts l i
  · rw [bind_of_done hmatch, if_pos rfl]
    exact hm h
  · rw [bind_of_done hmatch, if_neg Bool.false_ne_true]
    exact hm' h

end Agrees

/-! ### Expressions -/

/-- Behind an expression in parentheses the closing one may be missing. -/
theorem agrees_skipRightParen {enough : Prop} (x : α) (hlo : lo ≤ i) (hi : i ≤ ts.length) :
    Agrees ts lo top enough (.ok (x, skipRightParen (ts.drop i)))
      ((matchNext ts (.symbol .rightParen) >>= fun _ => (pure x : Walk α)) i) := by
  obtain ⟨h, hmatch⟩ | ⟨h, hmatch⟩ := matchNext_cases ts (.symbol .rightParen) i
  · have hlt : i < ts.length := lt_length_of_lexeme_ne (h ▸ by simp)
    rw [bind_of_done hmatch, drop_eq_cons hlt, skipRightParen, if_pos h]
    exact .done x (by omega) hlt
  · have hskip : skipRightParen (ts.drop i) = ts.drop i := by
      obtain ⟨hnil, -⟩ | ⟨-, hcons⟩ := drop_eq_nil_or ts i
      · rw [hnil]
        rfl
      · rw [hcons, skipRightParen, if_neg h]
    rw [bind_of_done hmatch, hskip]
    exact .done x hlo hi

theorem primaryWalk_tracks
    (hrank : Tracks ts fuel 9 (readRank topRank) (rankWalk ts fuel topRank)) :
    Tracks ts (fuel + 1) 1 readPrimary (primaryWalk ts (fuel + 1)) := by
  intro i
  have hadvance : advance ts i = .done (tokenAt ts i) (i + 1) := rfl
  rw [primaryWalk, bind_of_done hadvance]
  obtain ⟨hnil, hat⟩ | ⟨hlt, hcons⟩ := drop_eq_nil_or ts i
  · have heof : (tokenAt ts i).lexeme = .eof := by
      rw [hat]
      rfl
    rw [hnil, plain_readPrimary_nil, ← hnil, heof, if_neg (by simp)]
    exact agrees_fail .unknownExpression (by omega)
  · rw [hcons]
    split_ifs with hparen
    · rw [plain_readPrimary_paren hparen]
      refine ((hrank (i + 1)).mono le_rfl ?_ ?_).bind (le_max_right ..) fun x j hlo hj =>
        agrees_skipRightParen x ?_ hj
      · omega
      · omega
      · omega
    · rw [plain_readPrimary_atom hparen, ← hcons]
      cases atom (tokenAt ts i).lexeme with
      | error f => exact agrees_fail f (by omega)
      | ok e => exact .done e le_rfl hlt

theorem binary?_eof (n : ℕ) : binary? n .eof = none := by
  unfold binary?
  split <;> simp_all

theorem signedWalk_tracks
    (hprimary : Tracks ts fuel 1 readPrimary (primaryWalk ts fuel)) :
    Tracks ts (fuel + 1) 3 (readRank 0) (rankWalk ts (fuel + 1) 0) := by
  intro i
  rw [rankWalk]
  cases hsign : sign? (tokenAt ts i).lexeme with
  | some s =>
    have hlt := lt_length_of_some rfl hsign
    rw [bind_of_done (matchOp_of_some hsign), drop_eq_cons hlt, plain_readRank_zero_signed hsign]
    exact ((hprimary (i + 1)).mono (by omega) (by omega) (by omega)).map
  | none =>
    have hprimary' : plain (readRank 0 (ts.drop i)) = plain (readPrimary (ts.drop i)) := by
      refine plain_readRank_zero_primary fun t r h => ?_
      rwa [← tokenAt_eq_of_drop h]
    rw [bind_of_done (matchOp_of_none hsign), hprimary']
    exact (hprimary i).mono le_rfl le_rfl (by omega)

/-- An operator chain goes on from an expression. -/
def ChainTracks (ts : List Token) (fuel n : ℕ) : Prop :=
  ∀ x i, i ≤ ts.length → Agrees ts i ts.length (10 * (ts.length - i) + 1 ≤ fuel)
    (plain (readChain n x (ts.drop i))) (chainWalk ts fuel n x i)

theorem plain_readChain_of_none (x : Expr) (h : binary? (n + 1) (tokenAt ts i).lexeme = none) :
    plain (readChain n x (ts.drop i)) = .ok (x, ts.drop i) := by
  refine plain_readChain_stop (fun t r hcons => ?_) x
  rwa [← tokenAt_eq_of_drop hcons]

theorem chainWalk_tracks (hn : n < topRank) (hequality : n + 1 ≠ equalityRank)
    (hrank : Tracks ts fuel (n + 3) (readRank n) (rankWalk ts fuel n))
    (hchain : ChainTracks ts fuel n) : ChainTracks ts (fuel + 1) n := by
  intro x i hi
  rw [chainWalk]
  cases hop : binary? (n + 1) (tokenAt ts i).lexeme with
  | none =>
    rw [bind_of_done (matchOp_of_none hop), plain_readChain_of_none x hop]
    exact .done x le_rfl hi
  | some op =>
    have hlt := lt_length_of_some (binary?_eof (n + 1)) hop
    rw [bind_of_done (matchOp_of_some hop), drop_eq_cons hlt,
      plain_readChain_further hequality hop]
    unfold topRank at hn
    refine ((hrank (i + 1)).mono le_rfl ?_ ?_).bind le_rfl fun y j hlo hj =>
      (hchain (op x y) j hj).mono ?_ le_rfl ?_
    all_goals omega

theorem rankWalk_tracks
    (hrank : Tracks ts fuel (n + 3) (readRank n) (rankWalk ts fuel n))
    (hchain : n + 1 ≠ equalityRank → ChainTracks ts fuel n) :
    Tracks ts (fuel + 1) (n + 4) (readRank (n + 1))
      (rankWalk ts (fuel + 1) (n + 1)) := by
  intro i
  rw [rankWalk]
  rw [plain_readRank_succ]
  refine ((hrank i).mono le_rfl le_rfl (by omega)).bind (le_max_right ..) fun x j hlo hj => ?_
  split_ifs with hequality
  · cases hop : binary? (n + 1) (tokenAt ts j).lexeme with
    | none =>
      rw [bind_of_done (matchOp_of_none hop), plain_readChain_of_none x hop]
      exact .done x hlo hj
    | some op =>
      have hlt := lt_length_of_some (binary?_eof (n + 1)) hop
      rw [bind_of_done (matchOp_of_some hop), drop_eq_cons hlt,
        plain_readChain_equality hequality hop]
      exact ((hrank (j + 1)).mono (by omega) (by omega) (by omega)).map
  · exact (hchain hequality x j hj).mono hlo le_rfl (by omega)

/-- **The parsers of expressions follow their readers.** -/
theorem exprWalks_track (ts : List Token) (fuel : ℕ) :
    (∀ n ≤ topRank, Tracks ts fuel (n + 3) (readRank n) (rankWalk ts fuel n)) ∧
      (∀ n < topRank, n + 1 ≠ equalityRank → ChainTracks ts fuel n) ∧
      Tracks ts fuel 1 readPrimary (primaryWalk ts fuel) := by
  induction fuel with
  | zero =>
    refine ⟨fun n _ i => ?_, fun n _ _ x i _ => ?_, fun i => ?_⟩
    · rw [rankWalk]
      exact .running _ (by omega)
    · rw [chainWalk]
      exact .running _ (by omega)
    · rw [primaryWalk]
      exact .running _ (by omega)
  | succ fuel ih =>
    obtain ⟨hrank, hchain, hprimary⟩ := ih
    refine ⟨fun n hn => ?_, fun n hn hequality => ?_, primaryWalk_tracks (hrank topRank le_rfl)⟩
    · cases n with
      | zero => exact signedWalk_tracks hprimary
      | succ n => exact rankWalk_tracks (hrank n (by omega)) (hchain n hn)
    · exact chainWalk_tracks hn hequality (hrank n hn.le) (hchain n hn hequality)

theorem exprWalk_tracks (ts : List Token) (fuel : ℕ) :
    Tracks ts fuel 9 readExpr (rankWalk ts fuel topRank) :=
  (exprWalks_track ts fuel).1 topRank le_rfl

/-! ### Statements -/

theorem conditionWalk_tracks (ts : List Token) (fuel : ℕ) (k : Keyword) :
    Tracks ts fuel 9 (readCondition k) (conditionWalk ts fuel k) := by
  intro i
  rw [plain_readCondition, conditionWalk]
  refine (exprWalk_tracks ts fuel i).bind (le_max_right ..) fun c j hlo hj => ?_
  exact agrees_consume (by simp) (by omega) le_rfl fun hlt => .done c (by omega) hlt

theorem assignmentWalk_agrees
    (h : StartsStatement (tokenAt ts i).lexeme → ∃ name, (tokenAt ts i).lexeme = .word name) :
    Agrees ts (i + 1) (max i ts.length) (10 * (ts.length - i) ≤ fuel)
      (plain (readStatement (ts.drop i))) (assignmentWalk ts fuel i) := by
  have htarget : peekAt ts 0 i = .done (tokenAt ts i) i := rfl
  have hnext : peekAt ts 1 i = .done (tokenAt ts (i + 1)) i := rfl
  rw [assignmentWalk, bind_of_done htarget, bind_of_done hnext]
  obtain ⟨hnil, hat⟩ | ⟨hlt, hcons⟩ := drop_eq_nil_or ts i
  · have heof : (tokenAt ts i).lexeme = .eof := by
      rw [hat]
      rfl
    have hnexteof : (tokenAt ts (i + 1)).lexeme ≠ .symbol .assign := by
      intro hassign
      have hlt : i + 1 < ts.length := lt_length_of_lexeme_ne (hassign ▸ by simp)
      rw [drop_eq_cons (by omega)] at hnil
      cases hnil
    rw [hnil, plain_readStatement_nil, ← hnil, heof, decide_eq_false hnexteof]
    exact agrees_fail _ (by omega)
  · rw [hcons]
    by_cases hword : ∃ name, (tokenAt ts i).lexeme = .word name
    · obtain ⟨name, hname⟩ := hword
      rw [plain_readStatement_word hname, plain_readAssignment, hname]
      by_cases hassign : (tokenAt ts (i + 1)).lexeme = .symbol .assign
      · have hlt' : i + 1 < ts.length := lt_length_of_lexeme_ne (hassign ▸ by simp)
        rw [plain_take_of_eq hassign hlt', decide_eq_true hassign]
        exact ((exprWalk_tracks ts fuel (i + 2)).mono (by omega) (by omega) (by omega)).map
      · rw [plain_take_of_ne hassign, decide_eq_false hassign]
        exact agrees_fail _ (by omega)
    · rw [plain_readStatement_other (fun hstarts => hword (h hstarts)), ← hcons, statementFault,
        nextIs_drop (by simp)]
      cases hlexeme : (tokenAt ts i).lexeme with
      | word name => exact absurd ⟨name, hlexeme⟩ hword
      | _ => cases decide ((tokenAt ts (i + 1)).lexeme = .symbol .assign) <;>
          exact agrees_fail _ (by omega)

section Forms

variable {branch : Walk Stmt}

theorem writeWalk_agrees (newline : Bool)
    (h : (tokenAt ts i).lexeme = .keyword (writeKeyword newline)) :
    Agrees ts (i + 1) (max i ts.length) (10 * (ts.length - i) ≤ fuel)
      (plain (readStatement (ts.drop i))) (writeWalk ts fuel newline (i + 1)) := by
  have hlt : i < ts.length := lt_length_of_lexeme_ne (h ▸ by simp)
  rw [drop_eq_cons hlt, plain_readStatement_write h]
  refine Agrees.map (g := fun x => Stmt.write x newline) ?_
  exact (exprWalk_tracks ts fuel (i + 1)).mono (by omega) (by omega) (by omega)

theorem ifWalk_agrees (hbranch : Tracks ts fuel 3 readBranch branch)
    (h : (tokenAt ts i).lexeme = .keyword .ifKw) :
    Agrees ts (i + 1) (max i ts.length) (10 * (ts.length - i) ≤ fuel)
      (plain (readStatement (ts.drop i))) (ifWalk ts fuel branch (i + 1)) := by
  have hlt : i < ts.length := lt_length_of_lexeme_ne (h ▸ by simp)
  have hcondition := conditionWalk_tracks ts fuel .thenKw (i + 1)
  rw [drop_eq_cons hlt, plain_readStatement_if h, ifWalk]
  refine (hcondition.mono le_rfl (by omega) (by omega)).bind (le_max_right ..) fun c j hlo hj => ?_
  refine ((hbranch j).mono le_rfl (by omega) (by omega)).bind le_rfl fun s k hlo' hk => ?_
  obtain ⟨helse, hmatch⟩ | ⟨helse, hmatch⟩ := matchNext_cases ts (.keyword .elseKw) k
  · have hlt' : k < ts.length := lt_length_of_lexeme_ne (helse ▸ by simp)
    rw [bind_of_done hmatch, if_pos rfl, plain_take_of_eq helse hlt']
    refine Agrees.map (g := fun o => Stmt.ifElse c s o) ?_
    exact (hbranch (k + 1)).mono (by omega) (by omega) (by omega)
  · rw [bind_of_done hmatch, if_neg Bool.false_ne_true, plain_take_of_ne helse]
    exact .done _ (by omega) hk

theorem whileWalk_agrees (hbranch : Tracks ts fuel 3 readBranch branch)
    (h : (tokenAt ts i).lexeme = .keyword .whileKw) :
    Agrees ts (i + 1) (max i ts.length) (10 * (ts.length - i) ≤ fuel)
      (plain (readStatement (ts.drop i))) (whileWalk ts fuel branch (i + 1)) := by
  have hlt : i < ts.length := lt_length_of_lexeme_ne (h ▸ by simp)
  have hcondition := conditionWalk_tracks ts fuel .doKw (i + 1)
  rw [drop_eq_cons hlt, plain_readStatement_while h, whileWalk]
  refine (hcondition.mono le_rfl (by omega) (by omega)).bind (le_max_right ..) fun c j hlo hj => ?_
  refine Agrees.map (g := fun s => Stmt.whileDo c s) ?_
  exact (hbranch j).mono (by omega) (by omega) (by omega)

theorem repeatWalk_agrees (hbranch : Tracks ts fuel 3 readBranch branch)
    (h : (tokenAt ts i).lexeme = .keyword .repeatKw) :
    Agrees ts (i + 1) (max i ts.length) (10 * (ts.length - i) ≤ fuel)
      (plain (readStatement (ts.drop i))) (repeatWalk ts fuel branch (i + 1)) := by
  have hlt : i < ts.length := lt_length_of_lexeme_ne (h ▸ by simp)
  rw [drop_eq_cons hlt, plain_readStatement_repeat h, repeatWalk]
  refine ((hbranch (i + 1)).mono le_rfl (by omega) (by omega)).bind (le_max_right ..)
    fun s j hlo hj => ?_
  refine agrees_consume (by simp) (by omega) le_rfl fun hlt' => ?_
  refine Agrees.map (g := fun c => Stmt.repeatUntil s c) ?_
  exact (exprWalk_tracks ts fuel (j + 1)).mono (by omega) (by omega) (by omega)

theorem jump_agrees {enough : Prop} (jump : Jump)
    (h : (tokenAt ts i).lexeme = .keyword (jumpKeyword jump)) :
    Agrees ts (i + 1) (max i ts.length) enough
      (plain (readStatement (ts.drop i))) (.done (.jump jump) (i + 1)) := by
  have hlt : i < ts.length := lt_length_of_lexeme_ne (h ▸ by simp)
  rw [drop_eq_cons hlt, plain_readStatement_jump h]
  exact .done _ le_rfl hlt

end Forms

theorem statementWalk_tracks
    (hbranch : Tracks ts fuel 3 readBranch (branchWalk ts fuel)) :
    Tracks ts (fuel + 1) 1 readStatement (statementWalk ts (fuel + 1)) := by
  intro i
  suffices h : Agrees ts (i + 1) (max i ts.length) (10 * (ts.length - i) ≤ fuel)
      (plain (readStatement (ts.drop i))) (statementWalk ts (fuel + 1) i) from
    h.mono le_rfl le_rfl (by omega)
  rw [statementWalk]
  refine agrees_matchNext (fun h => writeWalk_agrees true h) fun hwriteln => ?_
  refine agrees_matchNext (fun h => writeWalk_agrees false h) fun hwrite => ?_
  refine agrees_matchNext (fun h => ifWalk_agrees hbranch h) fun hif => ?_
  refine agrees_matchNext (fun h => jump_agrees .leave h) fun hbreak => ?_
  refine agrees_matchNext (fun h => jump_agrees .next h) fun hcontinue => ?_
  refine agrees_matchNext (fun h => whileWalk_agrees hbranch h) fun hwhile => ?_
  refine agrees_matchNext (fun h => repeatWalk_agrees hbranch h) fun hrepeat => ?_
  refine assignmentWalk_agrees fun hstarts => ?_
  generalize (tokenAt ts i).lexeme = l at *
  cases hstarts with
  | write newline =>
    cases newline with
    | true => exact absurd rfl hwriteln
    | false => exact absurd rfl hwrite
  | jump jump =>
    cases jump with
    | leave => exact absurd rfl hbreak
    | next => exact absurd rfl hcontinue
  | ifKw => exact absurd rfl hif
  | whileKw => exact absurd rfl hwhile
  | repeatKw => exact absurd rfl hrepeat
  | word name => exact ⟨name, rfl⟩

/-- Reads a block, its first keyword included. -/
def readWholeBlock (us : List Token) : Reading Stmt us :=
  match take (.keyword .beginKw) us with
  | .error s => .error s
  | .ok u =>
    match readBlock u.rest with
    | .error s => .error s
    | .ok b => .ok (b.widen (.block b.value) u.rest_lt.le)

theorem plain_readWholeBlock (us : List Token) :
    plain (readWholeBlock us) = (plain (take (.keyword .beginKw) us)).bind fun u =>
      (plain (readBlock u.2)).map fun b => (.block b.1, b.2) := by
  rw [readWholeBlock]
  cases take (.keyword .beginKw) us with
  | error s => rfl
  | ok u =>
    simp only [plain_ok, Except.bind]
    cases readBlock u.rest <;> rfl

theorem branchWalk_tracks
    (hblock : Tracks ts fuel 2 readWholeBlock (blockWalk ts fuel))
    (hstatement : Tracks ts fuel 1 readStatement (statementWalk ts fuel)) :
    Tracks ts (fuel + 1) 3 readBranch (branchWalk ts (fuel + 1)) := by
  intro i
  rw [branchWalk, bind_of_done (check_apply ts _ i)]
  by_cases h : (tokenAt ts i).lexeme = .keyword .beginKw
  · have hlt : i < ts.length := lt_length_of_lexeme_ne (h ▸ by simp)
    have hread : plain (readBranch (ts.drop i)) = plain (readWholeBlock (ts.drop i)) := by
      rw [plain_readWholeBlock, plain_take_of_eq h hlt, drop_eq_cons hlt, plain_readBranch_block h]
      rfl
    rw [decide_eq_true h, if_pos rfl, hread]
    exact (hblock i).mono le_rfl le_rfl (by omega)
  · rw [decide_eq_false h, if_neg Bool.false_ne_true,
      plain_readBranch_statement (nextLexeme_drop_ne h)]
    exact (hstatement i).mono le_rfl le_rfl (by omega)

theorem blockWalk_tracks
    (hbody : Tracks ts fuel 2 readBlock (bodyWalk ts fuel)) :
    Tracks ts (fuel + 1) 2 readWholeBlock (blockWalk ts (fuel + 1)) := by
  intro i
  rw [blockWalk, plain_readWholeBlock]
  refine agrees_consume (by simp) (by omega) (le_max_right ..) fun hlt => ?_
  refine Agrees.map (g := Stmt.block) ?_
  exact (hbody (i + 1)).mono (by omega) (by omega) (by omega)

theorem bodyWalk_tracks
    (hstatement : Tracks ts fuel 1 readStatement (statementWalk ts fuel))
    (hbody : Tracks ts fuel 2 readBlock (bodyWalk ts fuel)) :
    Tracks ts (fuel + 1) 2 readBlock (bodyWalk ts (fuel + 1)) := by
  intro i
  rw [bodyWalk]
  refine agrees_matchNext (fun h => ?_) fun h => ?_
  · have hlt : i < ts.length := lt_length_of_lexeme_ne (h ▸ by simp)
    rw [drop_eq_cons hlt, plain_readBlock_end h]
    exact .done _ le_rfl hlt
  rw [bind_of_done (hasNext_apply ts i)]
  obtain ⟨hnil, -⟩ | ⟨hlt, hcons⟩ := drop_eq_nil_or ts i
  · have hend : ¬ i < ts.length := not_lt.2 (List.drop_eq_nil_iff.1 hnil)
    rw [decide_eq_false hend, if_neg Bool.false_ne_true, hnil, plain_readBlock_nil, ← hnil]
    exact agrees_fail _ (by omega)
  · rw [decide_eq_true hlt, if_pos rfl, hcons, plain_readBlock_cons h, ← hcons]
    refine ((hstatement i).mono le_rfl le_rfl (by omega)).bind (le_max_right ..)
      fun s j hlo hj => ?_
    refine Agrees.map (g := fun ss => s :: ss) ?_
    exact (hbody j).mono (by omega) (by omega) (by omega)

/-- **The parsers of statements follow their readers.** -/
theorem stmtWalks_track (ts : List Token) (fuel : ℕ) :
    Tracks ts fuel 1 readStatement (statementWalk ts fuel) ∧
      Tracks ts fuel 3 readBranch (branchWalk ts fuel) ∧
      Tracks ts fuel 2 readWholeBlock (blockWalk ts fuel) ∧
      Tracks ts fuel 2 readBlock (bodyWalk ts fuel) := by
  induction fuel with
  | zero =>
    refine ⟨fun i => ?_, fun i => ?_, fun i => ?_, fun i => ?_⟩
    · rw [statementWalk]
      exact .running _ (by omega)
    · rw [branchWalk]
      exact .running _ (by omega)
    · rw [blockWalk]
      exact .running _ (by omega)
    · rw [bodyWalk]
      exact .running _ (by omega)
  | succ fuel ih =>
    obtain ⟨hstatement, hbranch, hblock, hbody⟩ := ih
    exact ⟨statementWalk_tracks hbranch, branchWalk_tracks hblock hstatement,
      blockWalk_tracks hbody, bodyWalk_tracks hstatement hbody⟩

/-! ### Programs -/

/-- From any position the loop over the statements ends behind the last token. -/
theorem programWalk_agrees (ts : List Token) (fuel : ℕ) (hi : i ≤ ts.length) :
    Agrees ts ts.length ts.length (10 * (ts.length - i) + 2 ≤ fuel)
      ((readProgram (ts.drop i)).map fun ss => (ss, ts.drop ts.length))
      (programWalk ts fuel i) := by
  induction fuel generalizing i with
  | zero =>
    rw [programWalk]
    exact .running _ (by omega)
  | succ fuel ih =>
    rw [programWalk, bind_of_done (hasNext_apply ts i)]
    obtain hlt | rfl := lt_or_eq_of_le hi
    · have hread : ((readProgram (ts.drop i)).map fun ss => (ss, ts.drop ts.length)) =
          (plain (readStatement (ts.drop i))).bind fun s =>
            ((readProgram s.2).map fun ss => (ss, ts.drop ts.length)).map
              fun ss => (s.1 :: ss.1, ss.2) := by
        rw [drop_eq_cons hlt, readProgram_cons]
        cases plain (readStatement (tokenAt ts i :: ts.drop (i + 1))) with
        | error s => rfl
        | ok s =>
          simp only [Except.bind]
          cases readProgram s.2 <;> rfl
      rw [decide_eq_true hlt, if_pos rfl, hread]
      have hstatement := (stmtWalks_track ts fuel).1 i
      refine (hstatement.mono le_rfl (by omega) (by omega)).bind le_rfl fun s j hlo hj => ?_
      refine Agrees.map (g := fun ss => s :: ss) ?_
      exact (ih hj).mono le_rfl le_rfl (by omega)
    · have hread : readProgram (ts.drop ts.length) = .ok [] := by
        rw [List.drop_length, readProgram_nil]
      rw [decide_eq_false (lt_irrefl _), if_neg Bool.false_ne_true, hread]
      exact .done _ le_rfl le_rfl

/-- Wherever the cursor stands, the parser finds what the reader finds in the tokens from there on,
moves the cursor forward for it, to where the reader stops, and not past the last token. It fails
where the reader fails, and leaves the cursor at most one place behind the last token. It asks for
no token in front of the cursor where there is none, and it ends if it has ten times as much fuel
as tokens and a little more. -/
def Advances (ts : List Token) (fuel : ℕ) (read : (us : List Token) → Reading α us) (m : Walk α) :
    Prop :=
  ∀ i, match m i with
    | .done v j => i < j ∧ j ≤ ts.length ∧ plain (read (ts.drop i)) = .ok (v, ts.drop j)
    | .failed e j =>
      j ≤ max i ts.length + 1 ∧ ∃ s, plain (read (ts.drop i)) = .error s ∧ s.toError ts = e
    | .outside => False
    | .running => fuel < 10 * ts.length + 9

theorem Tracks.advances {cost : ℕ} {read : (us : List Token) → Reading α us} {m : Walk α}
    (h : Tracks ts fuel cost read m) (hcost : cost ≤ 9) : Advances ts fuel read m := by
  intro i
  have hi := h i
  generalize plain (read (ts.drop i)) = x at hi ⊢
  generalize m i = o at hi
  cases hi with
  | done v hlo hj => exact ⟨hlo, hj, rfl⟩
  | failed s hj => exact ⟨hj, s, rfl, rfl⟩
  | running x h =>
    dsimp only
    omega

/-- **The parser always makes progress and stays within its tokens.** Each of its parts does, and
the whole of it ends on every list of tokens: with a program behind the last token, the one that
these tokens make up, or else with their error, at most one place behind the last token. -/
theorem parser_advances (ts : List Token) (fuel : ℕ) :
    Advances ts fuel readStatement (statementWalk ts fuel) ∧
      Advances ts fuel readBranch (branchWalk ts fuel) ∧
      Advances ts fuel readWholeBlock (blockWalk ts fuel) ∧
      (∀ n ≤ topRank, Advances ts fuel (readRank n) (rankWalk ts fuel n)) ∧
      Advances ts fuel readPrimary (primaryWalk ts fuel) ∧
      match parseWalk ts fuel 0 with
      | .done p j => j = ts.length ∧ parse ts = .ok p
      | .failed e j => j ≤ ts.length + 1 ∧ parse ts = .error e
      | .outside => False
      | .running => fuel < 10 * ts.length + 2 := by
  obtain ⟨hrank, -, hprimary⟩ := exprWalks_track ts fuel
  obtain ⟨hstatement, hbranch, hblock, -⟩ := stmtWalks_track ts fuel
  refine ⟨hstatement.advances (by omega), hbranch.advances (by omega), hblock.advances (by omega),
    fun n hn => (hrank n hn).advances (by unfold topRank at hn; omega),
    hprimary.advances (by omega), ?_⟩
  have hprogram := programWalk_agrees ts fuel (Nat.zero_le _)
  rw [List.drop_zero] at hprogram
  rw [parseWalk, bind_apply]
  generalize programWalk ts fuel 0 = o at hprogram
  generalize hmap : (readProgram ts).map _ = x at hprogram
  cases hprogram with
  | done ss hlo hj =>
    obtain ⟨ss', hread, heq⟩ := map_eq_ok_iff.1 hmap
    obtain ⟨rfl, -⟩ := Prod.mk.inj heq
    exact ⟨le_antisymm hj hlo, parse_eq_ok_iff.2 ⟨ss', hread, rfl⟩⟩
  | failed s hj => exact ⟨hj, parse_eq_error_iff.2 ⟨s, map_eq_error_iff.1 hmap, rfl⟩⟩
  | running x h =>
    dsimp only
    omega

/-- An expression that is missing at the end of input leaves the cursor behind this. -/
example : parseWalk [⟨.keyword .writeKw, 1⟩] 12 0 = .failed ⟨.unknownExpression, ⟨.eof, 1⟩⟩ 2 := rfl

end BlockScript.Cursor
