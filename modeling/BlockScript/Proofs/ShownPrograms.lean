import BlockScript.Proofs.ShownExpressions

/-!
# Programs that are shown look different

Where a tree is shown, nothing marks the end of a branch, and an `else` stands on a line of its own
like a statement. Still the tree of a program can be told from how it is shown, as its names are not
reserved and an `else` belongs to the nearest `if` that can take it.

* `Leads`: what kind of statement a text starts with.
* `Stmt.Stands`: a statement in a tree that is shown.
* `Stmt.separates`: a statement that is shown tells the statement and where it ends.
* `compile_render_injective`: two programs that are shown alike have the same tree.
-/

namespace BlockScript

open Piece Decimal Grammar

/-! ### First words of statements -/

/-- The text starts with a whole word, which is the given keyword or, if none is given, a name. -/
def Leads (k? : Option Keyword) (cs : List Char) : Prop :=
  ∃ w r, cs = w.toList ++ r ∧ IsWord w.toList ∧ Stops inWord r ∧ Keyword.ofWord? w = k?

theorem Leads.unique {k? l? : Option Keyword} {cs : List Char} (h : Leads k? cs)
    (h' : Leads l? cs) : k? = l? := by
  obtain ⟨w, r, rfl, hw, hr, rfl⟩ := h
  obtain ⟨w', r', heq, hw', hr', rfl⟩ := h'
  obtain ⟨htext, -⟩ := append_inj_of_stops hw.inWord hw'.inWord hr hr' heq
  rw [String.toList_inj.1 htext]

theorem leads_keyword (k : Keyword) {r : List Char} (hr : Stops inWord r) :
    Leads (some k) (k.spelling.toList ++ r) :=
  ⟨k.spelling, r, rfl, k.isWord, hr, k.ofWord?_spelling⟩

/-- The keyword that the statement starts with, if it does not start with a name. -/
def Stmt.keyword? : Stmt → Option Keyword
  | .assign .. => none
  | .write _ newline => some (writeKeyword newline)
  | .ifThen .. | .ifElse .. => some .ifKw
  | .whileDo .. => some .whileKw
  | .repeatUntil .. => some .repeatKw
  | .block _ => some .beginKw
  | .jump j => some (jumpKeyword j)

section Render

variable (u : List Char)

theorem Stmt.toList_render_assign (x : String) (e : Expr) :
    (Stmt.assign x e).render.toList ++ u =
      x.toList ++ ' ' :: (":= ".toList ++ (e.render.toList ++ u)) := by
  simp [render]

theorem Stmt.toList_render_write (e : Expr) (newline : Bool) :
    (Stmt.write e newline).render.toList ++ u =
      (writeKeyword newline).spelling.toList ++ ' ' :: (e.render.toList ++ u) := by
  cases newline <;> simp [render, writeKeyword, Keyword.spelling]

theorem Stmt.toList_render_ifThen (c : Expr) (s : Stmt) :
    (Stmt.ifThen c s).render.toList ++ u =
      Keyword.ifKw.spelling.toList ++
        ' ' :: (c.render.toList ++ ' ' :: ("then ".toList ++ (s.render.toList ++ u))) := by
  simp [render, Keyword.spelling]

theorem Stmt.toList_render_ifElse (c : Expr) (s t : Stmt) :
    (Stmt.ifElse c s t).render.toList ++ u =
      Keyword.ifKw.spelling.toList ++
        ' ' :: (c.render.toList ++ ' ' :: ("then ".toList ++ (s.render.toList ++
          '\n' :: ("else ".toList ++ (t.render.toList ++ u))))) := by
  simp [render, Keyword.spelling]

theorem Stmt.toList_render_whileDo (c : Expr) (s : Stmt) :
    (Stmt.whileDo c s).render.toList ++ u =
      Keyword.whileKw.spelling.toList ++
        ' ' :: (c.render.toList ++ ' ' :: ("do ".toList ++ (s.render.toList ++ u))) := by
  simp [render, Keyword.spelling]

theorem Stmt.toList_render_repeatUntil (s : Stmt) (c : Expr) :
    (Stmt.repeatUntil s c).render.toList ++ u =
      Keyword.repeatKw.spelling.toList ++
        ' ' :: (s.render.toList ++ ' ' :: ("until ".toList ++ (c.render.toList ++ u))) := by
  simp [render, Keyword.spelling]

/-- The statements of a block, the word that ends it and what comes behind it. -/
def linesOf (ss : List Stmt) : List Char :=
  (Stmt.renderLines ss).toList ++ (Keyword.endKw.spelling.toList ++ u)

theorem Stmt.toList_render_block (ss : List Stmt) :
    (Stmt.block ss).render.toList ++ u =
      Keyword.beginKw.spelling.toList ++ '\n' :: linesOf u ss := by
  simp [render, linesOf, Keyword.spelling]

theorem linesOf_cons (s : Stmt) (ss : List Stmt) :
    linesOf u (s :: ss) = s.render.toList ++ '\n' :: linesOf u ss := by
  simp [linesOf, Stmt.renderLines]

theorem Stmt.toList_render_jump (j : Jump) :
    (Stmt.jump j).render.toList ++ u = (jumpKeyword j).spelling.toList ++ u := by
  cases j <;> simp [render, Jump.render, jumpKeyword, Keyword.spelling]

end Render

theorem Stmt.Writable.leads {s : Stmt} (hs : s.Writable) {u : List Char} (hu : EndsAtom u) :
    Leads s.keyword? (s.render.toList ++ u) := by
  have hspace (r : List Char) : Stops inWord (' ' :: r) := (endsAtom_cons (.inl rfl)).stops_inWord
  cases s with
  | assign x e =>
    rw [toList_render_assign]
    exact ⟨x, _, rfl, hs.1.1, hspace _, Keyword.ofWord?_eq_none_iff.2 hs.1.2⟩
  | write e newline =>
    rw [toList_render_write]
    exact leads_keyword _ (hspace _)
  | ifThen c s =>
    rw [toList_render_ifThen]
    exact leads_keyword _ (hspace _)
  | ifElse c s t =>
    rw [toList_render_ifElse]
    exact leads_keyword _ (hspace _)
  | whileDo c s =>
    rw [toList_render_whileDo]
    exact leads_keyword _ (hspace _)
  | repeatUntil s c =>
    rw [toList_render_repeatUntil]
    exact leads_keyword _ (hspace _)
  | block ss =>
    rw [toList_render_block]
    exact leads_keyword _ (endsAtom_cons (.inr (.inr rfl))).stops_inWord
  | jump j =>
    rw [toList_render_jump]
    exact leads_keyword _ hu.stops_inWord

/-- No statement starts with a word that only goes on with one or ends one. -/
theorem Stmt.keyword?_ne (s : Stmt) : s.keyword? ≠ some .elseKw ∧ s.keyword? ≠ some .endKw := by
  cases s with
  | write e newline => cases newline <;> simp [keyword?, writeKeyword]
  | jump j => cases j <;> simp [keyword?, jumpKeyword]
  | _ => simp [keyword?]

theorem leads_linesOf {u : List Char} (hu : EndsAtom u) {ss : List Stmt}
    (hss : Stmt.AllWritable ss) :
    Leads ((ss.head?.map Stmt.keyword?).getD (some .endKw)) (linesOf u ss) := by
  cases ss with
  | nil => exact leads_keyword .endKw hu.stops_inWord
  | cons s ss =>
    rw [linesOf_cons]
    exact hss.1.leads (endsAtom_cons (.inr (.inr rfl)))

/-! ### Statements -/

/-- The text starts with a line that starts with `else`. -/
def StartsElse (u : List Char) : Prop :=
  ∃ r, u = '\n' :: ("else ".toList ++ r)

/-- A line behind a statement of a block is another statement or the end. -/
theorem not_startsElse_linesOf {u : List Char} (hu : EndsAtom u) {ss : List Stmt}
    (hss : Stmt.AllWritable ss) : ¬ StartsElse ('\n' :: linesOf u ss) := by
  rintro ⟨r, h⟩
  have helse : Leads (some .elseKw) (linesOf u ss) := by
    rw [List.tail_eq_of_cons_eq h]
    exact leads_keyword .elseKw (r := ' ' :: r) (endsAtom_cons (.inl rfl)).stops_inWord
  have hne := helse.unique (leads_linesOf hu hss)
  cases ss with
  | nil => cases hne
  | cons s ss => exact s.keyword?_ne.1 hne.symm

/-- The statement can stand in a tree that is shown, as a block only if `b`, in front of the text
`u`. A line that starts with `else` would go on with an open statement. -/
structure Stmt.Stands (b : Bool) (s : Stmt) (u : List Char) : Prop where
  writable : s.Writable
  placed : s.isPlaced b = true
  ends : EndsAtom u
  closed : s.isOpen = true → ¬ StartsElse u

/-- A text that starts with the statement and goes on behind it is taken apart in one way only. -/
def Stmt.Separates (s : Stmt) : Prop :=
  ∀ {b b' : Bool} {t : Stmt} {u v : List Char}, s.Stands b u → t.Stands b' v →
    s.render.toList ++ u = t.render.toList ++ v → s = t ∧ u = v

section Stands

variable {b b' : Bool} {c : Expr} {s t : Stmt} {u v r : List Char}

theorem Stmt.Stands.keyword?_eq (hs : s.Stands b u) (ht : t.Stands b' v)
    (h : s.render.toList ++ u = t.render.toList ++ v) : s.keyword? = t.keyword? := by
  have hlead := hs.writable.leads hs.ends
  rw [h] at hlead
  exact hlead.unique (ht.writable.leads ht.ends)

theorem Stmt.Stands.ifThen (h : (Stmt.ifThen c s).Stands b u) : s.Stands true u :=
  ⟨h.writable.2, h.placed, h.ends, fun _ => h.closed rfl⟩

theorem Stmt.Stands.whileDo (h : (Stmt.whileDo c s).Stands b u) : s.Stands true u :=
  ⟨h.writable.2, h.placed, h.ends, h.closed⟩

theorem Stmt.Stands.repeatUntil (h : (Stmt.repeatUntil s c).Stands b u) (r : List Char) :
    s.Stands true (' ' :: r) :=
  ⟨h.writable.1, h.placed, endsAtom_cons (.inl rfl), by rintro - ⟨_, h⟩; cases h⟩

theorem Stmt.Stands.ifElse (h : (Stmt.ifElse c s t).Stands b u) (r : List Char) :
    s.Stands true ('\n' :: r) ∧ t.Stands true u := by
  obtain ⟨⟨-, hs, ht⟩, hplaced, hends, hclosed⟩ := h
  simp only [isPlaced, Bool.and_eq_true, Bool.not_eq_true'] at hplaced
  obtain ⟨⟨hopen, hps⟩, hpt⟩ := hplaced
  refine ⟨⟨hs, hps, endsAtom_cons (.inr (.inr rfl)), fun h => ?_⟩, ht, hpt, hends, hclosed⟩
  rw [hopen] at h
  cases h

end Stands

/-! ### Each kind of statement -/

section Kinds

variable {s t : Stmt}

theorem Stmt.separates_assign (x : String) (e : Expr) : (Stmt.assign x e).Separates := by
  intro b b' t u v hs ht h
  have hkey := hs.keyword?_eq ht h
  have hspace (r : List Char) : Stops inWord (' ' :: r) := (endsAtom_cons (.inl rfl)).stops_inWord
  cases t with
  | assign y f =>
    obtain ⟨⟨hx, he⟩, -, hu, -⟩ := hs
    obtain ⟨⟨hy, hf⟩, -, hv, -⟩ := ht
    rw [toList_render_assign, toList_render_assign] at h
    obtain ⟨hname, hrest⟩ :=
      append_inj_of_stops hx.1.inWord hy.1.inWord (hspace _) (hspace _) h
    obtain rfl := String.toList_inj.1 hname
    obtain ⟨rfl, rfl⟩ :=
      e.separates he hf hu hv (List.append_cancel_left (List.tail_eq_of_cons_eq hrest))
    exact ⟨rfl, rfl⟩
  | _ => cases hkey

theorem Stmt.separates_write (e : Expr) (newline : Bool) : (Stmt.write e newline).Separates := by
  intro b b' t u v hs ht h
  have hkey := hs.keyword?_eq ht h
  cases t with
  | write f newline' =>
    obtain rfl : newline = newline' := by
      cases newline <;> cases newline' <;> first | rfl | cases hkey
    rw [toList_render_write, toList_render_write] at h
    obtain ⟨rfl, rfl⟩ := e.separates hs.writable ht.writable hs.ends ht.ends
      (List.tail_eq_of_cons_eq (List.append_cancel_left h))
    exact ⟨rfl, rfl⟩
  | jump j => cases newline <;> cases j <;> cases hkey
  | _ => cases newline <;> cases hkey

/-- Where two conditions are shown, they are the same, and so is what comes behind them. -/
theorem separates_condition {k : Keyword} {w : String} {c d : Expr} {r r' : List Char}
    (hc : c.Writable) (hd : d.Writable)
    (h : k.spelling.toList ++ ' ' :: (c.render.toList ++ ' ' :: (w.toList ++ r)) =
      k.spelling.toList ++ ' ' :: (d.render.toList ++ ' ' :: (w.toList ++ r'))) :
    c = d ∧ r = r' := by
  obtain ⟨rfl, hrest⟩ := c.separates hc hd (endsAtom_cons (.inl rfl)) (endsAtom_cons (.inl rfl))
    (List.tail_eq_of_cons_eq (List.append_cancel_left h))
  exact ⟨rfl, List.append_cancel_left (List.tail_eq_of_cons_eq hrest)⟩

theorem Stmt.Separates.ifThen (hs : s.Separates) (c : Expr) : (Stmt.ifThen c s).Separates := by
  intro b b' t u v hst ht h
  have hkey := hst.keyword?_eq ht h
  cases t with
  | ifThen d t =>
    rw [toList_render_ifThen, toList_render_ifThen] at h
    obtain ⟨rfl, hrest⟩ := separates_condition hst.writable.1 ht.writable.1 h
    obtain ⟨rfl, rfl⟩ := hs hst.ifThen ht.ifThen hrest
    exact ⟨rfl, rfl⟩
  | ifElse d t o =>
    -- the `else` would go on with the first `if`
    rw [toList_render_ifThen, toList_render_ifElse] at h
    obtain ⟨rfl, hrest⟩ := separates_condition hst.writable.1 ht.writable.1 h
    obtain ⟨-, hu⟩ := hs hst.ifThen (ht.ifElse _).1 hrest
    exact absurd ⟨_, hu⟩ (hst.closed rfl)
  | write e newline => cases newline <;> cases hkey
  | jump j => cases j <;> cases hkey
  | _ => cases hkey

theorem Stmt.Separates.ifElse (hs : s.Separates) (ht : t.Separates) (c : Expr) :
    (Stmt.ifElse c s t).Separates := by
  intro b b' r u v hst hr h
  have hkey := hst.keyword?_eq hr h
  cases r with
  | ifThen d r =>
    rw [toList_render_ifThen, toList_render_ifElse] at h
    obtain ⟨rfl, hrest⟩ := separates_condition hst.writable.1 hr.writable.1 h
    obtain ⟨-, hv⟩ := hs (hst.ifElse _).1 hr.ifThen hrest
    exact absurd ⟨_, hv.symm⟩ (hr.closed rfl)
  | ifElse d r o =>
    rw [toList_render_ifElse, toList_render_ifElse] at h
    obtain ⟨rfl, hrest⟩ := separates_condition hst.writable.1 hr.writable.1 h
    obtain ⟨rfl, helse⟩ := hs (hst.ifElse _).1 (hr.ifElse _).1 hrest
    obtain ⟨rfl, rfl⟩ := ht (hst.ifElse u).2 (hr.ifElse v).2
      (List.append_cancel_left (List.tail_eq_of_cons_eq helse))
    exact ⟨rfl, rfl⟩
  | write e newline => cases newline <;> cases hkey
  | jump j => cases j <;> cases hkey
  | _ => cases hkey

theorem Stmt.Separates.whileDo (hs : s.Separates) (c : Expr) : (Stmt.whileDo c s).Separates := by
  intro b b' t u v hst ht h
  have hkey := hst.keyword?_eq ht h
  cases t with
  | whileDo d t =>
    rw [toList_render_whileDo, toList_render_whileDo] at h
    obtain ⟨rfl, hrest⟩ := separates_condition hst.writable.1 ht.writable.1 h
    obtain ⟨rfl, rfl⟩ := hs hst.whileDo ht.whileDo hrest
    exact ⟨rfl, rfl⟩
  | write e newline => cases newline <;> cases hkey
  | jump j => cases j <;> cases hkey
  | _ => cases hkey

theorem Stmt.Separates.repeatUntil (hs : s.Separates) (c : Expr) :
    (Stmt.repeatUntil s c).Separates := by
  intro b b' t u v hst ht h
  have hkey := hst.keyword?_eq ht h
  cases t with
  | repeatUntil t d =>
    rw [toList_render_repeatUntil, toList_render_repeatUntil] at h
    obtain ⟨rfl, huntil⟩ := hs (hst.repeatUntil _) (ht.repeatUntil _)
      (List.tail_eq_of_cons_eq (List.append_cancel_left h))
    obtain ⟨rfl, rfl⟩ := c.separates hst.writable.2 ht.writable.2 hst.ends ht.ends
      (List.append_cancel_left (List.tail_eq_of_cons_eq huntil))
    exact ⟨rfl, rfl⟩
  | write e newline => cases newline <;> cases hkey
  | jump j => cases j <;> cases hkey
  | _ => cases hkey

theorem linesOf_inj {ss ts : List Stmt} (hseparates : ∀ s ∈ ss, s.Separates) {u v : List Char}
    (hss : Stmt.AllWritable ss) (hts : Stmt.AllWritable ts) (hpss : Stmt.allPlaced ss = true)
    (hpts : Stmt.allPlaced ts = true) (hu : EndsAtom u) (hv : EndsAtom v)
    (h : linesOf u ss = linesOf v ts) : ss = ts ∧ u = v := by
  induction ss generalizing ts with
  | nil =>
    cases ts with
    | nil => exact ⟨rfl, List.append_cancel_left (List.append_cancel_left h)⟩
    | cons t ts =>
      have hend := leads_linesOf hu hss
      rw [h] at hend
      exact absurd (hend.unique (leads_linesOf hv hts)).symm t.keyword?_ne.2
  | cons s ss ih =>
    cases ts with
    | nil =>
      have hend := leads_linesOf hv hts
      rw [← h] at hend
      exact absurd ((leads_linesOf hu hss).unique hend) s.keyword?_ne.2
    | cons t ts =>
      simp only [Stmt.allPlaced, Bool.and_eq_true] at hpss hpts
      rw [linesOf_cons, linesOf_cons] at h
      have hnewline (r : List Char) : EndsAtom ('\n' :: r) := endsAtom_cons (.inr (.inr rfl))
      obtain ⟨rfl, hrest⟩ := hseparates s (by simp)
        ⟨hss.1, hpss.1, hnewline _, fun _ => not_startsElse_linesOf hu hss.2⟩
        ⟨hts.1, hpts.1, hnewline _, fun _ => not_startsElse_linesOf hv hts.2⟩ h
      obtain ⟨rfl, rfl⟩ := ih (fun r hr => hseparates r (by simp [hr])) hss.2 hts.2 hpss.2 hpts.2
        (List.tail_eq_of_cons_eq hrest)
      exact ⟨rfl, rfl⟩

theorem Stmt.separates_block {ss : List Stmt} (hss : ∀ s ∈ ss, s.Separates) :
    (Stmt.block ss).Separates := by
  intro b b' t u v hst ht h
  have hkey := hst.keyword?_eq ht h
  cases t with
  | block ts =>
    obtain ⟨hs, hps, hu, -⟩ := hst
    obtain ⟨ht, hpt, hv, -⟩ := ht
    simp only [isPlaced, Bool.and_eq_true] at hps hpt
    rw [toList_render_block, toList_render_block] at h
    obtain ⟨rfl, rfl⟩ := linesOf_inj hss hs ht hps.2 hpt.2 hu hv
      (List.tail_eq_of_cons_eq (List.append_cancel_left h))
    exact ⟨rfl, rfl⟩
  | write e newline => cases newline <;> cases hkey
  | jump j => cases j <;> cases hkey
  | _ => cases hkey

theorem Stmt.separates_jump (j : Jump) : (Stmt.jump j).Separates := by
  intro b b' t u v hst ht h
  have hkey := hst.keyword?_eq ht h
  cases t with
  | jump k =>
    obtain rfl : j = k := by cases j <;> cases k <;> first | rfl | cases hkey
    exact ⟨rfl, List.append_cancel_left h⟩
  | write e newline => cases newline <;> cases j <;> cases hkey
  | _ => cases j <;> cases hkey

end Kinds

/-- A statement that is shown tells the statement and where it ends. -/
theorem Stmt.separates (s : Stmt) : s.Separates := by
  induction s with
  | assign x e => exact separates_assign x e
  | write e newline => exact separates_write e newline
  | ifThen c s ih => exact ih.ifThen c
  | ifElse c s t ihs iht => exact ihs.ifElse iht c
  | whileDo c s ih => exact ih.whileDo c
  | repeatUntil s c ih => exact ih.repeatUntil c
  | block ss ih => exact separates_block ih
  | jump j => exact separates_jump j

/-- **Programs that are shown alike have the same tree.** This holds of any two source texts in
which no number has an infinite value. -/
theorem compile_render_injective {code code' : String} {p q : Stmt} (hp : compile code = .ok p)
    (hq : compile code' = .ok q) (hcode : FiniteNumbers code) (hcode' : FiniteNumbers code')
    (h : p.render = q.render) : p = q := by
  obtain ⟨hwp, hpp⟩ := writable_of_compile hp hcode
  obtain ⟨hwq, hpq⟩ := writable_of_compile hq hcode'
  have hnil : EndsAtom [] := by simp [EndsAtom]
  have hnone : ¬ StartsElse [] := by
    rintro ⟨r, h⟩
    cases h
  have hsame := p.separates ⟨hwp, hpp, hnil, fun _ => hnone⟩ ⟨hwq, hpq, hnil, fun _ => hnone⟩
    (by rw [h])
  exact hsame.1

/-- The two programs spell one number in two ways. -/
theorem compile_render_hex_number :
    ∃ p q : Stmt, compile "writeln #A" = .ok p ∧ compile "writeln 10.0" = .ok q ∧
      p.render = "begin\nwriteln 10\nend" ∧ q.render = "begin\nwriteln 10\nend" ∧ p = q := by
  let x : Float := (hexInteger zero ['A']).1
  let y : Float := Numeral.nearest ⟨100, 1⟩
  have hscan : scan "writeln #A" = .ok ⟨[⟨.keyword .writelnKw, 1⟩, ⟨.hex "A", 1⟩], 1⟩ := by
    decide +kernel
  have hscan' : scan "writeln 10.0" =
      .ok ⟨[⟨.keyword .writelnKw, 1⟩, ⟨.number "10.0", 1⟩], 1⟩ := by decide +kernel
  have hx : hexPayload? "A" = some x := by decide +kernel
  have hy : numberPayload? "10.0" = some y := by decide +kernel
  have hparse {l : Lexeme} {z : Float} (h : DerivesExpr .primary [l] (.literal (.number z)) none) :
      parse [⟨.keyword .writelnKw, 1⟩, ⟨l, 1⟩] =
        .ok (.block [.write (.literal (.number z)) true]) := by
    have hrank (n : Nat) : DerivesExpr (.rank n) [l] (.literal (.number z)) none := by
      induction n with
      | zero => exact .bare h
      | succ n ih => exact .whole (.first ih) (by simp [Continues])
    have hwrite := @DerivesStmt.write true _ _ _ (hrank topRank)
    have hprogram : IsProgram ([.keyword .writelnKw, l] ++ [])
        (.block [.write (.literal (.number z)) true]) := .cons hwrite .nil
    exact parse_block_iff.2 hprogram
  have hp : compile "writeln #A" = .ok (.block [.write (.literal (.number x)) true]) := by
    simp [compile, hscan, hparse (.hex (by decide) hx)]
  have hq : compile "writeln 10.0" = .ok (.block [.write (.literal (.number y)) true]) := by
    simp [compile, hscan', hparse (.number hy)]
  have hfinite : FiniteNumbers "writeln #A" := by
    intro s hs t ht
    rw [hscan] at hs
    cases hs
    revert t
    decide +kernel
  have hfinite' : FiniteNumbers "writeln 10.0" := by
    intro s hs t ht
    rw [hscan'] at hs
    cases hs
    revert t
    decide +kernel
  have hrender : (Stmt.block [.write (.literal (.number x)) true]).render =
      "begin\nwriteln 10\nend" := by decide +kernel
  have hrender' : (Stmt.block [.write (.literal (.number y)) true]).render =
      "begin\nwriteln 10\nend" := by decide +kernel
  exact ⟨_, _, hp, hq, hrender, hrender',
    compile_render_injective hp hq hfinite hfinite' (hrender.trans hrender'.symm)⟩

end BlockScript
