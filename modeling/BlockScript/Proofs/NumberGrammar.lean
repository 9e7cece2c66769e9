import BlockScript.Proofs.Payload

/-!
# Texts that are read as numbers

A text denotes a number if it is a decimal numeral with an optional sign, or the text of a number
that is not finite, between blanks. A numeral without a sign denotes the number that it is as a
literal of a program.

* `Trimmed`: a text without the blanks at its ends; `trimmed_trimBlank`, `Trimmed.trimBlank_eq`:
  there is exactly one.
* `IsDecimal`, `IsSigned`: the grammar of numerals; `isDecimal_iff_counts`: the same by counting.
* `readTrimmed?_isSome_iff`, `readTrimmed?_of_isSigned`: which texts are read, and as what.
* `scan_of_isNumber`: a number is a program of one token.
* `readNumber?_iff_and_literal`: all this together.
-/

namespace BlockScript

open Character Piece Decimal Grammar

/-! ### Blanks at the ends -/

/-- The text `s` is what is left of `cs` without the blanks at its two ends. -/
structure Trimmed (cs s : List Char) : Prop where
  exists_blanks : ∃ before after, cs = before ++ s ++ after ∧
    (∀ c ∈ before, isBlank c = true) ∧ ∀ c ∈ after, isBlank c = true
  head_not_blank : ∀ c ∈ s.head?, isBlank c = false
  last_not_blank : ∀ c ∈ s.getLast?, isBlank c = false

theorem trimmed_trimBlank (cs : List Char) : Trimmed cs (trimBlank cs) := by
  have hleft := List.takeWhile_append_dropWhile (p := isBlank) (l := cs)
  have hstops := stops_dropWhile isBlank cs
  unfold trimBlank trimBlankRight
  generalize cs.dropWhile isBlank = mid at hleft hstops ⊢
  have hright := List.takeWhile_append_dropWhile (p := isBlank) (l := mid.reverse)
  have hmid : mid = (mid.reverse.dropWhile isBlank).reverse ++
      (mid.reverse.takeWhile isBlank).reverse := by
    rw [← List.reverse_append, hright, List.reverse_reverse]
  refine ⟨⟨cs.takeWhile isBlank, (mid.reverse.takeWhile isBlank).reverse, ?_, ?_, ?_⟩, ?_, ?_⟩
  · rw [List.append_assoc, ← hmid, hleft]
  · exact fun c hc => List.mem_takeWhile_imp hc
  · exact fun c hc => List.mem_takeWhile_imp (List.mem_reverse.1 hc)
  · intro c hc
    refine hstops c ?_
    rw [hmid, List.head?_append, Option.mem_def.1 hc]
    rfl
  · intro c hc
    rw [List.getLast?_reverse] at hc
    exact stops_dropWhile isBlank mid.reverse c hc

/-- There is one text without the blanks at its ends. -/
theorem Trimmed.trimBlank_eq {cs s : List Char} (h : Trimmed cs s) : trimBlank cs = s := by
  obtain ⟨⟨before, after, rfl, hbefore, hafter⟩, hhead, hlast⟩ := h
  cases hs : s with
  | nil =>
    have hblank : ∀ c ∈ before ++ after, isBlank c = true := fun c hc =>
      (List.mem_append.1 hc).elim (hbefore c) (hafter c)
    have hdrop := dropWhile_of_stops hblank (stops_nil _)
    rw [List.append_nil] at hdrop
    rw [List.append_nil, trimBlank, hdrop]
    rfl
  | cons d r =>
    rw [← hs]
    have hfront : Stops isBlank (s ++ after) := by
      rw [hs] at hhead ⊢
      exact hhead
    have hback : Stops isBlank s.reverse := by
      intro c hc
      rw [List.head?_reverse] at hc
      exact hlast c hc
    have hafter : ∀ c ∈ after.reverse, isBlank c = true := fun c hc =>
      hafter c (List.mem_reverse.1 hc)
    rw [trimBlank, List.append_assoc, dropWhile_of_stops hbefore hfront, trimBlankRight,
      List.reverse_append, dropWhile_of_stops hafter hback, List.reverse_reverse]

/-! ### Numerals -/

/-- Digits with at most one point among them, before the first or behind the last as well. -/
inductive IsDecimal : List Char → Prop
  | number {cs : List Char} (h : IsNumber cs) : IsDecimal cs
  | fraction {fs : List Char} (hne : fs ≠ []) (hfs : ∀ c ∈ fs, c.isDigit = true) :
      IsDecimal ('.' :: fs)

/-- A numeral, possibly behind one sign. -/
inductive IsSigned : List Char → Prop
  | unsigned {cs : List Char} (h : IsDecimal cs) : IsSigned cs
  | plus {cs : List Char} (h : IsDecimal cs) : IsSigned ('+' :: cs)
  | minus {cs : List Char} (h : IsDecimal cs) : IsSigned ('-' :: cs)

section Decimal

variable {cs : List Char}

theorem IsDecimal.inNumber (h : IsDecimal cs) : ∀ c ∈ cs, inNumber c = true := by
  cases h with
  | number h => exact h.inNumber
  | fraction hne hfs =>
    intro c hc
    obtain rfl | hc := List.mem_cons.1 hc
    · rfl
    · simp [BlockScript.inNumber, hfs c hc]

theorem IsDecimal.exists_eq_cons (h : IsDecimal cs) :
    ∃ c r, cs = c :: r ∧ BlockScript.inNumber c = true := by
  cases cs with
  | nil =>
    cases h with
    | number h =>
      obtain ⟨c, r, hcons, -⟩ := h.exists_eq_cons
      cases hcons
  | cons c r => exact ⟨c, r, rfl, h.inNumber c (by simp)⟩

theorem forall_isDigit_of_not_mem (hcs : ∀ c ∈ cs, c.isDigit = true ∨ c = '.') (hpoint : '.' ∉ cs) :
    ∀ c ∈ cs, c.isDigit = true :=
  fun c hc => (hcs c hc).resolve_right fun heq => hpoint (heq ▸ hc)

theorem point_not_mem {ds : List Char} (hds : ∀ c ∈ ds, c.isDigit = true) : '.' ∉ ds :=
  fun hmem => absurd (hds '.' hmem) (by decide)

/-- A numeral has a digit, nothing but digits and points, and at most one point. -/
theorem isDecimal_iff_counts : IsDecimal cs ↔
    (∃ c ∈ cs, c.isDigit = true) ∧ (∀ c ∈ cs, c.isDigit = true ∨ c = '.') ∧ cs.count '.' ≤ 1 := by
  constructor
  · intro h
    refine ⟨?_, fun c hc => by simpa [BlockScript.inNumber] using h.inNumber c hc, ?_⟩
    · cases h with
      | number h =>
        obtain ⟨c, r, rfl, hc⟩ := h.exists_eq_cons
        exact ⟨c, by simp, hc⟩
      | fraction hne hfs =>
        obtain ⟨c, hc⟩ := List.exists_mem_of_ne_nil _ hne
        exact ⟨c, by simp [hc], hfs c hc⟩
    · cases h with
      | fraction hne hfs => simp [List.count_eq_zero.2 (point_not_mem hfs)]
      | number h =>
        cases h with
        | whole hne hds => simp [List.count_eq_zero.2 (point_not_mem hds)]
        | pointed hne hds hfs =>
          simp [List.count_eq_zero.2 (point_not_mem hds), List.count_eq_zero.2 (point_not_mem hfs)]
  · rintro ⟨⟨d, hd, hdigit⟩, hall, hcount⟩
    by_cases hpoint : '.' ∈ cs
    · obtain ⟨ds, fs, rfl⟩ := List.append_of_mem hpoint
      simp only [List.count_append, List.count_cons_self] at hcount
      have hds : ∀ c ∈ ds, c.isDigit = true := by
        refine forall_isDigit_of_not_mem (fun c hc => hall c (by simp [hc])) ?_
        exact List.count_eq_zero.1 (by omega)
      have hfs : ∀ c ∈ fs, c.isDigit = true := by
        refine forall_isDigit_of_not_mem (fun c hc => hall c (by simp [hc])) ?_
        exact List.count_eq_zero.1 (by omega)
      by_cases hne : ds = []
      · subst hne
        refine .fraction ?_ hfs
        rintro rfl
        obtain rfl : d = '.' := by simpa using hd
        cases hdigit
      · exact .number (.pointed hne hds hfs)
    · exact .number (.whole (List.ne_nil_of_mem hd) (forall_isDigit_of_not_mem hall hpoint))

theorem ofText?_isSome_iff : (Numeral.ofText? cs).isSome = true ↔ IsDecimal cs := by
  have hsplit := List.takeWhile_append_dropWhile (p := Char.isDigit) (l := cs)
  have hds : ∀ c ∈ cs.takeWhile Char.isDigit, c.isDigit = true := fun c hc =>
    List.mem_takeWhile_imp hc
  constructor
  · intro h
    simp only [Numeral.ofText?] at h
    split at h
    · next hrest =>
      split_ifs at h with hempty
      · cases h
      · rw [hrest, List.append_nil] at hsplit
        rw [← hsplit]
        exact .number (.whole (by simpa using hempty) hds)
    · next c fraction hrest =>
      split_ifs at h with hform
      · simp only [Bool.and_eq_true, beq_iff_eq, List.all_eq_true, Bool.not_eq_true',
          Bool.and_eq_false_iff] at hform
        obtain ⟨⟨rfl, hfs⟩, hsome⟩ := hform
        rw [← hsplit, hrest]
        by_cases hne : cs.takeWhile Char.isDigit = []
        · rw [hne]
          refine .fraction ?_ hfs
          simpa [hne] using hsome
        · exact .number (.pointed hne hds hfs)
      · cases h
  · intro h
    cases h with
    | number h => exact ofText?_isSome h
    | fraction hne hfs => simp [Numeral.ofText?, List.all_eq_true.2 hfs, hne]

theorem readMagnitude?_of_isDecimal (h : IsDecimal cs) :
    readMagnitude? cs = (Numeral.ofText? cs).map Numeral.nearest := by
  cases h with
  | number h => exact readMagnitude?_of_isNumber h
  | fraction hne hfs =>
    refine readMagnitude?_of_inNumber ?_ (IsDecimal.fraction hne hfs).inNumber
    simp [namedValue?, isWordOf]

theorem readMagnitude?_isSome (h : IsDecimal cs) : (readMagnitude? cs).isSome = true := by
  rw [readMagnitude?_of_isDecimal h, Option.isSome_map]
  exact ofText?_isSome_iff.2 h

/-- The text is that of a number that is not finite. -/
def IsNonFiniteText (cs : List Char) : Prop :=
  cs = "Infinity".toList ∨ cs = "-Infinity".toList ∨ cs = "NaN".toList

/-- No numeral is the text of a number that is not finite. -/
theorem IsSigned.not_isNonFiniteText (h : IsSigned cs) : ¬ IsNonFiniteText cs := by
  -- the second character of each such text stands in no numeral
  have hsecond : ∃ c r, cs = c :: r ∧ ∀ d ∈ r, BlockScript.inNumber d = true := by
    cases h with
    | plus h | minus h => exact ⟨_, _, rfl, h.inNumber⟩
    | unsigned h =>
      obtain ⟨c, r, rfl, -⟩ := h.exists_eq_cons
      exact ⟨c, r, rfl, fun d hd => h.inNumber d (by simp [hd])⟩
  obtain ⟨c, r, rfl, hr⟩ := hsecond
  rintro (h | h | h)
  · obtain ⟨-, rfl⟩ := List.cons.inj h
    exact absurd (hr 'n' (by decide)) (by decide)
  · obtain ⟨-, rfl⟩ := List.cons.inj h
    exact absurd (hr 'n' (by decide)) (by decide)
  · obtain ⟨-, rfl⟩ := List.cons.inj h
    exact absurd (hr 'a' (by decide)) (by decide)

/-- A numeral is read as the literal that it is. -/
theorem readTrimmed?_of_isSigned (h : IsSigned cs) :
    (readLiteral? cs).isSome = true ∧ readTrimmed? cs = readLiteral? cs := by
  have hnot := h.not_isNonFiniteText
  simp only [IsNonFiniteText, not_or] at hnot
  unfold readTrimmed?
  rw [if_neg hnot.1, if_neg hnot.2.1, if_neg hnot.2.2]
  cases h with
  | plus h => exact ⟨readMagnitude?_isSome h, (readMagnitude?_of_isDecimal h).symm⟩
  | minus h =>
    refine ⟨?_, ?_⟩
    · simpa [readLiteral?] using readMagnitude?_isSome h
    · simp [readLiteral?, readMagnitude?_of_isDecimal h, Function.comp_def]
  | unsigned h =>
    obtain ⟨c, r, rfl, hc⟩ := h.exists_eq_cons
    have hminus : c ≠ '-' := by
      rintro rfl
      cases hc
    have hplus : c ≠ '+' := by
      rintro rfl
      cases hc
    have hliteral : readLiteral? (c :: r) = readMagnitude? (c :: r) := by
      simp [readLiteral?, hminus, hplus]
    rw [hliteral]
    exact ⟨readMagnitude?_isSome h, by simp [hminus, hplus, readMagnitude?_of_isDecimal h]⟩

/-- The texts that denote numbers. -/
theorem readTrimmed?_isSome_iff :
    (readTrimmed? cs).isSome = true ↔ IsNonFiniteText cs ∨ IsSigned cs := by
  constructor
  · intro h
    unfold readTrimmed? at h
    split_ifs at h with h1 h2 h3
    · exact .inl (.inl h1)
    · exact .inl (.inr (.inl h2))
    · exact .inl (.inr (.inr h3))
    · refine .inr ?_
      split at h
      · rw [Option.isSome_map, ofText?_isSome_iff] at h
        exact .minus h
      · rw [Option.isSome_map, ofText?_isSome_iff] at h
        exact .plus h
      · rw [Option.isSome_map, ofText?_isSome_iff] at h
        exact .unsigned h
  · rintro (h | h)
    · unfold readTrimmed?
      rcases h with rfl | rfl | rfl <;> rfl
    · rw [(readTrimmed?_of_isSigned h).2]
      exact (readTrimmed?_of_isSigned h).1

end Decimal

/-! ### Numbers in a program -/

/-- A number is a program of one token. -/
theorem scan_of_isNumber {w : String} (h : IsNumber w.toList) :
    scan w = .ok ⟨[⟨.number w, 1⟩], 1⟩ := by
  have hlongest : Longest IsNumber w.toList [] := ⟨h, fun u hu _ => List.prefix_nil.1 hu⟩
  have hwritten : (Lexeme.number w).Written w.toList [] := by
    simpa using Lexeme.Written.number hlongest (by simp)
  have hlines : w.toList.count '\n' = 0 := by
    refine List.count_eq_zero.2 fun hmem => ?_
    exact absurd (h.inNumber _ hmem) (by decide)
  have hscan := hwritten.scanFrom_append 1 []
  rw [List.append_nil, hlines] at hscan
  rw [scan, hscan, scanFrom_nil]
  rfl

theorem trimBlank_of_not_blank {cs : List Char} (h : ∀ c ∈ cs, isBlank c = false) :
    trimBlank cs = cs :=
  Trimmed.trimBlank_eq ⟨⟨[], [], by simp, by simp, by simp⟩,
    fun c hc => h c (List.mem_of_mem_head? hc), fun c hc => h c (List.mem_of_mem_getLast? hc)⟩

/-- No blank stands in a number. -/
theorem isBlank_of_inNumber {c : Char} (h : inNumber c = true) : isBlank c = false := by
  have hval : 46 ≤ c.toNat ∧ c.toNat ≤ 57 := by
    simp only [inNumber, Char.isDigit, Bool.or_eq_true, Bool.and_eq_true, decide_eq_true_eq,
      UInt32.le_iff_toNat_le, ge_iff_le, beq_iff_eq] at h
    obtain ⟨h, h'⟩ | rfl := h
    · exact ⟨le_trans (by decide) h, h'⟩
    · decide
  have hranges : ∀ r ∈ blankRanges, r.2 < 46 ∨ 57 < r.1 := by decide
  rw [← Bool.not_eq_true, isBlank, Range.covers_iff]
  rintro ⟨r, hr, hfirst, hlast⟩
  have := hranges r hr
  omega

/-- As a text, a number of a program denotes what it denotes as a literal. -/
theorem readNumber?_of_isNumber {w : String} (h : IsNumber w.toList) :
    readNumber? w = numberPayload? w := by
  have htrim := trimBlank_of_not_blank fun c hc => isBlank_of_inNumber (h.inNumber c hc)
  rw [readNumber?, htrim, (readTrimmed?_of_isSigned (.unsigned (.number h))).2, numberPayload?]

theorem readPrimary_of_isNumber {w : String} (h : IsNumber w.toList) (line : Nat) :
    plain (readPrimary [⟨.number w, line⟩]) =
      .ok (.literal (.number (Value.text w).toNumber), []) := by
  obtain ⟨x, hx⟩ := Option.isSome_iff_exists.1 (numberPayload?_isSome h)
  have hvalue : (Value.text w).toNumber = x := by
    rw [Value.toNumber, readNumber?_of_isNumber h, hx]
    rfl
  rw [plain_readPrimary_atom (by simp), hvalue]
  simp [atom, hx]

/-! ### Texts as numbers -/

/-- The text without its sign, if it starts with one. -/
def dropSign : List Char → List Char
  | '+' :: r => r
  | '-' :: r => r
  | r => r

theorem isSigned_iff_dropSign {cs : List Char} : IsSigned cs ↔ IsDecimal (dropSign cs) := by
  constructor
  · intro h
    cases h with
    | plus h | minus h => exact h
    | unsigned h =>
      obtain ⟨c, r, rfl, hc⟩ := h.exists_eq_cons
      have hsame : dropSign (c :: r) = c :: r := by
        unfold dropSign
        split
        · next heq =>
          obtain ⟨rfl, -⟩ := List.cons.inj heq
          cases hc
        · next heq =>
          obtain ⟨rfl, -⟩ := List.cons.inj heq
          cases hc
        · rfl
      rwa [hsame]
  · intro h
    unfold dropSign at h
    split at h
    · exact .plus h
    · exact .minus h
    · exact .unsigned h

/-- The grammar of signed numerals, by counting. -/
theorem isSigned_iff_counts {cs : List Char} : IsSigned cs ↔
    (∃ c ∈ dropSign cs, c.isDigit = true) ∧ (∀ c ∈ dropSign cs, c.isDigit = true ∨ c = '.') ∧
      (dropSign cs).count '.' ≤ 1 := by
  rw [isSigned_iff_dropSign, isDecimal_iff_counts]

/-- **The grammar of texts that denote numbers.** A text denotes a number exactly if between its
blanks stands the text of a number that is not finite or a numeral with at most one sign: a digit,
nothing but digits and points, and at most one point. A numeral denotes what it denotes as a
literal, and every other text counts as zero. A number as it stands in a program is one token, and
its literal is what its text denotes. -/
theorem readNumber?_iff_and_literal :
    (∀ t : String, let s := trimBlank t.toList
      Trimmed t.toList s ∧
        ((readNumber? t).isSome = true ↔ IsNonFiniteText s ∨ IsSigned s) ∧
        (IsSigned s ↔ (∃ c ∈ dropSign s, c.isDigit = true) ∧
          (∀ c ∈ dropSign s, c.isDigit = true ∨ c = '.') ∧ (dropSign s).count '.' ≤ 1) ∧
        (IsSigned s → (readLiteral? s).isSome = true ∧ readNumber? t = readLiteral? s) ∧
        (¬ (IsNonFiniteText s ∨ IsSigned s) → (Value.text t).toNumber = zero)) ∧
      ∀ w : String, IsNumber w.toList →
        scan w = .ok ⟨[⟨.number w, 1⟩], 1⟩ ∧
          plain (readPrimary [⟨.number w, 1⟩]) =
            .ok (.literal (.number (Value.text w).toNumber), []) := by
  refine ⟨fun t => ⟨trimmed_trimBlank _, readTrimmed?_isSome_iff, isSigned_iff_counts,
    readTrimmed?_of_isSigned, fun h => ?_⟩,
    fun w h => ⟨scan_of_isNumber h, readPrimary_of_isNumber h 1⟩⟩
  rw [← readTrimmed?_isSome_iff, Bool.not_eq_true, Option.isSome_eq_false_iff,
    Option.isNone_iff_eq_none] at h
  rw [Value.toNumber, readNumber?, h]
  rfl

/-- A signed numeral between blanks, a text with two points, and a number. -/
theorem readNumber?_signed_and_literal :
    IsSigned "-4.".toList ∧ readNumber? " -4.\t" = readLiteral? "-4.".toList ∧
      ¬ (IsNonFiniteText "1.2.3".toList ∨ IsSigned "1.2.3".toList) ∧
      (Value.text "1.2.3").toNumber = zero ∧
      IsNumber "10.".toList ∧ scan "10." = .ok ⟨[⟨.number "10.", 1⟩], 1⟩ ∧
      plain (readPrimary [⟨.number "10.", 1⟩]) =
        .ok (.literal (.number (Value.text "10.").toNumber), []) := by
  obtain ⟨htexts, hnumbers⟩ := readNumber?_iff_and_literal
  have hblanks : trimBlank " -4.\t".toList = "-4.".toList := by decide +kernel
  have hpoints : trimBlank "1.2.3".toList = "1.2.3".toList := by decide +kernel
  have hsigned : IsSigned "-4.".toList := by simp [isSigned_iff_counts, dropSign]
  have hnone : ¬ (IsNonFiniteText "1.2.3".toList ∨ IsSigned "1.2.3".toList) := by
    simp [isSigned_iff_counts, dropSign, IsNonFiniteText]
  have hnumber : IsNumber "10.".toList := by
    have hsplit : "10.".toList = ['1', '0'] ++ '.' :: [] := by decide +kernel
    rw [hsplit]
    exact .pointed (by simp) (by simp) (by simp)
  have hread := (htexts " -4.\t").2.2.2.1
  have hzero := (htexts "1.2.3").2.2.2.2
  rw [hblanks] at hread
  rw [hpoints] at hzero
  exact ⟨hsigned, (hread hsigned).2, hnone, hzero hnone, hnumber, hnumbers "10." hnumber⟩

end BlockScript
