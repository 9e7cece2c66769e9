import BlockScript.Proofs.Decomposition

/-!
# Where the scanner stops

The scanner goes through the lexemes and the skipped text of a program until it stands in front of a
fault. There are three kinds of fault: a number with a second point, the first half of a symbol of
two characters, and a comment that is never closed.

* `ScanFault.At`: a text starts with the fault.
* `Piece.number_eq_error_iff`, `Piece.symbolOrSkipped_eq_error_iff`, …: where one class has a fault.
* `Piece.first_eq_error_iff`: where the first piece of any text has one.
* `scan_eq_error_iff`: a program that is not scanned has a fault behind lexemes and skipped text,
  and is blamed for it on the line where it starts.
-/

namespace BlockScript

open Character Piece

/-- The text starts with the fault. -/
inductive ScanFault.At : ScanFault → List Char → Prop
  /-- A second point follows a number that has one. -/
  | secondPoint {ds fs r : List Char} (hne : ds ≠ []) (hds : ∀ c ∈ ds, c.isDigit = true)
      (hfs : ∀ c ∈ fs, c.isDigit = true) :
      At (.malformedNumber (String.ofList (ds ++ '.' :: fs ++ ['.']))) (ds ++ '.' :: fs ++ '.' :: r)
  | colon {r : List Char} (h : r.head? ≠ some '=') : At (.unknownOperator ":") (':' :: r)
  | equals {r : List Char} (h : r.head? ≠ some '=') : At (.unknownOperator "=") ('=' :: r)
  /-- No brace closes the comment. -/
  | openComment {r : List Char} (h : '}' ∉ r) : At .unterminatedComment ('{' :: r)

theorem ScanFault.At.exists_eq_cons {f : ScanFault} {cs : List Char} (h : f.At cs) :
    ∃ c r, cs = c :: r := by
  cases h with
  | secondPoint hne => exact List.exists_cons_of_ne_nil (by simp [hne])
  | colon | equals | openComment => exact ⟨_, _, rfl⟩

/-! ### The first fault of a text -/

namespace Piece

variable {c : Char} {cs : List Char} {f : ScanFault}

/-- Digits with two points among them are no number. -/
theorem number_eq_error_iff : number cs = .error f ↔
    ∃ ds fs r, (∀ c ∈ ds, c.isDigit = true) ∧ (∀ c ∈ fs, c.isDigit = true) ∧
      cs = ds ++ '.' :: fs ++ '.' :: r ∧
      f = .malformedNumber (String.ofList (ds ++ '.' :: fs ++ ['.'])) := by
  constructor
  · intro h
    have hcs := List.takeWhile_append_dropWhile (p := Char.isDigit) (l := cs)
    unfold number at h
    simp only at h
    split at h
    · next r hr =>
      have hfraction := List.takeWhile_append_dropWhile (p := Char.isDigit) (l := r)
      split at h
      · next r' hr' =>
        cases h
        refine ⟨_, _, r', fun d hd => List.mem_takeWhile_imp hd,
          fun d hd => List.mem_takeWhile_imp hd, ?_, rfl⟩
        rw [List.append_assoc, List.cons_append, ← hr', hfraction, ← hr, hcs]
      · cases h
    · cases h
  · rintro ⟨ds, fs, r, hds, hfs, rfl, rfl⟩
    have hpoint (b : List Char) : Stops Char.isDigit ('.' :: b) := by
      rw [stops_cons_iff]
      decide
    unfold number
    rw [List.append_assoc, List.cons_append]
    simp only [takeWhile_of_stops hds (hpoint _), dropWhile_of_stops hds (hpoint _),
      takeWhile_of_stops hfs (hpoint r), dropWhile_of_stops hfs (hpoint r)]

theorem blockComment_eq_error_iff :
    blockComment cs = .error f ↔ '}' ∉ cs ∧ f = .unterminatedComment := by
  unfold blockComment
  cases hdrop : cs.dropWhile (· != '}') with
  | nil =>
    have hclosed : '}' ∉ cs := by
      intro hmem
      have := List.dropWhile_eq_nil_iff.1 hdrop '}' hmem
      simp at this
    simp [hclosed, eq_comm]
  | cons d r =>
    have hclosed : '}' ∈ cs := by
      by_contra hmem
      rw [List.dropWhile_eq_nil_iff.2 fun e he => by
        rw [bne_iff_ne]
        rintro rfl
        exact hmem he] at hdrop
      cases hdrop
    simp [hclosed]

/-- Where a symbol starts, a symbol of one character does, apart from two cases. -/
theorem exists_single_or (s : Symbol) :
    (∃ s' : Symbol, s'.spelling.toList = s.spelling.toList.take 1) ∨ s = .assign ∨ s = .equal := by
  have hall : ∀ s ∈ Symbol.all,
      (∃ s' ∈ Symbol.all, s'.spelling.toList = s.spelling.toList.take 1) ∨
        s = .assign ∨ s = .equal := by decide
  exact (hall s s.mem_all).imp (fun ⟨s', _, h⟩ => ⟨s', h⟩) id

theorem symbolOrSkipped_eq_error : symbolOrSkipped c cs = .error f ↔
    (∀ s : Symbol, ¬ s.spelling.toList <+: c :: cs) ∧
      (∃ s : Symbol, s.spelling.toList.head? = some c) ∧
        f = .unknownOperator (String.ofList [c]) := by
  have hnone : (Symbol.all.find? fun s => s.spelling.toList.isPrefixOf (c :: cs)) = none ↔
      ∀ s : Symbol, ¬ s.spelling.toList <+: c :: cs := by
    simp [List.find?_eq_none, Symbol.mem_all, List.isPrefixOf_iff_prefix]
  have hstart : (Symbol.all.any fun s => s.spelling.toList.head? == some c) = true ↔
      ∃ s : Symbol, s.spelling.toList.head? = some c := by
    simp [List.any_eq_true, Symbol.mem_all]
  rw [← hnone, ← hstart]
  unfold symbolOrSkipped
  cases Symbol.all.find? fun s => s.spelling.toList.isPrefixOf (c :: cs) with
  | some s => simp
  | none =>
    dsimp only
    split_ifs with h
    · simp [h, eq_comm]
    · simp [h]

/-- Only two characters start a symbol without being one, and only where the character is missing
that would make them one. -/
theorem symbolOrSkipped_eq_error_iff : symbolOrSkipped c cs = .error f ↔
    (c = ':' ∨ c = '=') ∧ cs.head? ≠ some '=' ∧ f = .unknownOperator (String.ofList [c]) := by
  rw [symbolOrSkipped_eq_error, ← and_assoc, ← and_assoc, and_congr_left_iff]
  rintro -
  constructor
  · rintro ⟨hnone, s, hs⟩
    have hpair (hspelling : s.spelling.toList = [c, '=']) : cs.head? ≠ some '=' := by
      intro hnext
      obtain ⟨r, rfl⟩ := List.head?_eq_some_iff.1 hnext
      exact hnone s (by rw [hspelling]; exact ⟨r, rfl⟩)
    rcases exists_single_or s with ⟨s', hs'⟩ | rfl | rfl
    · obtain ⟨r, hr⟩ := List.head?_eq_some_iff.1 hs
      refine absurd ?_ (hnone s')
      rw [hs', hr]
      exact ⟨cs, rfl⟩
    · cases hs
      exact ⟨.inl rfl, hpair rfl⟩
    · cases hs
      exact ⟨.inr rfl, hpair rfl⟩
  · rintro ⟨hc, hnext⟩
    refine ⟨?_, ?_⟩
    · rintro s ⟨r, hr⟩
      apply hnext
      rcases hc with rfl | rfl
      · cases s <;> cases hr
        rfl
      · cases s <;> cases hr
        rfl
    · rcases hc with rfl | rfl
      · exact ⟨.assign, rfl⟩
      · exact ⟨.equal, rfl⟩

theorem first_eq_symbolOrSkipped {s : Symbol} (hs : s.spelling.toList.head? = some c)
    (hslash : c ≠ '/') : first c cs = symbolOrSkipped c cs := by
  obtain ⟨hdigit, hletter, hhash, hquote, hbrace⟩ := Symbol.first_char hs
  simp [first, hdigit, hletter, hhash, hquote, hbrace, hslash]

/-- **The first piece of a text** is missing exactly where the text starts with a fault. -/
theorem first_eq_error_iff : first c cs = .error f ↔ f.At (c :: cs) := by
  constructor
  · intro h
    unfold first at h
    split_ifs at h with hdigit hhash hquote hslash hbrace hletter
    · obtain ⟨ds, fs, r, hds, hfs, hcs, rfl⟩ := number_eq_error_iff.1 h
      have hne : ds ≠ [] := by
        rintro rfl
        cases hcs
        cases hdigit
      rw [hcs]
      exact .secondPoint hne hds hfs
    · obtain ⟨hclosed, rfl⟩ := blockComment_eq_error_iff.1 h
      rw [hbrace]
      exact .openComment hclosed
    · obtain ⟨rfl | rfl, hnext, rfl⟩ := symbolOrSkipped_eq_error_iff.1 h
      · exact .colon hnext
      · exact .equals hnext
  · intro h
    generalize hcs : c :: cs = text at h
    cases h with
    | @secondPoint ds fs r hne hds hfs =>
      obtain ⟨d, ds, rfl⟩ := List.exists_cons_of_ne_nil hne
      have hdigit : c.isDigit = true := by
        cases hcs
        exact hds c (by simp)
      rw [first, if_pos hdigit, hcs]
      exact number_eq_error_iff.2 ⟨_, fs, r, hds, hfs, rfl, rfl⟩
    | colon hnext =>
      cases hcs
      have hfirst : first ':' cs = symbolOrSkipped ':' cs :=
        first_eq_symbolOrSkipped (s := .assign) rfl (by decide)
      rw [hfirst]
      exact symbolOrSkipped_eq_error_iff.2 ⟨.inl rfl, hnext, rfl⟩
    | equals hnext =>
      cases hcs
      have hfirst : first '=' cs = symbolOrSkipped '=' cs :=
        first_eq_symbolOrSkipped (s := .equal) rfl (by decide)
      rw [hfirst]
      exact symbolOrSkipped_eq_error_iff.2 ⟨.inr rfl, hnext, rfl⟩
    | openComment hclosed =>
      cases hcs
      exact first_brace_of_not_mem hclosed

end Piece

/-! ### The fault of a program -/

/-- **A program that is not scanned** has a fault behind lexemes and skipped text, and is blamed for
it on the line where it starts. Each of the lexemes is the longest one at its place, with the fault
and all that follows behind it. -/
theorem scan_eq_error_iff {code : String} {e : ScanError} :
    scan code = .error e ↔ ∃ p r ts, code.toList = p ++ r ∧ Cut r 1 p ts ∧ e.fault.At r ∧
      e.line = 1 + p.count '\n' := by
  unfold scan
  constructor
  · intro h
    obtain ⟨p, r, ts, hcode, hcut, hstuck⟩ := exists_cut 1 code.toList
    rw [hcode, hcut.scanFrom_append] at h
    cases r with
    | nil =>
      rw [scanFrom_nil] at h
      cases h
    | cons c r =>
      obtain ⟨f, hf⟩ := hstuck c r rfl
      rw [scanFrom_cons_error hf] at h
      cases h
      exact ⟨p, c :: r, ts, hcode, hcut, first_eq_error_iff.1 hf, rfl⟩
  · rintro ⟨p, r, ts, hcode, hcut, hfault, hline⟩
    obtain ⟨c, r, rfl⟩ := hfault.exists_eq_cons
    rw [hcode, hcut.scanFrom_append, scanFrom_cons_error (first_eq_error_iff.2 hfault), ← hline]

end BlockScript
