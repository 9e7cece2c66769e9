import BlockScript.Proofs.Blame
import BlockScript.Proofs.Composition
import BlockScript.Proofs.NumberText
import BlockScript.Proofs.Spelling
import BlockScript.Session

/-!
# Payloads of tokens

The scanner gives the parser well-formed tokens, so the parser finds every number readable but a
hexadecimal one without digits.

* `numberPayload?_of_isNumber`, `hexPayload?_of_isHexDigit`: the numbers that well-formed payloads
  denote.
* `eq_hex_of_atom_eq_error`: the one well-formed number that denotes nothing.
* `Cut.endsInText`: a text that ends in a backslash is the end of the program.
* `wellFormed_of_scan`: the form of the tokens of a program, and what the parser has from it.
-/

namespace BlockScript

open Piece Decimal Grammar

/-! ### Payloads that denote numbers -/

theorem ofText?_isSome {cs : List Char} (h : IsNumber cs) : (Numeral.ofText? cs).isSome := by
  cases h with
  | whole hne hds => simp [Numeral.ofText?_whole hne hds]
  | pointed hne hds hfs => simp [Numeral.ofText?_pointed hne hds hfs]

/-- No name of a value starts with a digit. -/
theorem namedValue?_eq_none {c : Char} (hc : isHexDigit c = true) (cs : List Char) :
    namedValue? (c :: cs) = none := by
  have hdigits : ∀ n < 128, isHexDigit (Char.ofNat n) = true →
      (Char.ofNat n).toLower ≠ 'i' ∧ (Char.ofNat n).toLower ≠ 'n' := by decide +kernel
  have hval : c.toNat < 128 := by
    simp only [isHexDigit, Char.isDigit, Bool.or_eq_true, Bool.and_eq_true, decide_eq_true_eq,
      UInt32.le_iff_toNat_le, Char.le_def] at hc
    have h9 : ('9').val.toNat = 57 := rfl
    have hf : ('f').val.toNat = 102 := rfl
    have hF : ('F').val.toNat = 70 := rfl
    change c.val.toNat < 128
    omega
  have hlower := hdigits c.toNat hval (by rwa [Char.ofNat_toNat])
  rw [Char.ofNat_toNat] at hlower
  simp [namedValue?, isWordOf, hlower]

/-- A text of digits and points has no exponent, so it denotes the double nearest to its numeral. -/
theorem readMagnitude?_of_inNumber {cs : List Char} (hname : namedValue? cs = none)
    (hin : ∀ c ∈ cs, inNumber c = true) :
    readMagnitude? cs = (Numeral.ofText? cs).map Numeral.nearest := by
  have hmark : ∀ c ∈ cs, (!(c == 'e' || c == 'E')) = true := by
    intro c hc
    have hc := hin c hc
    by_contra hcon
    simp only [Bool.not_eq_true', Bool.not_eq_false, Bool.or_eq_true, beq_iff_eq] at hcon
    rcases hcon with rfl | rfl
    · cases hc
    · cases hc
  have htake := takeWhile_of_stops hmark (stops_nil _)
  have hdrop := dropWhile_of_stops hmark (stops_nil _)
  rw [List.append_nil] at htake hdrop
  simp only [readMagnitude?, hname, htake, hdrop]
  cases Numeral.ofText? cs <;> rfl

theorem readMagnitude?_of_isNumber {cs : List Char} (h : IsNumber cs) :
    readMagnitude? cs = (Numeral.ofText? cs).map Numeral.nearest := by
  obtain ⟨c, r, rfl, hc⟩ := h.exists_eq_cons
  exact readMagnitude?_of_inNumber (namedValue?_eq_none (by simp [isHexDigit, hc]) r) h.inNumber

/-- Digits with at most one point denote the double nearest to their numeral. -/
theorem numberPayload?_of_isNumber {w : String} (h : IsNumber w.toList) :
    numberPayload? w = (Numeral.ofText? w.toList).map Numeral.nearest := by
  obtain ⟨c, cs, hcons, hc⟩ := h.exists_eq_cons
  rw [← readMagnitude?_of_isNumber h]
  unfold numberPayload? readLiteral?
  rw [hcons]
  split
  · next heq =>
    obtain ⟨rfl, -⟩ := List.cons.inj heq
    cases hc
  · next heq =>
    obtain ⟨rfl, -⟩ := List.cons.inj heq
    cases hc
  · rfl

theorem numberPayload?_isSome {w : String} (h : IsNumber w.toList) : (numberPayload? w).isSome := by
  rw [numberPayload?_of_isNumber h, Option.isSome_map]
  exact ofText?_isSome h

theorem hexValue?_isSome {c : Char} (h : isHexDigit c = true) : (hexValue? c).isSome := by
  simp only [isHexDigit, Bool.or_eq_true, Bool.and_eq_true, decide_eq_true_eq] at h
  unfold hexValue?
  split_ifs with hdigit hlower hupper
  · rfl
  · rfl
  · rfl
  · rcases h with (h | h) | h
    · exact absurd h hdigit
    · exact absurd h hlower
    · exact absurd h hupper

/-- Hexadecimal digits are taken up to the last, or up to one that does not fit. -/
theorem hexInteger_snd {cs : List Char} (h : ∀ c ∈ cs, isHexDigit c = true) (sig : Float) :
    (hexInteger sig cs).2 = [] := by
  induction cs generalizing sig with
  | nil => rfl
  | cons c cs ih =>
    obtain ⟨n, hn⟩ := Option.isSome_iff_exists.1 (hexValue?_isSome (h c (by simp)))
    simp only [hexInteger, hn, Option.map_some]
    split_ifs
    · rfl
    · exact ih (fun d hd => h d (by simp [hd])) _

/-- Hexadecimal digits denote the double that takes them up. -/
theorem hexPayload?_of_isHexDigit {w : String} (h : ∀ c ∈ w.toList, isHexDigit c = true)
    (hne : w ≠ "") : hexPayload? w = some (hexInteger zero w.toList).1 := by
  have hrest := hexInteger_snd h zero
  unfold hexPayload? readHex?
  cases hcons : w.toList with
  | nil => exact absurd (by simpa using hcons) hne
  | cons c cs =>
    rw [hcons] at h hrest
    have hc := h c (by simp)
    split
    · next heq =>
      -- a sign is no digit
      obtain ⟨rfl, -⟩ := List.cons.inj heq
      cases hc
    · simp only [readHexMagnitude?, namedValue?_eq_none hc]
      generalize hexInteger zero (c :: cs) = found at hrest
      obtain ⟨sig, rest⟩ := found
      obtain rfl : rest = [] := hrest
      rfl

theorem hexPayload?_isSome {w : String} (h : ∀ c ∈ w.toList, isHexDigit c = true) (hne : w ≠ "") :
    (hexPayload? w).isSome := by
  simp [hexPayload?_of_isHexDigit h hne]

/-- The one well-formed lexeme that should be a number and is none. -/
theorem eq_hex_of_atom_eq_error {l : Lexeme} (h : l.WellFormed)
    (hatom : atom l = .error .malformedNumber) : l = .hex "" := by
  cases l with
  | number w =>
    obtain ⟨x, hx⟩ := Option.isSome_iff_exists.1 (numberPayload?_isSome h)
    simp [atom, hx] at hatom
  | hex w =>
    by_contra hne
    obtain ⟨x, hx⟩ := Option.isSome_iff_exists.1 (hexPayload?_isSome h (by simpa using hne))
    simp [atom, hx] at hatom
  | _ => simp [atom] at hatom

/-! ### Texts that end in a backslash -/

theorem Piece.Valid.endsInText {p : Piece} (h : p.Valid) (hrest : EndsInText p.rest) :
    EndsInText (p.text ++ p.rest) := by
  obtain ⟨c, cs, hcons, hfirst⟩ := h.exists_first
  rw [hcons]
  exact .behind hfirst hrest

theorem Cut.eq_nil {behind : List Char} {line : Nat} {cs : List Char} {ts : List Token}
    (h : Cut behind line cs ts) (hcs : cs = []) : ts = [] := by
  cases h with
  | nil => rfl
  | skipped h => exact absurd (List.append_eq_nil_iff.1 hcs).1 h.ne_nil
  | lexeme h => exact absurd (List.append_eq_nil_iff.1 hcs).1 h.ne_nil

/-- A text that ends in a backslash is the last token, and its literal is not closed. -/
theorem Cut.endsInText {line : Nat} {cs : List Char} {ts : List Token} (h : Cut [] line cs ts)
    {before after : List Token} {t : Token} {w : String} (hts : ts = before ++ t :: after)
    (ht : t.lexeme = .text w) (hlast : w.toList.getLast? = some '\\') :
    after = [] ∧ EndsInText cs := by
  induction h generalizing before with
  | nil => simp at hts
  | skipped h hcs ih =>
    rw [List.append_nil] at h
    obtain ⟨hafter, hends⟩ := ih hts
    exact ⟨hafter, Valid.endsInText (p := ⟨none, _, _⟩) h hends⟩
  | lexeme h hcs ih =>
    rw [List.append_nil] at h
    cases before with
    | nil =>
      obtain ⟨rfl, rfl⟩ := List.cons.inj hts
      obtain rfl : _ = Lexeme.text w := ht
      cases h with
      | text hb hlast' =>
        rw [String.toList_ofList] at hlast
        exact absurd hlast (hb.getLast?_ne hlast')
      | openText hb =>
        rw [List.append_nil]
        exact ⟨hcs.eq_nil rfl, .here hb.not_closes⟩
    | cons t' before =>
      obtain ⟨-, hts⟩ := List.cons.inj hts
      obtain ⟨hafter, hends⟩ := ih hts
      exact ⟨hafter, Valid.endsInText (p := ⟨some _, _, _⟩) h hends⟩

/-! ### Tokens of a program -/

/-- A token that the parser finds to be a malformed number is one of those it was given. -/
theorem atom_eq_error_of_parse {ts : List Token} {e : ParseError} (h : parse ts = .error e)
    (hfault : e.fault = .malformedNumber) :
    e.source ∈ ts ∧ atom e.source.lexeme = .error .malformedNumber := by
  obtain ⟨s, hread, rfl⟩ := parse_eq_error_iff.1 h
  obtain ⟨t, r, hunread, hatom⟩ := (stuck_of_readProgram hread).atom_eq_error hfault
  obtain ⟨us, hts, -⟩ := readProgram_explained ts s hread
  have hsource : (s.toError ts).source = t := by simp [Stop.toError, hunread]
  rw [hsource]
  refine ⟨?_, hatom⟩
  rw [hts, hunread]
  simp

/-- **The tokens of a program are well-formed.** A text ends in a backslash only if it is the last
token and its literal is not closed. So the parser finds no malformed number but a hexadecimal one
without digits. -/
theorem wellFormed_of_scan {code : String} {s : Scanned} (h : scan code = .ok s) :
    (∀ t ∈ s.tokens, t.lexeme.WellFormed) ∧
      (∀ before t after w, s.tokens = before ++ t :: after → t.lexeme = .text w →
        w.toList.getLast? = some '\\' → after = [] ∧ EndsInText code.toList) ∧
      ∀ e, compile code = .error (.parse e) → e.fault = .malformedNumber →
        e.source ∈ s.tokens ∧ e.source.lexeme = .hex "" := by
  have hcompile : ∀ e, compile code = .error (.parse e) → parse s.tokens = .error e := by
    intro e he
    unfold compile at he
    rw [h] at he
    cases hparse : parse s.tokens with
    | ok p => simp [hparse] at he
    | error e' => simpa [hparse] using he
  unfold scan at h
  obtain ⟨ts, hcut, rfl⟩ := scanFrom_eq_ok_iff.1 h
  refine ⟨hcut.wellFormed, fun before t after w hts => hcut.endsInText hts, fun e he hfault => ?_⟩
  obtain ⟨hmem, hatom⟩ := atom_eq_error_of_parse (hcompile e he) hfault
  exact ⟨hmem, eq_hex_of_atom_eq_error (hcut.wellFormed _ hmem) hatom⟩

theorem wellFormed_assign_hex_text :
    ∃ s, scan "x := # \"\\" = .ok s ∧ (∀ t ∈ s.tokens, t.lexeme.WellFormed) ∧
      EndsInText "x := # \"\\".toList ∧
      compile "x := # \"\\" = .error (.parse ⟨.malformedNumber, ⟨.hex "", 1⟩⟩) ∧
      ⟨.hex "", 1⟩ ∈ s.tokens := by
  have hscan : scan "x := # \"\\" =
      .ok ⟨[⟨.word "x", 1⟩, ⟨.symbol .assign, 1⟩, ⟨.hex "", 1⟩, ⟨.text "\\", 1⟩], 1⟩ := by
    decide +kernel
  have hexpr : plain (readExpr [⟨.hex "", 1⟩, ⟨.text "\\", 1⟩]) =
      .error ⟨.malformedNumber, [⟨.hex "", 1⟩, ⟨.text "\\", 1⟩]⟩ :=
    readRank_eq_error (by simp) rfl (by simp [atom, hexPayload?_empty]) topRank _
  have hread : readProgram
      [⟨.word "x", 1⟩, ⟨.symbol .assign, 1⟩, ⟨.hex "", 1⟩, ⟨.text "\\", 1⟩] =
        .error ⟨.malformedNumber, [⟨.hex "", 1⟩, ⟨.text "\\", 1⟩]⟩ := by
    rw [readProgram_cons, plain_readStatement_word rfl, plain_readAssignment]
    simp [take, Except.bind, Except.map, hexpr]
  have hcompile : compile "x := # \"\\" = .error (.parse ⟨.malformedNumber, ⟨.hex "", 1⟩⟩) := by
    simp [compile, hscan, parse, hread, Stop.toError]
  obtain ⟨hwell, hlast, hsource⟩ := wellFormed_of_scan hscan
  have hends := hlast [⟨.word "x", 1⟩, ⟨.symbol .assign, 1⟩, ⟨.hex "", 1⟩] ⟨.text "\\", 1⟩ [] "\\"
    rfl rfl (by decide)
  exact ⟨_, hscan, hwell, hends.2, hcompile, (hsource _ hcompile rfl).1⟩

end BlockScript
