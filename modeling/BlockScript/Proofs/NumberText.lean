import BlockScript.Proofs.Doubles
import BlockScript.Proofs.LexicalGrammar
import BlockScript.Value

/-!
# Numbers and their text

A number from zero up is written out with digits and at most one point, and reading these digits
gives the number back.

* `Numeral.isNumber_text`, `Numeral.ofText?_text`: a numeral that is written out and read.
* `nearestBits_of_eq`: a quotient that is a double is its own nearest double.
* `nearest_shortest`: the double nearest to the shortest numeral of a double.
* `isNumber_numberText`, `numberText_injective`: the text of a number.
-/

namespace BlockScript

namespace Decimal

/-! ### Numerals -/

namespace Numeral

theorem ofText?_whole {ds : List Char} (hne : ds ≠ []) (hds : ∀ c ∈ ds, c.isDigit = true) :
    ofText? ds = some ⟨ofDigits ds, 0⟩ := by
  have htake := takeWhile_of_stops hds (stops_nil _)
  have hdrop := dropWhile_of_stops hds (stops_nil _)
  rw [List.append_nil] at htake hdrop
  simp [ofText?, htake, hdrop, hne]

theorem ofText?_pointed {ds fs : List Char} (hne : ds ≠ []) (hds : ∀ c ∈ ds, c.isDigit = true)
    (hfs : ∀ c ∈ fs, c.isDigit = true) :
    ofText? (ds ++ '.' :: fs) = some ⟨ofDigits (ds ++ fs), fs.length⟩ := by
  have hstop : Stops Char.isDigit ('.' :: fs) := stops_cons_iff.2 (by decide)
  have hall : fs.all Char.isDigit = true := List.all_eq_true.2 hfs
  simp only [ofText?, takeWhile_of_stops hds hstop, dropWhile_of_stops hds hstop]
  simp [hall, hne]

theorem isDigit_of_mem_digits {n : Numeral} : ∀ c ∈ n.digits, c.isDigit = true := by
  intro c hc
  rcases List.mem_append.1 hc with hc | hc
  · rw [List.eq_of_mem_replicate hc]
    decide
  · exact Nat.isDigit_of_mem_toDigits (by decide) (by decide) hc

theorem places_lt_length_digits (n : Numeral) : n.places < n.digits.length := by
  have hpos := Nat.length_toDigits_pos (b := 10) (n := n.mantissa)
  simp only [digits, List.length_append, List.length_replicate]
  omega

theorem ofDigits_digits (n : Numeral) : ofDigits n.digits = n.mantissa := by
  change Nat.ofDigitChars 10 n.digits 0 = n.mantissa
  rw [digits, Nat.ofDigitChars_append, Nat.ofDigitChars_replicate_zero, Nat.mul_zero,
    Nat.ofDigitChars_ten_toDigits]

/-- The text of a numeral is all its digits, or those before the point and those behind it. -/
theorem text_cases (n : Numeral) :
    (n.places = 0 ∧ n.text = n.digits) ∨
      ∃ ds fs, n.text = ds ++ '.' :: fs ∧ ds ≠ [] ∧ ds ++ fs = n.digits ∧ fs.length = n.places := by
  have hlength := n.places_lt_length_digits
  unfold text
  split_ifs with h
  · exact .inl ⟨h, rfl⟩
  · refine .inr ⟨_, _, rfl, ?_, List.take_append_drop _ _, ?_⟩
    · refine List.ne_nil_of_length_pos ?_
      rw [List.length_take]
      omega
    · rw [List.length_drop]
      omega

theorem isNumber_text (n : Numeral) : IsNumber n.text := by
  have hdigits := n.isDigit_of_mem_digits
  obtain ⟨-, htext⟩ | ⟨ds, fs, htext, hne, happend, -⟩ := n.text_cases
  · rw [htext]
    exact .whole (List.ne_nil_of_length_pos (by have := n.places_lt_length_digits; omega)) hdigits
  · rw [← happend] at hdigits
    rw [htext]
    exact .pointed hne (fun c hc => hdigits c (List.mem_append_left _ hc))
      fun c hc => hdigits c (List.mem_append_right _ hc)

/-- A numeral is read from its text. -/
theorem ofText?_text (n : Numeral) : ofText? n.text = some n := by
  have hdigits := n.isDigit_of_mem_digits
  have hmantissa := n.ofDigits_digits
  obtain ⟨hplaces, htext⟩ | ⟨ds, fs, htext, hne, happend, hplaces⟩ := n.text_cases
  · have hne : n.digits ≠ [] :=
      List.ne_nil_of_length_pos (by have := n.places_lt_length_digits; omega)
    rw [htext, ofText?_whole hne hdigits, hmantissa, ← hplaces]
  · rw [← happend] at hdigits
    rw [htext, ofText?_pointed hne (fun c hc => hdigits c (List.mem_append_left _ hc))
      fun c hc => hdigits c (List.mem_append_right _ hc), happend, hmantissa, hplaces]

end Numeral

/-! ### Quotients that are doubles -/

theorem scaled_pos {a b : Nat} (hb : 0 < b) (e : Int) : 0 < (scaled a b e).2 := by
  simp only [scaled, Nat.shiftLeft_eq]
  positivity

theorem scaled_eq {a b : Nat} (hb : 0 < b) (e : Int) :
    ((scaled a b e).1 : ℚ) = (a : ℚ) / b * 2 ^ (-e) * (scaled a b e).2 := by
  have hb' : (b : ℚ) ≠ 0 := by positivity
  simp only [scaled, Nat.shiftLeft_eq, Nat.cast_mul, Nat.cast_pow, Nat.cast_ofNat]
  obtain he | he := le_total 0 e
  · obtain ⟨n, rfl⟩ := Int.eq_ofNat_of_zero_le he
    simp
    field_simp
  · obtain ⟨n, hn⟩ := Int.eq_ofNat_of_zero_le (neg_nonneg.2 he)
    obtain rfl : e = -n := by omega
    simp
    field_simp

section Exponent

variable {a b : Nat}

theorem log2_bounds (ha : 0 < a) :
    (2 : ℚ) ^ (a.log2 : ℤ) ≤ a ∧ (a : ℚ) < 2 ^ ((a.log2 : ℤ) + 1) := by
  have hlower := Nat.log2_self_le ha.ne'
  have hupper := Nat.lt_log2_self (n := a)
  constructor
  · rw [zpow_natCast]
    exact_mod_cast hlower
  · rw [← Nat.cast_succ, zpow_natCast]
    exact_mod_cast hupper

/-- The number of bits tells a quotient up to a factor of four. -/
theorem quotient_bounds (ha : 0 < a) (hb : 0 < b) :
    (2 : ℚ) ^ ((a.log2 : ℤ) - b.log2 - 1) ≤ (a : ℚ) / b ∧
      (a : ℚ) / b < 2 ^ ((a.log2 : ℤ) - b.log2 + 1) := by
  obtain ⟨hal, hau⟩ := log2_bounds ha
  obtain ⟨hbl, hbu⟩ := log2_bounds hb
  have hb' : (0 : ℚ) < b := by positivity
  rw [le_div_iff₀ hb', div_lt_iff₀ hb']
  constructor
  · calc (2 : ℚ) ^ ((a.log2 : ℤ) - b.log2 - 1) * b
        ≤ 2 ^ ((a.log2 : ℤ) - b.log2 - 1) * 2 ^ ((b.log2 : ℤ) + 1) := by gcongr
      _ = 2 ^ (a.log2 : ℤ) := by
        rw [← zpow_add₀ (by norm_num)]
        congr 1
        omega
      _ ≤ a := hal
  · calc (a : ℚ) < 2 ^ ((a.log2 : ℤ) + 1) := hau
      _ = 2 ^ ((a.log2 : ℤ) - b.log2 + 1) * 2 ^ (b.log2 : ℤ) := by
        rw [← zpow_add₀ (by norm_num)]
        congr 1
        omega
      _ ≤ 2 ^ ((a.log2 : ℤ) - b.log2 + 1) * b := by gcongr

theorem scaled_lt_iff (hb : 0 < b) (e : Int) :
    (scaled a b e).1 < (scaled a b e).2 <<< 53 ↔ (a : ℚ) / b < 2 ^ (53 + e) := by
  have hpos : (0 : ℚ) < (scaled a b e).2 := by exact_mod_cast scaled_pos hb e
  have htwo : (0 : ℚ) < 2 ^ e := by positivity
  rw [← Nat.cast_lt (α := ℚ), scaled_eq hb, Nat.shiftLeft_eq, Nat.cast_mul, mul_comm,
    mul_lt_mul_iff_right₀ hpos, zpow_neg, ← div_eq_mul_inv, div_lt_iff₀ htwo,
    zpow_add₀ (by norm_num)]
  norm_num

/-- The exponent of the last bit is the one with which a quotient has 53 bits, or the least. -/
theorem binaryExponent_eq (ha : 0 < a) (hb : 0 < b) {e : Int} (hlt : (a : ℚ) / b < 2 ^ (53 + e))
    (hle : e = -1074 ∨ -1074 ≤ e ∧ 2 ^ (52 + e) ≤ (a : ℚ) / b) : binaryExponent a b = e := by
  obtain ⟨hlower, hupper⟩ := quotient_bounds ha hb
  have hexp {i j : Int} (hi : (2 : ℚ) ^ i ≤ (a : ℚ) / b) (hj : (a : ℚ) / b < 2 ^ j) : i < j :=
    (zpow_lt_zpow_iff_right₀ (by norm_num)).1 (hi.trans_lt hj)
  have hmax {i : Int} (hi : (2 : ℚ) ^ (52 + i) ≤ (a : ℚ) / b) (hj : (a : ℚ) / b < 2 ^ (53 + i)) :
      max i (-1074) = e := by
    have h1 := hexp hi hlt
    obtain rfl | ⟨hmin, hle⟩ := hle
    · omega
    · have h2 := hexp hle hj
      omega
  unfold binaryExponent
  dsimp only
  split_ifs with htest
  · rw [scaled_lt_iff hb] at htest
    refine hmax (le_of_eq_of_le (congrArg _ ?_) hlower) htest
    omega
  · rw [scaled_lt_iff hb, not_lt] at htest
    refine hmax (le_of_eq_of_le (congrArg _ ?_) htest) (lt_of_lt_of_eq hupper (congrArg _ ?_))
    · omega
    · omega

end Exponent

theorem roundHalfEven_mul (m : Nat) {d : Nat} (hd : 0 < d) : roundHalfEven (m * d) d = m := by
  simp [roundHalfEven, Nat.mul_div_cancel _ hd, hd]

/-- A quotient that is a double is its own nearest double. -/
theorem nearestBits_of_eq {a b m e : Nat} (ha : 0 < a) (hb : 0 < b)
    (h : (a : ℚ) / b = m * 2 ^ ((e : ℤ) - 1074)) (hm : m < 2 ^ 53) (he : e = 0 ∨ 2 ^ 52 ≤ m) :
    nearestBits a b = min (e * 2 ^ 52 + m) infinityBits := by
  have htwo : (0 : ℚ) < 2 ^ ((e : ℤ) - 1074) := by positivity
  have hexp : binaryExponent a b = (e : ℤ) - 1074 := by
    refine binaryExponent_eq ha hb ?_ (he.imp (by omega) fun hm => ⟨by omega, ?_⟩)
    · rw [h, zpow_add₀ (by norm_num)]
      gcongr
      exact_mod_cast hm
    · rw [h, zpow_add₀ (by norm_num)]
      gcongr
      exact_mod_cast hm
  have hpos := scaled_pos (a := a) hb ((e : ℤ) - 1074)
  have hexact : (scaled a b ((e : ℤ) - 1074)).1 = m * (scaled a b ((e : ℤ) - 1074)).2 := by
    have hscaled := scaled_eq (a := a) hb ((e : ℤ) - 1074)
    rw [h, zpow_neg, mul_assoc (m : ℚ), mul_inv_cancel₀ htwo.ne', mul_one] at hscaled
    exact_mod_cast hscaled
  unfold nearestBits
  simp only [ha.ne', if_false, hexp]
  rw [hexact, roundHalfEven_mul m hpos, Nat.shiftLeft_eq]
  simp

/-! ### The shortest numeral -/

section Shortest

variable {x : Float}

/-- The bits of a double from zero up are its exponent and its mantissa, one above the other. -/
theorem binaryParts_spec (h : IsMagnitude x) :
    x.toBits.toNat = (binaryParts x).2 * 2 ^ 52 + (binaryParts x).1 ∧
      (binaryParts x).1 < 2 ^ 53 ∧ ((binaryParts x).2 = 0 ∨ 2 ^ 52 ≤ (binaryParts x).1) := by
  unfold IsMagnitude infinityBits at h
  have hmod : x.toBits.toNat % (1 <<< 63) = x.toBits.toNat :=
    Nat.mod_eq_of_lt (h.trans (by decide))
  have hshift : 1 <<< 52 = 2 ^ 52 := rfl
  simp only [binaryParts, hmod, hshift]
  split_ifs
  · refine ⟨?_, ?_, .inl rfl⟩ <;> dsimp only <;> omega
  · refine ⟨?_, ?_, .inr ?_⟩ <;> dsimp only <;> omega

theorem value_exactNumeral (x : Float) :
    ((exactNumeral x).mantissa : ℚ) / Nat.pow 10 (exactNumeral x).places =
      (binaryParts x).1 * 2 ^ (((binaryParts x).2 : ℤ) - 1074) := by
  unfold exactNumeral
  obtain ⟨m, e⟩ := binaryParts x
  dsimp only
  split_ifs with he
  · obtain ⟨k, rfl⟩ := Nat.exists_eq_add_of_le he
    simp [Nat.shiftLeft_eq]
  · obtain ⟨k, hk⟩ := Nat.exists_eq_add_of_lt (not_le.1 he)
    have hexp : (e : ℤ) - 1074 = -((1074 - e : ℕ) : ℤ) := by omega
    rw [hexp, zpow_neg, zpow_natCast]
    simp only [Nat.pow_eq, Nat.cast_mul, Nat.cast_pow, Nat.cast_ofNat]
    rw [show (10 : ℚ) = 2 * 5 by norm_num, mul_pow]
    field_simp

theorem nearest_exactNumeral (h : IsMagnitude x) (hx : x ≠ zero) :
    (exactNumeral x).nearest = x := by
  obtain ⟨hbits, hm, he⟩ := binaryParts_spec h
  have hvalue := value_exactNumeral x
  have hne : (binaryParts x).1 ≠ 0 := by
    refine fun hzero => hx (Float.toBits_inj.1 (UInt64.toNat_inj.1 ?_))
    have hbits : x.toBits.toNat = 0 := by omega
    rw [hbits]
    decide
  have hpos : 0 < (exactNumeral x).mantissa := by
    refine Nat.pos_of_ne_zero fun hzero => hne ?_
    simpa [hzero, zpow_ne_zero] using hvalue
  have hnearest := nearestBits_of_eq hpos (Nat.pow_pos (by decide)) hvalue hm he
  rw [← hbits, Nat.min_eq_left (Nat.le_of_lt h)] at hnearest
  refine Float.toBits_inj.1 (UInt64.toNat_inj.1 ?_)
  rw [Numeral.nearest, Nat.pow_eq, hnearest, toBits_ofBits (Nat.le_of_lt h)]

theorem nearest_of_onGrid? {p : Int} {n : Numeral} (h : onGrid? x p = some n) : n.nearest = x := by
  simp only [onGrid?] at h
  split at h
  · next hbelow habove =>
    split at h
    · cases h
      exact of_decide_eq_true hbelow
    · cases h
      exact of_decide_eq_true habove
  · next hbelow _ =>
    cases h
    exact of_decide_eq_true hbelow
  · next _ habove =>
    cases h
    exact of_decide_eq_true habove
  · cases h

/-- The shortest numeral of a double reads back as the double. -/
theorem nearest_shortest (h : IsMagnitude x) (hx : x ≠ zero) : (shortest x).nearest = x := by
  unfold shortest
  dsimp only
  cases hfound : List.findSome? (onGrid? x) _ with
  | none => exact nearest_exactNumeral h hx
  | some n =>
    obtain ⟨p, -, hp⟩ := List.exists_of_findSome?_eq_some hfound
    exact nearest_of_onGrid? hp

end Shortest

end Decimal

/-! ### Numbers written out -/

open Decimal Float.Model

/-- A finite number other than zero is written out as a numeral, behind its sign if it has one. -/
theorem numberText_of_unpack {x : Float} {s : UnpackedFloat.Sign} {m : Nat} {e : Int} {hm : 0 < m}
    (hunpack : x.toModel.unpack = .finite s m e hm) :
    numberText x = if x < zero then "-" ++ String.ofList (shortest (-x)).text
      else String.ofList (shortest x).text := by
  have hnan : x.isNaN = false := by
    change x.toModel.unpack.isNaN = false
    rw [hunpack]
    rfl
  have hdiffers {y : Float} {f : UnpackedFloat} (hy : y.toModel.unpack = f)
      (hf : (UnpackedFloat.finite s m e hm).beq f = false) : (x == y) = false := by
    change x.toModel.unpack.beq y.toModel.unpack = false
    rwa [hunpack, hy]
  have hne : (x == infinity) = false :=
    hdiffers (f := .infinity .positive) rfl (by cases s <;> rfl)
  have hne' : (x == -infinity) = false :=
    hdiffers (f := .infinity .negative) rfl (by cases s <;> rfl)
  have hnonzero : (x == zero) = false :=
    hdiffers (f := .zero .positive) rfl (by cases s <;> rfl)
  simp only [numberText, hnan, hne, hne', hnonzero, Bool.false_eq_true, if_false]

theorem lt_zero_iff_unpack {x : Float} :
    x < zero ↔ x.toModel.unpack.lt (.zero .positive) = true := by
  change decide (x.toModel.unpack.lt (.zero .positive) = true) = true ↔ _
  rw [decide_eq_true_iff]

/-- A number that is positive and finite is written out as its shortest numeral. -/
theorem numberText_of_ne_zero {x : Float} (h : IsMagnitude x) (hx : x ≠ zero) :
    numberText x = String.ofList (shortest x).text := by
  obtain rfl | ⟨m, e, hm, hunpack⟩ := h.eq_zero_or
  · exact absurd rfl hx
  have hnonneg : ¬ x < zero := by
    rw [lt_zero_iff_unpack, hunpack]
    rintro ⟨⟩
  rw [numberText_of_unpack hunpack, if_neg hnonneg]

/-- The text of a number from zero up is the text of a numeral that reads back as the number. -/
theorem exists_numeral {x : Float} (h : IsMagnitude x) :
    ∃ n : Numeral, (numberText x).toList = n.text ∧ n.nearest = x := by
  by_cases hx : x = zero
  · subst hx
    exact ⟨⟨0, 0⟩, by decide, by decide⟩
  · exact ⟨shortest x, by rw [numberText_of_ne_zero h hx, String.toList_ofList],
      nearest_shortest h hx⟩

theorem isNumber_numberText {x : Float} (h : IsMagnitude x) : IsNumber (numberText x).toList := by
  obtain ⟨n, htext, -⟩ := exists_numeral h
  rw [htext]
  exact n.isNumber_text

/-- Different numbers from zero up have different texts. -/
theorem numberText_injective {x y : Float} (hx : IsMagnitude x) (hy : IsMagnitude y)
    (h : numberText x = numberText y) : x = y := by
  obtain ⟨n, hn, rfl⟩ := exists_numeral hx
  obtain ⟨m, hm, rfl⟩ := exists_numeral hy
  have htext : n.text = m.text := by rw [← hn, ← hm, h]
  have hread := n.ofText?_text
  rw [htext, m.ofText?_text] at hread
  cases hread
  rfl

end BlockScript
