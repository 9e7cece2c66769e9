import BlockScript.Proofs.NumberText

/-!
# What a double is worth

* `eq_of_unpack_eq`: a double is told by its sign, its mantissa and its exponent.
* `cases_of_double`: the doubles from zero up, their opposites, the infinities, and what is no
  number; `isFinite_iff`: the finite ones among them.
* `value`: the rational number that a finite double is.
* `IsMagnitude.wholePart_eq`: the magnitude without its fraction is the value rounded down.
* `one_le_iff`: comparisons of finite doubles are comparisons of their values.
-/

namespace BlockScript.Decimal

open Float.Model Float.Model.UnpackedFloat

variable {x : Float}

/-! ### Kinds of doubles -/

theorem eq_of_unpack_eq {x y : Float} (h : x.toModel.unpack = y.toModel.unpack) : x = y := by
  have hbits := (unpack_inj_of_valid x.toModel.valid y.toModel.valid).1 h
  exact Float.toBits_inj.1 (UInt64.toBitVec_inj.1 hbits)

theorem neg_involutive (x : Float) : - -x = x := by
  refine eq_of_unpack_eq ?_
  rw [unpack_neg, unpack_neg]
  cases x.toModel.unpack with
  | notANumber => rfl
  | infinity s | zero s | finite s => cases s <;> rfl

theorem isMagnitude_of_unpack {m : Nat} {e : Int} {hm : 0 < m}
    (h : x.toModel.unpack = .finite .positive m e hm) : IsMagnitude x := by
  have hplus : HasPlus x.toModel.unpack := by
    rw [h]
    rfl
  have hpack : Float.ofModel (Float.Model.pack x.toModel.unpack) = x := Float.ofBits_toBits x
  have hnonneg := isNonneg_of_hasPlus hplus
  rw [hpack] at hnonneg
  refine hnonneg.isMagnitude ?_
  rintro rfl
  have hinfinity : infinity.toModel.unpack = .infinity .positive := rfl
  rw [hinfinity] at h
  cases h

/-- A double is no number, infinite, or finite and from zero up or else the opposite of such a
double. -/
theorem cases_of_double (x : Float) :
    x = notANumber ∨ x = infinity ∨ x = -infinity ∨ IsMagnitude x ∨ IsMagnitude (-x) := by
  cases h : x.toModel.unpack with
  | notANumber => exact .inl (eq_of_unpack_eq h)
  | infinity s =>
    cases s with
    | positive => exact .inr (.inl (eq_of_unpack_eq h))
    | negative => exact .inr (.inr (.inl (eq_of_unpack_eq h)))
  | zero s =>
    have hzero : IsMagnitude zero := by decide
    cases s with
    | positive =>
      have hx : x = zero := eq_of_unpack_eq h
      exact .inr (.inr (.inr (.inl (hx ▸ hzero))))
    | negative =>
      have hx : x = -zero := eq_of_unpack_eq h
      refine .inr (.inr (.inr (.inr ?_)))
      rwa [hx, neg_involutive]
  | finite s m e hm =>
    cases s with
    | positive => exact .inr (.inr (.inr (.inl (isMagnitude_of_unpack h))))
    | negative =>
      have hneg : (-x).toModel.unpack = .finite .positive m e hm := by
        rw [unpack_neg, h]
        rfl
      exact .inr (.inr (.inr (.inr (isMagnitude_of_unpack hneg))))

theorem isFinite_neg (x : Float) : (-x).isFinite = x.isFinite := by
  change (-x).toModel.unpack.isFinite = x.toModel.unpack.isFinite
  rw [unpack_neg]
  cases x.toModel.unpack <;> rfl

theorem IsMagnitude.isFinite (h : IsMagnitude x) : x.isFinite = true := by
  obtain rfl | ⟨m, e, hm, hunpack⟩ := h.eq_zero_or
  · decide
  · change x.toModel.unpack.isFinite = true
    rw [hunpack]
    rfl

/-- The finite doubles are those from zero up and their opposites. -/
theorem isFinite_iff : x.isFinite = true ↔ IsMagnitude x ∨ IsMagnitude (-x) := by
  constructor
  · intro h
    obtain rfl | rfl | rfl | hx := cases_of_double x
    · exact absurd h (by decide)
    · exact absurd h (by decide)
    · exact absurd h (by decide)
    · exact hx
  · rintro (h | h)
    · exact h.isFinite
    · rw [← isFinite_neg]
      exact h.isFinite

theorem ne_infinity_of_isFinite (h : x.isFinite = true) : x ≠ infinity := by
  rintro rfl
  exact absurd h (by decide)

theorem isNaN_iff : x.isNaN = true ↔ x = notANumber := by
  have hnan : Float.nan = notANumber := by decide
  rw [Float.isNaN_eq_decide_eq_nan, decide_eq_true_iff, hnan]

theorem beq_infinity_iff : (x == infinity) = true ↔ x = infinity := by
  rw [Float.beq_iff_ne_nan_and_eq]
  constructor
  · rintro ⟨-, -, h | ⟨-, h⟩ | ⟨-, h⟩⟩
    · exact h
    · exact absurd h (by decide)
    · exact absurd h (by decide)
  · rintro rfl
    decide

/-! ### Values -/

/-- The rational number that a finite double is. What is no finite number counts as zero. -/
def value (x : Float) : ℚ :=
  match x.toModel.unpack with
  | .finite s m e _ => s.apply m * 2 ^ e
  | _ => 0

theorem value_neg (x : Float) : value (-x) = -value x := by
  unfold value
  rw [unpack_neg]
  cases x.toModel.unpack with
  | notANumber | infinity s | zero s => simp [UnpackedFloat.neg]
  | finite s m e hm => cases s <;> simp [UnpackedFloat.neg, Sign.apply]

/-- A positive double has the mantissa and the exponent that its bits tell. -/
theorem IsMagnitude.unpack_eq (h : IsMagnitude x) (hx : x ≠ zero) :
    ∃ hm, x.toModel.unpack =
      .finite .positive (binaryParts x).1 (((binaryParts x).2 : ℤ) - 1074) hm := by
  obtain ⟨e, m, hunpack, hbits⟩ := IsNonneg.exists_fields h.le
  have hm := m.isLt
  have he : e.toNat < 2047 := by
    unfold IsMagnitude infinityBits at h
    omega
  have hparts : binaryParts x =
      if e.toNat = 0 then (m.toNat, 0) else (m.toNat + 2 ^ 52, e.toNat - 1) := by
    have hmod : x.toBits.toNat % (1 <<< 63) = x.toBits.toNat := by
      show x.toBits.toNat % 2 ^ 63 = x.toBits.toNat
      omega
    have hfield : x.toBits.toNat / (1 <<< 52) = e.toNat := by
      show x.toBits.toNat / 2 ^ 52 = e.toNat
      omega
    have hfraction : x.toBits.toNat % (1 <<< 52) = m.toNat := by
      show x.toBits.toNat % 2 ^ 52 = m.toNat
      omega
    simp only [binaryParts, hmod, hfield, hfraction]
    rfl
  rw [unpack_ofFields] at hunpack
  split_ifs at hunpack with hmax hnum hmin hfraction
  · rw [hmax] at he
    exact absurd he (by decide)
  · rw [hmax] at he
    exact absurd he (by decide)
  · exact absurd (eq_of_unpack_eq (y := zero) hunpack) hx
  · subst hmin
    rw [hparts]
    exact ⟨_, hunpack⟩
  · have hne : e.toNat ≠ 0 := fun h0 => hmin (BitVec.eq_of_toNat_eq h0)
    have hmantissa : 2 ^ 52 + m.toNat = m.toNat + 2 ^ 52 := Nat.add_comm ..
    have hexponent : (e.toNat : ℤ) - 1075 = ((e.toNat - 1 : ℕ) : ℤ) - 1074 := by omega
    rw [hparts, if_neg hne, hunpack]
    exact ⟨by omega, by congr 1⟩

theorem IsMagnitude.value_eq (h : IsMagnitude x) :
    value x = (binaryParts x).1 * 2 ^ (((binaryParts x).2 : ℤ) - 1074) := by
  by_cases hx : x = zero
  · have hparts : binaryParts x = (0, 0) := by
      rw [hx]
      decide
    rw [hparts, hx]
    simp [value, show zero.toModel.unpack = .zero .positive from rfl]
  · obtain ⟨hm, hunpack⟩ := h.unpack_eq hx
    simp only [value, hunpack, Sign.apply, Int.cast_natCast]

/-- The magnitude without its fraction is the value rounded down. -/
theorem IsMagnitude.wholePart_eq (h : IsMagnitude x) : wholePart x = ⌊value x⌋₊ := by
  have hquotient : ((magnitude x).1 : ℚ) / (magnitude x).2 = value x := by
    rw [h.value_eq, magnitude]
    obtain ⟨m, e⟩ := binaryParts x
    dsimp only
    split_ifs with he
    · obtain ⟨k, rfl⟩ := Nat.exists_eq_add_of_le he
      simp [Nat.shiftLeft_eq]
    · have hexp : (e : ℤ) - 1074 = -((1074 - e : ℕ) : ℤ) := by omega
      rw [hexp, zpow_neg, zpow_natCast, ← div_eq_mul_inv]
      simp [Nat.shiftLeft_eq]
  rw [wholePart, ← hquotient, Nat.floor_div_eq_div]

/-! ### Comparisons -/

theorem le_iff_unpack {x y : Float} :
    x ≤ y ↔ x.toModel.unpack.le y.toModel.unpack = true := by
  change decide (x.toModel.unpack.le y.toModel.unpack = true) = true ↔ _
  rw [decide_eq_true_iff]

/-- One number with an exponent is less than another if its exponent is and the mantissa of the
other has all its bits. -/
theorem mul_zpow_lt_of_lt {m n : Nat} {d e : ℤ} (hm : m < 2 ^ 53) (hn : 2 ^ 52 ≤ n) (h : d < e) :
    (m : ℚ) * 2 ^ d < n * 2 ^ e := by
  have hm : (m : ℚ) < 2 ^ 53 := by exact_mod_cast hm
  have hn : (2 : ℚ) ^ 52 ≤ n := by exact_mod_cast hn
  calc (m : ℚ) * 2 ^ d < 2 ^ 53 * 2 ^ d := by gcongr
    _ = 2 ^ 52 * 2 ^ (d + 1) := by
      rw [zpow_add₀ (by norm_num)]
      ring
    _ ≤ 2 ^ 52 * 2 ^ e := by
      gcongr
      · norm_num
      · omega
    _ ≤ n * 2 ^ e := by gcongr

/-- Numbers with exponents compare first by the exponents if the mantissas have all their bits, or
the exponent is the least. -/
theorem isLE_then_iff {m n : Nat} {d e : ℤ} (hm : m < 2 ^ 53) (hn : n < 2 ^ 53)
    (hd : d = -1074 ∨ 2 ^ 52 ≤ m) (he : e = -1074 ∨ 2 ^ 52 ≤ n) (hd' : -1074 ≤ d)
    (he' : -1074 ≤ e) :
    ((compare d e).then (compare m n)).isLE = true ↔ (m : ℚ) * 2 ^ d ≤ n * 2 ^ e := by
  obtain h | rfl | h := lt_trichotomy d e
  · have hlt := mul_zpow_lt_of_lt hm (he.resolve_left (by omega)) h
    simp [Int.compare_eq_lt.2 h, Ordering.then, hlt.le]
  · have hpos : (0 : ℚ) < 2 ^ d := by positivity
    rw [mul_le_mul_iff_left₀ hpos, Nat.cast_le]
    simp [Ordering.then, Nat.isLE_compare]
  · have hlt := mul_zpow_lt_of_lt hn (hd.resolve_left (by omega)) h
    simp [Int.compare_eq_gt.2 h, Ordering.then, hlt]

theorem IsMagnitude.value_nonneg (h : IsMagnitude x) : 0 ≤ value x := by
  rw [h.value_eq]
  positivity

theorem IsMagnitude.value_pos (h : IsMagnitude x) (hx : x ≠ zero) : 0 < value x := by
  obtain ⟨hm, -⟩ := h.unpack_eq hx
  rw [h.value_eq]
  positivity

theorem value_zero : value zero = 0 := rfl

/-- Doubles from zero up compare as their values do. -/
theorem IsMagnitude.le_iff {y : Float} (hx : IsMagnitude x) (hy : IsMagnitude y) :
    x ≤ y ↔ value x ≤ value y := by
  have hzero : zero.toModel.unpack = .zero .positive := rfl
  rw [le_iff_unpack]
  by_cases hx0 : x = zero
  · have hle : zero.toModel.unpack.le y.toModel.unpack = true := by
      by_cases hy0 : y = zero
      · subst hy0
        rfl
      · obtain ⟨hn, hunpack⟩ := hy.unpack_eq hy0
        rw [hunpack, hzero]
        rfl
    subst hx0
    simp [hle, value_zero, hy.value_nonneg]
  obtain ⟨hm, hxu⟩ := hx.unpack_eq hx0
  by_cases hy0 : y = zero
  · subst hy0
    have hlt := hx.value_pos hx0
    rw [hxu, hzero, value_zero]
    exact iff_of_false (by simp [UnpackedFloat.le, UnpackedFloat.compare]) (by linarith)
  obtain ⟨hn, hyu⟩ := hy.unpack_eq hy0
  obtain ⟨-, hmlt, hd⟩ := binaryParts_spec hx
  obtain ⟨-, hnlt, he⟩ := binaryParts_spec hy
  rw [hxu, hyu, hx.value_eq, hy.value_eq,
    ← isLE_then_iff hmlt hnlt (hd.imp (by omega) id) (he.imp (by omega) id) (by omega) (by omega)]
  rfl

theorem value_one : value one = 1 := by
  have hunpack : one.toModel.unpack = .finite .positive (2 ^ 52) (-52) (by decide) := rfl
  simp only [value, hunpack, Sign.apply]
  norm_num

/-- Only the doubles from zero up have a positive value. -/
theorem isMagnitude_of_value_pos (h : 0 < value x) : IsMagnitude x := by
  obtain rfl | rfl | rfl | hx | hx := cases_of_double x
  · exact absurd h (lt_irrefl 0)
  · exact absurd h (lt_irrefl 0)
  · exact absurd h (lt_irrefl 0)
  · exact hx
  · have hnonneg := hx.value_nonneg
    rw [value_neg] at hnonneg
    linarith

/-- The opposite of a double from zero up is less than one. -/
theorem IsMagnitude.not_one_le (h : IsMagnitude (-x)) : ¬ one ≤ x := by
  rw [← neg_involutive x]
  by_cases hx : -x = zero
  · rw [hx]
    decide
  · obtain ⟨hm, hunpack⟩ := h.unpack_eq hx
    have hone : one.toModel.unpack = .finite .positive (2 ^ 52) (-52) (by decide) := rfl
    rw [le_iff_unpack, unpack_neg, hunpack, hone]
    simp [UnpackedFloat.neg, UnpackedFloat.le, UnpackedFloat.compare]

/-- The doubles from one up are infinity and the finite ones with such a value. -/
theorem one_le_iff (x : Float) : one ≤ x ↔ x = infinity ∨ 1 ≤ value x := by
  have hone : IsMagnitude one := by decide
  have hlarge : 1 ≤ value x → IsMagnitude x := fun h => isMagnitude_of_value_pos (by linarith)
  constructor
  · intro h
    obtain rfl | rfl | rfl | hx | hx := cases_of_double x
    · exact absurd h (by decide)
    · exact .inl rfl
    · exact absurd h (by decide)
    · rw [hone.le_iff hx, value_one] at h
      exact .inr h
    · exact absurd h hx.not_one_le
  · rintro (rfl | h)
    · decide
    · rwa [hone.le_iff (hlarge h), value_one]

end BlockScript.Decimal
