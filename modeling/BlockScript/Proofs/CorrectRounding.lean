import BlockScript.Proofs.NumberValue

/-!
# Arithmetic goes to the nearest double

What two doubles from zero up add up to, differ by, multiply and divide to is the double nearest to
the exact result.

* `nearestDouble a b`: the double nearest to `a / b`.
* `Stands`: a mantissa with the two bits behind it stands for a quotient; `Stands.roundedMantissa`:
  rounding it is rounding the quotient.
* `toNat_pack_round`: a rounded mantissa with an exponent is the nearest double.
* `IsMagnitude.eq_nearestDouble`, `IsMagnitude.eq_iff_value`: a double and its value.
* `IsMagnitude.add_eq`, `IsMagnitude.sub_eq`, `IsMagnitude.mul_eq`, `IsMagnitude.div_eq`: the
  operations.
-/

namespace BlockScript.Decimal

open Float.Model Float.Model.UnpackedFloat

/-- The double nearest to `a / b`. -/
def nearestDouble (a b : ℕ) : Float :=
  Float.ofBits (nearestBits a b).toUInt64

/-! ### Rounding a quotient -/

theorem eq_zero_of_div_eq_zero {a b : ℕ} (hb : 0 < b) (h : (a : ℚ) / b = 0) : a = 0 := by
  have hb' : (b : ℚ) ≠ 0 := by positivity
  exact_mod_cast (div_eq_zero_iff.1 h).resolve_right hb'

theorem pos_of_div_pos {a b : ℕ} (h : 0 < (a : ℚ) / b) : 0 < a := by
  refine Nat.pos_of_ne_zero ?_
  rintro rfl
  rw [Nat.cast_zero, zero_div] at h
  exact lt_irrefl _ h

theorem roundHalfEven_mul_mul {c : ℕ} (hc : 0 < c) (n d : ℕ) :
    roundHalfEven (c * n) (c * d) = roundHalfEven n d := by
  have hdouble : 2 * (c * (n % d)) = c * (2 * (n % d)) := by ring
  simp only [roundHalfEven, Nat.mul_div_mul_left _ _ hc, Nat.mul_mod_mul_left, hdouble,
    Nat.mul_lt_mul_left hc]

/-- Rounding depends on the quotient only. -/
theorem roundHalfEven_congr {n d n' d' : ℕ} (hd : 0 < d) (hd' : 0 < d') (h : n * d' = n' * d) :
    roundHalfEven n d = roundHalfEven n' d' := by
  rw [← roundHalfEven_mul_mul hd' n d, ← roundHalfEven_mul_mul hd n' d', Nat.mul_comm d' n, h,
    Nat.mul_comm n' d, Nat.mul_comm d' d]

theorem roundHalfEven_bounds (n d : ℕ) :
    n / d ≤ roundHalfEven n d ∧ roundHalfEven n d ≤ n / d + 1 := by
  unfold roundHalfEven
  dsimp only
  split_ifs <;> omega

/-- The mantissa is the quotient `n / d` rounded down. The first bit behind it tells whether at
least half a unit is missing, the second whether anything but nothing or just this half is. -/
structure Stands (em : ExtendedMantissa) (n d : ℕ) : Prop where
  mantissa_eq : em.mantissa = n / d
  roundBit_iff : em.roundBit = true ↔ d ≤ 2 * (n % d)
  stickyBit_iff : em.stickyBit = true ↔ 2 * (n % d) % d ≠ 0

namespace Stands

variable {em : ExtendedMantissa} {n d : ℕ}

theorem ofFraction (hd : 0 < d) :
    Stands (.ofMantissaAndAccuracy (n / d) (accuracyOfFraction (n % d) d)) n d := by
  have hr := Nat.mod_lt n hd
  unfold accuracyOfFraction
  split_ifs with hexact
  · exact ⟨rfl, by simp [ExtendedMantissa.ofMantissaAndAccuracy, hexact, hd.ne'],
      by simp [ExtendedMantissa.ofMantissaAndAccuracy, hexact]⟩
  · obtain hlt | heq | hgt := lt_trichotomy (2 * (n % d)) d
    · have hmod : 2 * (n % d) % d = 2 * (n % d) := Nat.mod_eq_of_lt hlt
      rw [Nat.compare_eq_lt.2 hlt]
      refine ⟨rfl, ?_, ?_⟩
      · simp [ExtendedMantissa.ofMantissaAndAccuracy, hlt]
      · rw [hmod]
        simp [ExtendedMantissa.ofMantissaAndAccuracy]
        omega
    · rw [Nat.compare_eq_eq.2 heq]
      exact ⟨rfl, by simp [ExtendedMantissa.ofMantissaAndAccuracy, heq],
        by simp [ExtendedMantissa.ofMantissaAndAccuracy, heq]⟩
    · have hmod : 2 * (n % d) % d = 2 * (n % d) - d := by
        rw [Nat.mod_eq_sub_mod hgt.le, Nat.mod_eq_of_lt (by omega)]
      rw [Nat.compare_eq_gt.2 hgt]
      refine ⟨rfl, ?_, ?_⟩
      · simp [ExtendedMantissa.ofMantissaAndAccuracy, hgt.le]
      · rw [hmod]
        simp [ExtendedMantissa.ofMantissaAndAccuracy]
        omega

theorem exact (m : ℕ) : Stands (.ofMantissaAndAccuracy m .exact) m 1 := by
  have h := ofFraction (n := m) Nat.one_pos
  rwa [Nat.div_one, Nat.mod_one] at h

/-- A bit that is shifted out halves the unit. -/
theorem shiftRightOne (h : Stands em n d) (hd : 0 < d) : Stands em.shiftRightOne n (2 * d) := by
  have hr := Nat.mod_lt n hd
  have hmod : n % (2 * d) = n % d + d * (n / d % 2) := by
    rw [Nat.mul_comm, Nat.mod_mul]
  have hbit : n / d % 2 = 0 ∨ n / d % 2 = 1 := by omega
  have htwice : 2 * (n % (2 * d)) % (2 * d) = 2 * (n % d) := by
    rw [Nat.mul_mod_mul_left, Nat.mod_mod_of_dvd _ (Dvd.intro_left 2 rfl)]
  refine ⟨?_, ?_, ?_⟩
  · rw [ExtendedMantissa.shiftRightOne, h.mantissa_eq, Nat.div_div_eq_div_mul, Nat.mul_comm]
  · simp only [ExtendedMantissa.shiftRightOne, h.mantissa_eq, hmod, bne_iff_ne]
    rcases hbit with hbit | hbit <;> rw [hbit] <;> omega
  · simp only [ExtendedMantissa.shiftRightOne, Bool.or_eq_true, h.roundBit_iff, h.stickyBit_iff,
      htwice]
    obtain hlt | hle := lt_or_ge (2 * (n % d)) d
    · rw [Nat.mod_eq_of_lt hlt]
      omega
    · omega

theorem shiftRight (h : Stands em n d) (hd : 0 < d) (k : ℕ) : Stands (em >>> k) n (d * 2 ^ k) := by
  induction k with
  | zero => rwa [pow_zero, Nat.mul_one]
  | succ k ih =>
    have hstep := ih.shiftRightOne (by positivity)
    rwa [← mul_assoc, Nat.mul_comm 2 d, mul_assoc, ← pow_succ'] at hstep

/-- Rounding by the two bits is rounding the quotient. -/
theorem roundedMantissa (h : Stands em n d) (hd : 0 < d) :
    em.roundedMantissa = roundHalfEven n d := by
  have hr := Nat.mod_lt n hd
  obtain ⟨m, round, sticky⟩ := em
  obtain ⟨hm, hround, hsticky⟩ := h
  dsimp only at hm hround hsticky
  have hmod : d ≤ 2 * (n % d) → 2 * (n % d) % d = 2 * (n % d) - d := fun hle => by
    rw [Nat.mod_eq_sub_mod hle, Nat.mod_eq_of_lt (by omega)]
  unfold roundHalfEven
  subst hm
  cases round with
  | false =>
    have hlt : 2 * (n % d) < d := by simpa using hround
    simp only [if_pos hlt]
    cases sticky <;> rfl
  | true =>
    have hle : d ≤ 2 * (n % d) := hround.1 rfl
    rw [hmod hle] at hsticky
    simp only [if_neg (not_lt.2 hle)]
    cases sticky with
    | false =>
      have heq : ¬ d < 2 * (n % d) := by
        have : ¬ (2 * (n % d) - d ≠ 0) := fun hne => by simpa using hsticky.2 hne
        omega
      simp only [if_neg heq]
      rfl
    | true =>
      have hgt : d < 2 * (n % d) := by
        have := hsticky.1 rfl
        omega
      simp only [if_pos hgt]
      rfl

end Stands

/-! ### Packing -/

theorem toNat_packedInfinity :
    (packedInfinity Format.binary64 .positive).toNat = infinityBits := by
  decide

/-- The bits of a positive double are its exponent and its mantissa, one above the other, unless
they are those of infinity. -/
theorem toNat_pack_finite {m : ℕ} {e : ℤ} (hm : 0 < m) (hlt : m < 2 ^ 53) (he : -1074 ≤ e)
    (hnormal : e = -1074 ∨ 2 ^ 52 ≤ m) :
    (UnpackedFloat.pack Format.binary64 (.finite .positive m e hm)).toNat =
      min ((e + 1074).toNat * 2 ^ 52 + m) infinityBits := by
  have hzero : (Sign.toBitVec .positive).toNat = 0 := rfl
  have hbiased : (e + ↑(Format.exponentBias .binary64) + ↑(52 : ℕ)).toNat = (e + 1075).toNat := by
    have hbias : Format.exponentBias .binary64 = 1023 := rfl
    rw [hbias]
    omega
  have hbits : m.log2 + 1 = Format.mantissaBits .binary64 ↔ 2 ^ 52 ≤ m := by
    change m.log2 + 1 = 53 ↔ _
    rw [← Nat.le_log2 hm.ne']
    have := (Nat.log2_lt hm.ne').2 hlt
    omega
  simp only [UnpackedFloat.pack, hbiased, hbits]
  unfold infinityBits
  split_ifs with hlarge hfull
  · have h52 : 2 ^ 52 ≤ m := hnormal.resolve_left (by omega)
    rw [toNat_packedInfinity]
    unfold infinityBits
    omega
  · change (ofFields .positive (BitVec.ofNat 11 (e + 1075).toNat) (BitVec.ofNat 52 m)).toNat = _
    rw [toNat_ofFields, hzero, BitVec.toNat_ofNat, BitVec.toNat_ofNat]
    omega
  · obtain rfl : e = -1074 := hnormal.resolve_right hfull
    change (ofFields .positive 0#11 (BitVec.ofNat 52 m)).toNat = _
    rw [toNat_ofFields, hzero, BitVec.toNat_ofNat]
    simp
    omega

/-- The exponent of the last bit leaves 53 bits of the quotient, or is the least. -/
theorem binaryExponent_spec {a b : ℕ} (ha : 0 < a) (hb : 0 < b) :
    (a : ℚ) / b < 2 ^ (53 + binaryExponent a b) ∧
      (binaryExponent a b = -1074 ∨
        -1074 ≤ binaryExponent a b ∧ 2 ^ (52 + binaryExponent a b) ≤ (a : ℚ) / b) := by
  obtain ⟨hlower, hupper⟩ := quotient_bounds ha hb
  have hmax {i : ℤ} (hlt : (a : ℚ) / b < 2 ^ (53 + i)) (hle : 2 ^ (52 + i) ≤ (a : ℚ) / b) :
      (a : ℚ) / b < 2 ^ (53 + max i (-1074)) ∧
        (max i (-1074) = -1074 ∨
          -1074 ≤ max i (-1074) ∧ 2 ^ (52 + max i (-1074)) ≤ (a : ℚ) / b) := by
    refine ⟨hlt.trans_le ?_, ?_⟩
    · gcongr
      · norm_num
      · omega
    · obtain h | h := le_total i (-1074)
      · exact .inl (max_eq_right h)
      · rw [max_eq_left h]
        exact .inr ⟨h, hle⟩
  unfold binaryExponent
  dsimp only
  split_ifs with htest
  · rw [scaled_lt_iff hb] at htest
    refine hmax htest (le_of_eq_of_le (congrArg _ ?_) hlower)
    omega
  · rw [scaled_lt_iff hb, not_lt] at htest
    refine hmax (lt_of_lt_of_eq hupper (congrArg _ ?_)) (le_of_eq_of_le (congrArg _ ?_) htest)
    · omega
    · omega

/-! ### Rounding -/

section Round

variable {n d a b m : ℕ} {e : ℤ} {acc : Accuracy}

theorem targetExponent_eq (m : ℕ) (e : ℤ) :
    Format.targetExponent .binary64 (totalExponent m e) = max (m.log2 + e - 52) (-1074) := by
  change max ((m.log2 : ℤ) + 1 + e - ((53 : ℕ) : ℤ)) (-1074) = _
  congr 1
  omega

/-- A mantissa that is not zero aims at the exponent of the last bit. -/
theorem targetExponent_of_pos (hd : 0 < d) (ha : 0 < a) (hb : 0 < b)
    (h : (a : ℚ) / b = n / d * 2 ^ e) (hpos : 0 < n / d) :
    Format.targetExponent .binary64 (totalExponent (n / d) e) = binaryExponent a b := by
  have hd' : (0 : ℚ) < d := by exact_mod_cast hd
  have hbelow : ((n / d : ℕ) : ℚ) ≤ n / d := Nat.cast_div_le
  have habove : (n : ℚ) / d < (n / d : ℕ) + 1 := by
    rw [div_lt_iff₀ hd']
    exact_mod_cast Nat.lt_mul_of_div_lt (Nat.lt_succ_self _) hd
  obtain ⟨hlower, -⟩ := log2_bounds hpos
  rw [targetExponent_eq]
  refine (binaryExponent_eq ha hb ?_ ?_).symm
  · calc (a : ℚ) / b < ((n / d : ℕ) + 1) * 2 ^ e := by
          rw [h]
          gcongr
      _ ≤ 2 ^ (((n / d).log2 : ℤ) + 1) * 2 ^ e := by
          gcongr
          rw [← Nat.cast_succ, ← Nat.cast_succ, zpow_natCast]
          exact_mod_cast Nat.lt_log2_self
      _ = 2 ^ (((n / d).log2 : ℤ) + 1 + e) := (zpow_add₀ (by norm_num) _ _).symm
      _ ≤ _ := zpow_le_zpow_right₀ (by norm_num) (by omega)
  · obtain hle | hle := le_total (((n / d).log2 : ℤ) + e - 52) (-1074)
    · exact .inl (max_eq_right hle)
    · rw [max_eq_left hle]
      refine .inr ⟨hle, ?_⟩
      calc (2 : ℚ) ^ (52 + (((n / d).log2 : ℤ) + e - 52)) = 2 ^ ((n / d).log2 : ℤ) * 2 ^ e := by
            rw [← zpow_add₀ (by norm_num)]
            congr 1
            omega
        _ ≤ a / b := by
            rw [h]
            gcongr
            exact hlower.trans hbelow

/-- So does every mantissa that is no coarser than the last bit. -/
theorem targetExponent_quotient (hd : 0 < d) (ha : 0 < a) (hb : 0 < b)
    (h : (a : ℚ) / b = n / d * 2 ^ e) (he : e ≤ binaryExponent a b) :
    Format.targetExponent .binary64 (totalExponent (n / d) e) = binaryExponent a b := by
  obtain hzero | hpos := Nat.eq_zero_or_pos (n / d)
  · -- nothing is left of the mantissa, so the quotient is below the least double
    have hd' : (0 : ℚ) < d := by exact_mod_cast hd
    have hsmall : (n : ℚ) / d < 1 := by
      rw [div_lt_one hd']
      exact_mod_cast (Nat.div_eq_zero_iff_lt hd).1 hzero
    obtain ⟨-, hleast | ⟨-, hle⟩⟩ := binaryExponent_spec ha hb
    · rw [targetExponent_eq, hzero, hleast, Nat.log2_zero]
      omega
    · have hlt : (a : ℚ) / b < 2 ^ e := by
        rw [h]
        exact mul_lt_of_lt_one_left (by positivity) hsmall
      have := (zpow_lt_zpow_iff_right₀ (by norm_num)).1 (hle.trans_lt hlt)
      omega
  · exact targetExponent_of_pos hd ha hb h hpos

/-- A mantissa with at most 53 bits is left as it is. -/
theorem shiftToTargetExponent_of_lt {r : ℕ} {t : ℤ} (hr : r < 2 ^ 53) (ht : -1074 ≤ t) :
    shiftToTargetExponent .binary64 r t .exact = (⟨r, false, false⟩, t) := by
  have hlog : r.log2 ≤ 52 := by
    obtain rfl | hpos := Nat.eq_zero_or_pos r
    · simp
    · exact Nat.lt_succ_iff.1 ((Nat.log2_lt hpos.ne').2 hr)
  have hshift : (max ((r.log2 : ℤ) + t - 52) (-1074) - t).toNat = 0 := by omega
  rw [shiftToTargetExponent, targetExponent_eq, shiftToExponent, hshift]
  simp only [Int.add_zero, Nat.cast_zero]
  rfl

/-- A carry out of the mantissa goes to the exponent. -/
theorem shiftToTargetExponent_carry {t : ℤ} (ht : -1074 ≤ t) :
    shiftToTargetExponent .binary64 (2 ^ 53) t .exact = (⟨2 ^ 52, false, false⟩, t + 1) := by
  have hshift : (max (((2 ^ 53 : ℕ).log2 : ℤ) + t - 52) (-1074) - t).toNat = 1 := by
    rw [Nat.log2_two_pow]
    omega
  rw [shiftToTargetExponent, targetExponent_eq, shiftToExponent, hshift]
  rfl

/-- Rounding once is all there is to do, since the carry is exact. -/
theorem toNat_pack_roundWithAccuracy {r : ℕ} {t : ℤ} (het : e ≤ t)
    (htarget : Format.targetExponent .binary64 (totalExponent m e) = t)
    (hround : (ExtendedMantissa.ofMantissaAndAccuracy m acc >>> (t - e).toNat).roundedMantissa = r)
    (hle : r ≤ 2 ^ 53) (ht : -1074 ≤ t) (hnormal : t = -1074 ∨ 2 ^ 52 ≤ r) :
    (UnpackedFloat.pack Format.binary64
      (roundWithAccuracy .binary64 .positive m e acc)).toNat =
        min ((t + 1074).toNat * 2 ^ 52 + r) infinityBits := by
  have hexp : e + ((t - e).toNat : ℤ) = t := by omega
  have hfirst : shiftToTargetExponent .binary64 m e acc =
      (ExtendedMantissa.ofMantissaAndAccuracy m acc >>> (t - e).toNat, t) := by
    rw [shiftToTargetExponent, htarget, shiftToExponent, hexp]
  simp only [roundWithAccuracy, hfirst, hround]
  obtain hlt | rfl := lt_or_eq_of_le hle
  · simp only [shiftToTargetExponent_of_lt hlt ht]
    split_ifs with hzero
    · obtain rfl : t = -1074 := hnormal.resolve_right (by omega)
      subst hzero
      rfl
    · exact toNat_pack_finite _ hlt ht hnormal
  · have hcarry : (t + 1 + 1074).toNat * 2 ^ 52 + 2 ^ 52 = (t + 1074).toNat * 2 ^ 52 + 2 ^ 53 := by
      omega
    simp only [shiftToTargetExponent_carry ht]
    rw [dif_neg (by norm_num), toNat_pack_finite _ (by norm_num) (by omega) (.inr le_rfl), hcarry]

/-- Scaled by the last bit, the quotient has all the bits of a mantissa and no more. -/
theorem scaled_div_spec (ha : 0 < a) (hb : 0 < b) {x y : ℕ}
    (hxy : scaled a b (binaryExponent a b) = (x, y)) :
    x / y < 2 ^ 53 ∧ -1074 ≤ binaryExponent a b ∧
      (binaryExponent a b = -1074 ∨ 2 ^ 52 ≤ x / y) := by
  obtain ⟨hlt, hle⟩ := binaryExponent_spec ha hb
  generalize binaryExponent a b = t at hlt hle hxy ⊢
  have hpos := scaled_pos (a := a) hb t
  have hscaled := scaled_eq (a := a) hb t
  have htest := (scaled_lt_iff (a := a) hb t).2 hlt
  rw [hxy] at hpos hscaled htest
  dsimp only at hpos hscaled htest
  rw [Nat.shiftLeft_eq] at htest
  refine ⟨Nat.div_lt_of_lt_mul htest, hle.elim (fun h => h.ge) fun h => h.1,
    hle.imp_right fun h => ?_⟩
  have hfull : (2 : ℚ) ^ 52 * y ≤ x := by
    rw [hscaled]
    gcongr
    calc (2 : ℚ) ^ 52 = 2 ^ (52 + t) * 2 ^ (-t) := by
          rw [← zpow_add₀ (by norm_num), add_neg_cancel_right]
          rfl
      _ ≤ a / b * 2 ^ (-t) := by
          gcongr
          exact h.2
  exact (Nat.le_div_iff_mul_le hpos).2 (by exact_mod_cast hfull)

/-- Bits that are shifted out of a mantissa and bits that the scale leaves out are the same. -/
theorem Stands.roundedMantissa_shiftRight {em : ExtendedMantissa} (hem : Stands em n d) (hd : 0 < d)
    (hb : 0 < b) (h : (a : ℚ) / b = n / d * 2 ^ e) {t : ℤ} (het : e ≤ t) {x y : ℕ}
    (hxy : scaled a b t = (x, y)) :
    (em >>> (t - e).toNat).roundedMantissa = roundHalfEven x y := by
  have hpos := scaled_pos (a := a) hb t
  have hscaled := scaled_eq (a := a) hb t
  rw [hxy] at hpos hscaled
  dsimp only at hpos hscaled
  rw [(hem.shiftRight hd _).roundedMantissa (by positivity)]
  refine roundHalfEven_congr (by positivity) hpos ?_
  have hpow : (2 : ℚ) ^ e * 2 ^ (-t) * 2 ^ (t - e).toNat = 1 := by
    rw [← zpow_natCast, Int.toNat_of_nonneg (by omega), ← zpow_add₀ (by norm_num),
      ← zpow_add₀ (by norm_num), show e + -t + (t - e) = 0 by omega, zpow_zero]
  have hd' : (d : ℚ) ≠ 0 := by positivity
  have hx : (x : ℚ) * (d * 2 ^ (t - e).toNat) = n * y := by
    rw [hscaled, h]
    calc (n : ℚ) / d * 2 ^ e * 2 ^ (-t) * y * (d * 2 ^ (t - e).toNat)
        = n / d * d * y * (2 ^ e * 2 ^ (-t) * 2 ^ (t - e).toNat) := by ring
      _ = n * y := by rw [hpow, div_mul_cancel₀ _ hd', mul_one]
  exact_mod_cast hx.symm

theorem mantissa_ofMantissaAndAccuracy (m : ℕ) (acc : Accuracy) :
    (ExtendedMantissa.ofMantissaAndAccuracy m acc).mantissa = m := by
  cases acc with
  | exact => rfl
  | inexact o => cases o <;> rfl

/-- **A rounded quotient is the nearest double.** -/
theorem toNat_pack_round (hem : Stands (.ofMantissaAndAccuracy m acc) n d) (hd : 0 < d)
    (ha : 0 < a) (hb : 0 < b) (h : (a : ℚ) / b = n / d * 2 ^ e) (he : e ≤ binaryExponent a b) :
    (UnpackedFloat.pack Format.binary64
      (roundWithAccuracy .binary64 .positive m e acc)).toNat = nearestBits a b := by
  have htarget := targetExponent_quotient hd ha hb h he
  rw [← hem.mantissa_eq, mantissa_ofMantissaAndAccuracy] at htarget
  obtain ⟨x, y, hxy⟩ : ∃ x y, scaled a b (binaryExponent a b) = (x, y) := ⟨_, _, rfl⟩
  have hround := hem.roundedMantissa_shiftRight hd hb h he hxy
  obtain ⟨hquotient, ht, hnormal⟩ := scaled_div_spec ha hb hxy
  obtain ⟨hlower, hupper⟩ := roundHalfEven_bounds x y
  rw [toNat_pack_roundWithAccuracy he htarget hround (by omega) ht (by omega)]
  simp only [nearestBits, if_neg ha.ne', hxy, Nat.shiftLeft_eq]

theorem ofModel_pack_eq {f : UnpackedFloat}
    (h : (UnpackedFloat.pack Format.binary64 f).toNat = nearestBits a b) :
    Float.ofModel (Float.Model.pack f) = nearestDouble a b := by
  refine Float.toBits_inj.1 (UInt64.toNat_inj.1 ?_)
  rw [nearestDouble, toBits_ofBits (nearestBits_le a b)]
  exact h

/-- An integer mantissa may also be coarser than the last bit. -/
theorem ofModel_pack_round (hm : 0 < m) (hb : 0 < b) (h : (a : ℚ) / b = m * 2 ^ e) :
    Float.ofModel (Float.Model.pack (UnpackedFloat.round .binary64 .positive m e)) =
      nearestDouble a b := by
  have ha : 0 < a := by
    refine pos_of_div_pos (b := b) ?_
    rw [h]
    positivity
  have hexact : (a : ℚ) / b = (m : ℕ) / (1 : ℕ) * 2 ^ e := by rw [h, Nat.cast_one, div_one]
  have htarget := targetExponent_of_pos Nat.one_pos ha hb hexact (by rwa [Nat.div_one])
  rw [Nat.div_one] at htarget
  refine ofModel_pack_eq ?_
  simp only [UnpackedFloat.round, decreaseExponent, htarget]
  refine toNat_pack_round (Stands.exact _) Nat.one_pos ha hb ?_ (by omega)
  rw [hexact, Nat.shiftLeft_eq, Nat.cast_mul, Nat.cast_one, div_one, div_one, mul_assoc,
    Nat.cast_pow, Nat.cast_ofNat, ← zpow_natCast, ← zpow_add₀ (by norm_num)]
  congr 2
  omega

end Round

/-! ### Operations -/

section Operations

variable {x y : Float} {a b : ℕ}

theorem nearestDouble_zero (b : ℕ) : nearestDouble 0 b = zero := by
  rw [nearestDouble, nearestBits_zero]
  rfl

/-- A double is the nearest to its own value. -/
theorem IsMagnitude.eq_nearestDouble (hx : IsMagnitude x) (hb : 0 < b) (h : value x = a / b) :
    x = nearestDouble a b := by
  obtain rfl | hne := eq_or_ne x zero
  · obtain rfl := eq_zero_of_div_eq_zero hb h.symm
    exact (nearestDouble_zero b).symm
  · have ha : 0 < a := pos_of_div_pos (h ▸ hx.value_pos hne)
    obtain ⟨hbits, hm, he⟩ := binaryParts_spec hx
    have hnearest := nearestBits_of_eq ha hb (h.symm.trans hx.value_eq) hm he
    rw [← hbits, Nat.min_eq_left (Nat.le_of_lt hx)] at hnearest
    refine Float.toBits_inj.1 (UInt64.toNat_inj.1 ?_)
    rw [nearestDouble, hnearest, toBits_ofBits (Nat.le_of_lt hx)]

/-- A double from zero up is told by its value. -/
theorem IsMagnitude.eq_iff_value (hx : IsMagnitude x) (hy : IsMagnitude y) :
    x = y ↔ value x = value y := by
  refine ⟨congrArg value, fun h => ?_⟩
  have hquotient : value x = (value x).num.toNat / (value x).den := by
    have hnum : (((value x).num.toNat : ℤ) : ℚ) = (value x).num :=
      congrArg _ (Int.toNat_of_nonneg (Rat.num_nonneg.2 hx.value_nonneg))
    rw [← Int.cast_natCast, hnum, Rat.num_div_den]
  rw [hx.eq_nearestDouble (Rat.den_pos _) hquotient,
    hy.eq_nearestDouble (Rat.den_pos _) (h.symm.trans hquotient)]

theorem ofModel_pack_normalize {m : ℤ} {e : ℤ} (hm : 0 ≤ m) (hb : 0 < b)
    (h : (a : ℚ) / b = m * 2 ^ e) :
    Float.ofModel (Float.Model.pack (UnpackedFloat.normalize .binary64 m e .positive)) =
      nearestDouble a b := by
  obtain rfl | hpos := hm.eq_or_lt
  · rw [Int.cast_zero, zero_mul] at h
    obtain rfl := eq_zero_of_div_eq_zero hb h
    rw [nearestDouble_zero]
    rfl
  · have htoNat : ((m.toNat : ℕ) : ℚ) = m := by
      exact_mod_cast Int.toNat_of_nonneg hm
    simp only [UnpackedFloat.normalize, Int.compare_eq_gt.2 hpos]
    exact ofModel_pack_round (by omega) hb (by rw [h, htoNat])

/-- A mantissa is brought to a lower exponent without loss. -/
theorem shiftLeft_mul_zpow (m : ℕ) {e t : ℤ} (h : t ≤ e) :
    ((m <<< (e - t).toNat : ℕ) : ℚ) * 2 ^ t = m * 2 ^ e := by
  rw [Nat.shiftLeft_eq, Nat.cast_mul, Nat.cast_pow, Nat.cast_ofNat, mul_assoc, ← zpow_natCast,
    ← zpow_add₀ (by norm_num)]
  congr 2
  omega

theorem value_of_unpack {m : ℕ} {e : ℤ} {hm : 0 < m}
    (h : x.toModel.unpack = .finite .positive m e hm) : value x = m * 2 ^ e := by
  simp only [value, h, Sign.apply, Int.cast_natCast]

/-- An operation that leaves zero and the finite numbers from zero up as they are leaves a double
from zero up as it is. -/
theorem IsMagnitude.pack_unchanged {f : UnpackedFloat → UnpackedFloat} (hx : IsMagnitude x)
    (hzero : f (.zero .positive) = .zero .positive)
    (hfinite : ∀ m e hm, f (.finite .positive m e hm) = .finite .positive m e hm) :
    Float.ofModel (Float.Model.pack (f x.toModel.unpack)) = x := by
  have hsame : f x.toModel.unpack = x.toModel.unpack := by
    obtain rfl | ⟨m, e, hm, hxu⟩ := hx.eq_zero_or
    · exact hzero
    · rw [hxu, hfinite]
  rw [hsame]
  exact Float.ofBits_toBits x

theorem IsMagnitude.zero_add_eq (hx : IsMagnitude x) : zero + x = x :=
  hx.pack_unchanged (f := UnpackedFloat.add .binary64 (.zero .positive)) rfl fun _ _ _ => rfl

theorem IsMagnitude.add_zero_eq (hx : IsMagnitude x) : x + zero = x :=
  hx.pack_unchanged (f := fun y => UnpackedFloat.add .binary64 y (.zero .positive)) rfl
    fun _ _ _ => rfl

theorem IsMagnitude.sub_zero_eq (hx : IsMagnitude x) : x - zero = x :=
  hx.pack_unchanged (f := fun y => UnpackedFloat.sub .binary64 y (.zero .positive)) rfl
    fun _ _ _ => rfl

/-- **A sum is the double nearest to the exact sum.** -/
theorem IsMagnitude.add_eq (hx : IsMagnitude x) (hy : IsMagnitude y) (hb : 0 < b)
    (h : value x + value y = a / b) : x + y = nearestDouble a b := by
  obtain rfl | ⟨m, e, hm, hxu⟩ := hx.eq_zero_or
  · rw [value_zero, zero_add] at h
    rw [hy.zero_add_eq, ← hy.eq_nearestDouble hb h]
  obtain rfl | ⟨m', e', hm', hyu⟩ := hy.eq_zero_or
  · rw [value_zero, add_zero] at h
    rw [hx.add_zero_eq, ← hx.eq_nearestDouble hb h]
  · change Float.ofModel (Float.Model.pack
      (UnpackedFloat.add .binary64 x.toModel.unpack y.toModel.unpack)) = _
    rw [hxu, hyu]
    refine ofModel_pack_normalize (by simp only [Sign.apply]; positivity) hb ?_
    rw [← h, value_of_unpack hxu, value_of_unpack hyu, ← shiftLeft_mul_zpow m (min_le_left e e'),
      ← shiftLeft_mul_zpow m' (min_le_right e e'), ← add_mul]
    simp only [Sign.apply]
    push_cast
    rfl

/-- **A difference is the double nearest to the exact difference.** -/
theorem IsMagnitude.sub_eq (hx : IsMagnitude x) (hy : IsMagnitude y) (hb : 0 < b)
    (h : value x - value y = a / b) : x - y = nearestDouble a b := by
  have hle : 0 ≤ value x - value y := by
    rw [h]
    positivity
  obtain rfl | ⟨m', e', hm', hyu⟩ := hy.eq_zero_or
  · rw [value_zero, sub_zero] at h
    rw [hx.sub_zero_eq, ← hx.eq_nearestDouble hb h]
  obtain rfl | ⟨m, e, hm, hxu⟩ := hx.eq_zero_or
  · have hpos : 0 < value y := by
      rw [value_of_unpack hyu]
      positivity
    rw [value_zero] at hle
    linarith
  · change Float.ofModel (Float.Model.pack
      (UnpackedFloat.sub .binary64 x.toModel.unpack y.toModel.unpack)) = _
    have hexact : value x - value y = (((m <<< (e - min e e').toNat : ℕ) : ℤ) -
        ((m' <<< (e' - min e e').toNat : ℕ) : ℤ) : ℤ) * 2 ^ min e e' := by
      rw [value_of_unpack hxu, value_of_unpack hyu, ← shiftLeft_mul_zpow m (min_le_left e e'),
        ← shiftLeft_mul_zpow m' (min_le_right e e'), ← sub_mul]
      push_cast
      rfl
    rw [hxu, hyu]
    refine ofModel_pack_normalize ?_ hb (h.symm.trans hexact)
    rw [hexact] at hle
    exact Int.cast_nonneg_iff.1 (nonneg_of_mul_nonneg_left hle (by positivity))

/-- A positive double has all 53 bits, or the least exponent. -/
theorem IsMagnitude.exists_unpack (hx : IsMagnitude x) (hx0 : x ≠ zero) :
    ∃ m e hm, x.toModel.unpack = .finite .positive m e hm ∧ (e = -1074 ∨ 2 ^ 52 ≤ m) := by
  obtain ⟨hm, hxu⟩ := hx.unpack_eq hx0
  obtain ⟨-, -, he⟩ := binaryParts_spec hx
  exact ⟨_, _, hm, hxu, he.imp_left (by omega)⟩

/-- A product of mantissas is no coarser than its last bit. -/
theorem exponent_mul_le {m n : ℕ} {d e : ℤ} (hm : 0 < m) (hn : 0 < n)
    (hmfull : d = -1074 ∨ 2 ^ 52 ≤ m) (hnfull : e = -1074 ∨ 2 ^ 52 ≤ n) :
    d + e ≤ max (((m * n).log2 : ℤ) + (d + e) - 52) (-1074) := by
  obtain hsmall | hfull : d + e ≤ -1074 ∨ 2 ^ 52 ≤ m * n := by
    obtain rfl | hmfull := hmfull
    · obtain rfl | hnfull := hnfull
      · exact .inl (by omega)
      · exact .inr (hnfull.trans (Nat.le_mul_of_pos_left n hm))
    · exact .inr (hmfull.trans (Nat.le_mul_of_pos_right m hn))
  · omega
  · have := (Nat.le_log2 (Nat.mul_pos hm hn).ne').2 hfull
    omega

/-- **A product is the double nearest to the exact product.** -/
theorem IsMagnitude.mul_eq (hx : IsMagnitude x) (hy : IsMagnitude y) (hb : 0 < b)
    (h : value x * value y = a / b) : x * y = nearestDouble a b := by
  have hnone (hzero : value x * value y = 0) : nearestDouble a b = zero := by
    obtain rfl := eq_zero_of_div_eq_zero hb (h.symm.trans hzero)
    exact nearestDouble_zero b
  by_cases hx0 : x = zero
  · subst hx0
    rw [hnone (by rw [value_zero, zero_mul])]
    change Float.ofModel (Float.Model.pack
      (UnpackedFloat.mul .binary64 (.zero .positive) y.toModel.unpack)) = zero
    obtain rfl | ⟨m, e, hm, hyu⟩ := hy.eq_zero_or
    · rfl
    · rw [hyu]
      rfl
  by_cases hy0 : y = zero
  · subst hy0
    obtain ⟨hm, hxu⟩ := hx.unpack_eq hx0
    rw [hnone (by rw [value_zero, mul_zero])]
    change Float.ofModel (Float.Model.pack
      (UnpackedFloat.mul .binary64 x.toModel.unpack (.zero .positive))) = zero
    rw [hxu]
    rfl
  · have ha : 0 < a := pos_of_div_pos (h ▸ mul_pos (hx.value_pos hx0) (hy.value_pos hy0))
    obtain ⟨m, d, hm, hxu, hmfull⟩ := hx.exists_unpack hx0
    obtain ⟨n, e, hn, hyu, hnfull⟩ := hy.exists_unpack hy0
    have hexact : (a : ℚ) / b = (m * n : ℕ) / (1 : ℕ) * 2 ^ (d + e) := by
      rw [← h, value_of_unpack hxu, value_of_unpack hyu, zpow_add₀ (by norm_num)]
      push_cast
      ring
    have htarget := targetExponent_of_pos Nat.one_pos ha hb hexact
      (by rw [Nat.div_one]; exact Nat.mul_pos hm hn)
    have hfine : d + e ≤ binaryExponent a b := by
      rw [← htarget, targetExponent_eq, Nat.div_one]
      exact exponent_mul_le hm hn hmfull hnfull
    change Float.ofModel (Float.Model.pack
      (UnpackedFloat.mul .binary64 x.toModel.unpack y.toModel.unpack)) = _
    rw [hxu, hyu]
    exact ofModel_pack_eq (toNat_pack_round (Stands.exact _) Nat.one_pos ha hb hexact hfine)

/-- **A quotient is the double nearest to the exact quotient.** -/
theorem IsMagnitude.div_eq (hx : IsMagnitude x) (hy : IsMagnitude y) (hy0 : y ≠ zero) (hb : 0 < b)
    (h : value x / value y = a / b) : x / y = nearestDouble a b := by
  obtain ⟨n, e, hn, hyu, -⟩ := hy.exists_unpack hy0
  by_cases hx0 : x = zero
  · subst hx0
    rw [value_zero, zero_div] at h
    obtain rfl := eq_zero_of_div_eq_zero hb h.symm
    rw [nearestDouble_zero]
    change Float.ofModel (Float.Model.pack
      (UnpackedFloat.div .binary64 (.zero .positive) y.toModel.unpack)) = zero
    rw [hyu]
    rfl
  · have ha : 0 < a := pos_of_div_pos (h ▸ div_pos (hx.value_pos hx0) (hy.value_pos hy0))
    obtain ⟨m, d, hm, hxu, -⟩ := hx.exists_unpack hx0
    have hquotient : (a : ℚ) / b = m / n * 2 ^ (d - e) := by
      rw [← h, value_of_unpack hxu, value_of_unpack hyu, zpow_sub₀ (by norm_num), div_mul_div_comm]
    obtain ⟨hlower, -⟩ := quotient_bounds hm hn
    obtain ⟨hupper, hleast⟩ := binaryExponent_spec ha hb
    have hbits : (m.log2 : ℤ) - n.log2 - 1 + (d - e) < 53 + binaryExponent a b := by
      refine (zpow_lt_zpow_iff_right₀ (by norm_num : (1 : ℚ) < 2)).1 (lt_of_le_of_lt ?_ hupper)
      rw [hquotient, zpow_add₀ (by norm_num)]
      gcongr
    have htarget : Format.targetExponent .binary64 (totalExponent m d - totalExponent n e) =
        max (m.log2 + d - (n.log2 + e) - 53) (-1074) := by
      change max ((m.log2 : ℤ) + 1 + d - (n.log2 + 1 + e) - ((53 : ℕ) : ℤ)) (-1074) = _
      congr 1
      omega
    change Float.ofModel (Float.Model.pack
      (UnpackedFloat.div .binary64 x.toModel.unpack y.toModel.unpack)) = _
    rw [hxu, hyu]
    simp only [UnpackedFloat.div, divCore, htarget]
    refine ofModel_pack_eq (toNat_pack_round (Stands.ofFraction hn) hn ha hb ?_ (by omega))
    rw [hquotient, div_mul_eq_mul_div, div_mul_eq_mul_div,
      shiftLeft_mul_zpow m (min_le_left (d - e) _)]

end Operations

end BlockScript.Decimal
