import BlockScript.Proofs.CorrectRounding

/-!
# Natural numbers as doubles

A natural number is a double if no more than 53 bits lie between its first and its last one and it
is less than the two to the power of 1024. Every other one goes to the nearest of these, or to
infinity.

* `IsShort`: so few bits; `rounded`: the nearest natural number with so few.
* `IsShort.le_rounded`, `IsShort.rounded_le`: rounding passes by no number with so few bits.
* `whole`: the double nearest to a natural number; `whole_eq_iff`: the natural numbers with the same
  one.
* `value_nearestDouble`: the quotients of such numbers by powers of two are doubles.
-/

namespace BlockScript.Decimal

/-- From its first to its last bit the natural number has at most 53. -/
def IsShort (n : ℕ) : Prop :=
  ∃ m k, m < 2 ^ 53 ∧ n = m * 2 ^ k

/-- The nearest natural number with at most 53 bits, the one with the even mantissa of two. -/
def rounded (n : ℕ) : ℕ :=
  roundHalfEven n (2 ^ (n.log2 - 52)) * 2 ^ (n.log2 - 52)

/-! ### Numbers with few bits -/

section IsShort

variable {f n k q : ℕ}

theorem isShort_mul (hq : q ≤ 2 ^ 53) (k : ℕ) : IsShort (q * 2 ^ k) := by
  obtain hlt | rfl := lt_or_eq_of_le hq
  · exact ⟨q, k, hlt, rfl⟩
  · exact ⟨1, 53 + k, by norm_num, by rw [pow_add, one_mul]⟩

theorem isShort_of_le (hn : n ≤ 2 ^ 53) : IsShort n := by
  simpa using isShort_mul hn 0

theorem IsShort.mul_two_pow (h : IsShort n) (k : ℕ) : IsShort (n * 2 ^ k) := by
  obtain ⟨m, j, hm, rfl⟩ := h
  exact ⟨m, j + k, hm, by rw [mul_assoc, pow_add]⟩

/-- The last bits of a number with few bits but a high first bit are zeros. -/
theorem IsShort.two_pow_dvd (h : IsShort f) (hf : 2 ^ 52 * 2 ^ k ≤ f) : 2 ^ k ∣ f := by
  obtain ⟨m, j, hm, rfl⟩ := h
  have hlt : 2 ^ (52 + k) < 2 ^ (53 + j) := by
    rw [pow_add, pow_add]
    exact hf.trans_lt (by gcongr)
  have hexp := (Nat.pow_lt_pow_iff_right Nat.one_lt_two).1 hlt
  exact Dvd.dvd.mul_left (pow_dvd_pow 2 (by omega)) m

/-- The first bits of a number with few bits are few. -/
theorem IsShort.div_two_pow (h : IsShort n) (j : ℕ) : IsShort (n / 2 ^ j) := by
  obtain ⟨m, k, hm, rfl⟩ := h
  obtain hle | hle := le_total j k
  · obtain ⟨i, rfl⟩ := Nat.exists_eq_add_of_le hle
    rw [pow_add, mul_left_comm, Nat.mul_div_cancel_left _ (by positivity)]
    exact ⟨m, i, hm, rfl⟩
  · obtain ⟨i, rfl⟩ := Nat.exists_eq_add_of_le hle
    rw [pow_add, mul_comm m, Nat.mul_div_mul_left _ _ (by positivity)]
    exact isShort_of_le ((Nat.div_le_self _ _).trans hm.le)

end IsShort

/-! ### Rounding -/

section Rounded

variable {f n k : ℕ}

theorem log2_lt_of_lt (hpos : 0 < n) (hlt : n < 2 ^ k) : n.log2 < k :=
  (Nat.log2_lt hpos.ne').2 hlt

theorem rounded_of_lt (hn : n < 2 ^ 53) : rounded n = n := by
  have hlog : n.log2 ≤ 52 := by
    obtain rfl | hpos := Nat.eq_zero_or_pos n
    · simp
    · exact Nat.lt_succ_iff.1 (log2_lt_of_lt hpos hn)
  rw [rounded, Nat.sub_eq_zero_of_le hlog, pow_zero, mul_one]
  simpa using roundHalfEven_mul n Nat.one_pos

/-- A number between two powers of two is rounded to a multiple of its last bit. -/
theorem rounded_eq (hle : 2 ^ 52 * 2 ^ k ≤ n) (hlt : n < 2 ^ 53 * 2 ^ k) :
    rounded n = roundHalfEven n (2 ^ k) * 2 ^ k := by
  have hpos : n ≠ 0 := by
    have : 0 < 2 ^ 52 * 2 ^ k := by positivity
    omega
  have hlog : n.log2 = 52 + k := by
    rw [Nat.log2_eq_iff hpos, pow_add, show 52 + k + 1 = 53 + k by omega, pow_add]
    exact ⟨hle, hlt⟩
  rw [rounded, hlog, Nat.add_sub_cancel_left]

/-- The last of 53 bits is above the last bit of a number that is not less than all of them. -/
theorem exists_binade (hn : 2 ^ 53 ≤ n) :
    ∃ k, 0 < k ∧ 2 ^ 52 * 2 ^ k ≤ n ∧ n < 2 ^ 53 * 2 ^ k := by
  have hpos : n ≠ 0 := by omega
  have hlog : 53 ≤ n.log2 := (Nat.le_log2 hpos).2 hn
  refine ⟨n.log2 - 52, by omega, ?_, ?_⟩
  · rw [← pow_add, Nat.add_sub_cancel' (by omega)]
    exact Nat.log2_self_le hpos
  · rw [← pow_add, show 53 + (n.log2 - 52) = n.log2 + 1 by omega]
    exact Nat.lt_log2_self

theorem isShort_rounded (n : ℕ) : IsShort (rounded n) := by
  obtain hlt | hle := lt_or_ge n (2 ^ 53)
  · rw [rounded_of_lt hlt]
    exact isShort_of_le hlt.le
  · obtain ⟨k, -, hlower, hupper⟩ := exists_binade hle
    have hquotient : n / 2 ^ k < 2 ^ 53 := Nat.div_lt_of_lt_mul (by rwa [mul_comm])
    obtain ⟨-, hround⟩ := roundHalfEven_bounds n (2 ^ k)
    rw [rounded_eq hlower hupper]
    exact isShort_mul (by omega) k

/-- Rounding passes by no lower number with few bits. -/
theorem IsShort.le_rounded (hf : IsShort f) (h : f ≤ n) : f ≤ rounded n := by
  obtain hlt | hle := lt_or_ge n (2 ^ 53)
  · rwa [rounded_of_lt hlt]
  · obtain ⟨k, -, hlower, hupper⟩ := exists_binade hle
    have hquotient : f ≤ n / 2 ^ k * 2 ^ k := by
      obtain hsmall | hlarge := lt_or_ge f (2 ^ 52 * 2 ^ k)
      · have hquotient : 2 ^ 52 ≤ n / 2 ^ k := (Nat.le_div_iff_mul_le (by positivity)).2 hlower
        exact hsmall.le.trans (Nat.mul_le_mul_right _ hquotient)
      · obtain ⟨i, rfl⟩ := hf.two_pow_dvd hlarge
        rw [mul_comm]
        exact Nat.mul_le_mul_right _ ((Nat.le_div_iff_mul_le (by positivity)).2 (by rwa [mul_comm]))
    rw [rounded_eq hlower hupper]
    exact hquotient.trans (Nat.mul_le_mul_right _ (roundHalfEven_bounds n (2 ^ k)).1)

/-- Rounding passes by no higher number with few bits. -/
theorem IsShort.rounded_le (hf : IsShort f) (h : n ≤ f) : rounded n ≤ f := by
  obtain hlt | hle := lt_or_ge n (2 ^ 53)
  · rwa [rounded_of_lt hlt]
  · obtain ⟨k, -, hlower, hupper⟩ := exists_binade hle
    obtain ⟨i, rfl⟩ := hf.two_pow_dvd (hlower.trans h)
    have hpos : 0 < 2 ^ k := by positivity
    have hround : roundHalfEven n (2 ^ k) ≤ i := by
      obtain hlt | rfl := lt_or_eq_of_le h
      · obtain ⟨-, hround⟩ := roundHalfEven_bounds n (2 ^ k)
        exact hround.trans (Nat.div_lt_of_lt_mul hlt)
      · rw [mul_comm, roundHalfEven_mul i hpos]
    rw [rounded_eq hlower hupper, mul_comm]
    exact Nat.mul_le_mul_left _ hround

/-- A number with few bits is not rounded. -/
theorem IsShort.rounded_eq_self (hn : IsShort n) : rounded n = n :=
  le_antisymm (hn.rounded_le le_rfl) (hn.le_rounded le_rfl)

theorem roundHalfEven_add {d t : ℕ} (ht : 2 * t < d) (q : ℕ) :
    roundHalfEven (q * d + t) d = q := by
  have hd : 0 < d := by omega
  have hquotient : (q * d + t) / d = q := by
    rw [mul_comm, Nat.mul_add_div hd, Nat.div_eq_of_lt (by omega), add_zero]
  have hrest : (q * d + t) % d = t := by
    rw [mul_comm, Nat.mul_add_mod, Nat.mod_eq_of_lt (by omega)]
  simp only [roundHalfEven, hquotient, hrest, if_pos ht]

theorem roundHalfEven_sub {d t : ℕ} (hpos : 0 < t) (ht : 2 * t < d) (q : ℕ) :
    roundHalfEven ((q + 1) * d - t) d = q + 1 := by
  have hd : 0 < d := by omega
  have hform : (q + 1) * d - t = d * q + (d - t) := by
    rw [add_mul, one_mul, mul_comm, Nat.add_sub_assoc (by omega)]
  have hquotient : (d * q + (d - t)) / d = q := by
    rw [Nat.mul_add_div hd, Nat.div_eq_of_lt (by omega), add_zero]
  have hrest : (d * q + (d - t)) % d = d - t := by
    rw [Nat.mul_add_mod, Nat.mod_eq_of_lt (by omega)]
  have hupper : d < 2 * (d - t) := by omega
  rw [hform]
  simp only [roundHalfEven, hquotient, hrest, if_neg hupper.not_gt, if_pos hupper]

/-- Moved four bits to the left, a number without room for its last bit is a multiple of 32, and of
64 if it is a power of two. -/
theorem IsShort.exists_sixteen_mul {s : ℕ} (hs : IsShort s) (hlt : 2 ^ 53 < s) :
    ∃ q u, 16 * s = q * (32 * 2 ^ u) ∧ 2 ^ 52 ≤ q ∧ q < 2 ^ 53 ∧ (q = 2 ^ 52 → 2 ≤ 2 ^ u) := by
  obtain ⟨k, hk, hlower, hupper⟩ := exists_binade hlt.le
  obtain ⟨q, rfl⟩ := hs.two_pow_dvd hlower
  obtain ⟨u, rfl⟩ := Nat.exists_eq_add_one.2 hk
  have hpos : 0 < 2 ^ u := by positivity
  rw [pow_succ] at hlower hupper hlt ⊢
  refine ⟨q, u, by ring, by nlinarith, by nlinarith, ?_⟩
  rintro rfl
  omega

/-- Above such a number nothing less than sixteen counts. -/
theorem IsShort.rounded_add {s t : ℕ} (hs : IsShort s) (hlt : 2 ^ 53 < s) (ht : t < 16) :
    rounded (16 * s + t) = 16 * s := by
  obtain ⟨q, u, hform, hlower, hupper, -⟩ := hs.exists_sixteen_mul hlt
  have hpos : 0 < 2 ^ u := by positivity
  have hpow : 2 ^ (u + 5) = 32 * 2 ^ u := by
    rw [pow_add]
    omega
  have hleast : 2 ^ 52 * (32 * 2 ^ u) ≤ q * (32 * 2 ^ u) := Nat.mul_le_mul_right _ hlower
  have hfull : (q + 1) * (32 * 2 ^ u) ≤ 2 ^ 53 * (32 * 2 ^ u) := Nat.mul_le_mul_right _ hupper
  rw [add_mul] at hfull
  rw [hform, rounded_eq (k := u + 5) (by omega) (by omega), hpow, roundHalfEven_add (by omega)]

/-- Below it neither. -/
theorem IsShort.rounded_sub {s t : ℕ} (hs : IsShort s) (hlt : 2 ^ 53 < s) (ht : t < 16) :
    rounded (16 * s - t) = 16 * s := by
  obtain rfl | hpos := Nat.eq_zero_or_pos t
  · rw [Nat.sub_zero, mul_comm]
    exact (hs.mul_two_pow 4).rounded_eq_self
  obtain ⟨q, u, hform, hlower, hupper, hleast⟩ := hs.exists_sixteen_mul hlt
  rw [hform]
  obtain hlower | rfl := lt_or_eq_of_le hlower
  · have hpow : 2 ^ (u + 5) = 32 * 2 ^ u := by
      rw [pow_add]
      omega
    obtain ⟨q, rfl⟩ := Nat.exists_eq_succ_of_ne_zero (show q ≠ 0 by omega)
    have hbelow : 2 ^ 52 * (32 * 2 ^ u) ≤ q * (32 * 2 ^ u) := Nat.mul_le_mul_right _ (by omega)
    have habove : (q + 1) * (32 * 2 ^ u) < 2 ^ 53 * (32 * 2 ^ u) := by gcongr
    have hexpand : (q + 1) * (32 * 2 ^ u) = q * (32 * 2 ^ u) + 32 * 2 ^ u := by ring
    have hround := roundHalfEven_sub (d := 32 * 2 ^ u) hpos (by omega) q
    rw [Nat.succ_eq_add_one, rounded_eq (k := u + 5) (by omega) (by omega), hpow, hround]
  · -- a power of two: the numbers below it have a last bit of half the size
    have hu := hleast rfl
    have hpow : 2 ^ (u + 4) = 16 * 2 ^ u := by
      rw [pow_add]
      omega
    have hdouble : 2 ^ 52 * (32 * 2 ^ u) = (2 ^ 53 - 1 + 1) * (16 * 2 ^ u) := by omega
    have hround := roundHalfEven_sub (d := 16 * 2 ^ u) hpos (by omega) (2 ^ 53 - 1)
    rw [hdouble, rounded_eq (k := u + 4) (by omega) (by omega), hpow, hround]

end Rounded

/-! ### Doubles -/

section Whole

variable {n : ℕ}

/-- The double nearest to a natural number. -/
def whole (n : ℕ) : Float :=
  Numeral.nearest ⟨n, 0⟩

theorem whole_eq_nearestDouble (n : ℕ) : whole n = nearestDouble n 1 := rfl

theorem whole_zero : whole 0 = zero :=
  nearestDouble_zero 1

/-- A double from zero up has one mantissa and one exponent. -/
theorem IsMagnitude.value_eq_of_toBits {x : Float} {m e : ℕ} (hx : IsMagnitude x)
    (hbits : x.toBits.toNat = e * 2 ^ 52 + m) (hlower : 2 ^ 52 ≤ m) (hupper : m < 2 ^ 53) :
    value x = m * 2 ^ ((e : ℤ) - 1074) := by
  obtain ⟨hparts, hlt, hnormal⟩ := binaryParts_spec hx
  obtain ⟨hm, he⟩ : (binaryParts x).1 = m ∧ (binaryParts x).2 = e := by omega
  rw [hx.value_eq, hm, he]

/-- Moved so that its first bit is the first of 53, a number with few bits is a mantissa. -/
theorem IsShort.exists_mantissa (hn : IsShort n) (hpos : 0 < n) :
    ∃ m, n * 2 ^ 52 = 2 ^ n.log2 * m ∧ 2 ^ 52 ≤ m ∧ m < 2 ^ 53 := by
  have hself := Nat.log2_self_le hpos.ne'
  have hlt := Nat.lt_log2_self (n := n)
  obtain ⟨m, hm⟩ : 2 ^ n.log2 ∣ n * 2 ^ 52 := by
    obtain hle | hle := le_total n.log2 52
    · exact Dvd.dvd.mul_left (pow_dvd_pow 2 hle) n
    · have hsplit : 2 ^ n.log2 = 2 ^ (n.log2 - 52) * 2 ^ 52 := by
        rw [← pow_add, Nat.sub_add_cancel hle]
      rw [hsplit]
      refine Nat.mul_dvd_mul_right (hn.two_pow_dvd ?_) _
      rwa [mul_comm, ← hsplit]
  refine ⟨m, hm, ?_, ?_⟩
  · refine Nat.le_of_mul_le_mul_left ?_ (show 0 < 2 ^ n.log2 by positivity)
    rw [← hm]
    exact Nat.mul_le_mul_right _ hself
  · refine Nat.lt_of_mul_lt_mul_left (a := 2 ^ n.log2) ?_
    rw [← hm, show 2 ^ 53 = 2 * 2 ^ 52 by norm_num, ← mul_assoc, ← pow_succ]
    exact Nat.mul_lt_mul_of_pos_right hlt (by norm_num)

/-- A number with few bits divided by a power of two is a double. -/
theorem IsShort.value_nearestDouble (hn : IsShort n) (hlt : n < 2 ^ 1024) {c : ℕ} (hc : c ≤ 1000) :
    IsMagnitude (nearestDouble n (2 ^ c)) ∧ value (nearestDouble n (2 ^ c)) = n / 2 ^ c := by
  obtain rfl | hpos := Nat.eq_zero_or_pos n
  · rw [nearestDouble_zero, value_zero, Nat.cast_zero, zero_div]
    exact ⟨by decide, rfl⟩
  have hlog : n.log2 < 1024 := log2_lt_of_lt hpos hlt
  obtain ⟨m, hm, hlower, hupper⟩ := hn.exists_mantissa hpos
  have hquotient : (n : ℚ) / (2 ^ c : ℕ) = m * 2 ^ (((n.log2 + 1022 - c : ℕ) : ℤ) - 1074) := by
    have hexp : ((n.log2 + 1022 - c : ℕ) : ℤ) - 1074 = n.log2 - 52 - c := by omega
    have hm' : (n : ℚ) * 2 ^ 52 = 2 ^ n.log2 * m := by exact_mod_cast hm
    rw [hexp, zpow_sub₀ (by norm_num), zpow_sub₀ (by norm_num), zpow_natCast, zpow_natCast,
      ← mul_div_assoc, ← mul_div_assoc, mul_comm (m : ℚ), ← hm']
    push_cast
    rw [mul_div_assoc (n : ℚ)]
    norm_num
  have hbits := nearestBits_of_eq hpos (by positivity) hquotient hupper (.inr hlower)
  have hsmall : (n.log2 + 1022 - c) * 2 ^ 52 + m < infinityBits := by
    unfold infinityBits
    omega
  rw [Nat.min_eq_left hsmall.le] at hbits
  have htoBits : (nearestDouble n (2 ^ c)).toBits.toNat = (n.log2 + 1022 - c) * 2 ^ 52 + m := by
    rw [nearestDouble, hbits, toBits_ofBits hsmall.le]
  have hmagnitude : IsMagnitude (nearestDouble n (2 ^ c)) := by
    unfold IsMagnitude
    rwa [htoBits]
  refine ⟨hmagnitude, ?_⟩
  rw [hmagnitude.value_eq_of_toBits htoBits hlower hupper, ← hquotient]
  push_cast
  rfl

/-- The exponent of the last bit of a natural number that is too long. -/
theorem binaryExponent_one {k : ℕ} (hlower : 2 ^ 52 * 2 ^ k ≤ n) (hupper : n < 2 ^ 53 * 2 ^ k) :
    binaryExponent n 1 = k := by
  have hpos : 0 < n := lt_of_lt_of_le (by positivity) hlower
  refine binaryExponent_eq hpos Nat.one_pos ?_ (.inr ⟨by omega, ?_⟩)
  · rw [Nat.cast_one, div_one, zpow_add₀ (by norm_num), zpow_natCast]
    exact_mod_cast hupper
  · rw [Nat.cast_one, div_one, zpow_add₀ (by norm_num), zpow_natCast]
    exact_mod_cast hlower

theorem nearestBits_one {k : ℕ} (hlower : 2 ^ 52 * 2 ^ k ≤ n) (hupper : n < 2 ^ 53 * 2 ^ k) :
    nearestBits n 1 = min ((k + 1074) * 2 ^ 52 + roundHalfEven n (2 ^ k)) infinityBits := by
  have hpos : n ≠ 0 := (lt_of_lt_of_le (by positivity) hlower).ne'
  have hexp : ((k : ℤ) + 1074).toNat = k + 1074 := by omega
  have hneg : (-(k : ℤ)).toNat = 0 := by omega
  unfold nearestBits
  rw [if_neg hpos, binaryExponent_one hlower hupper]
  simp only [scaled, hexp, hneg, Int.toNat_natCast, Nat.shiftLeft_eq, pow_zero, mul_one, one_mul]

/-- A number and the one it is rounded to have the same nearest double. -/
theorem whole_rounded (n : ℕ) : whole (rounded n) = whole n := by
  obtain hlt | hle := lt_or_ge n (2 ^ 53)
  · rw [rounded_of_lt hlt]
  obtain ⟨k, -, hlower, hupper⟩ := exists_binade hle
  have hpow : 0 < 2 ^ k := by positivity
  have hquotient : 2 ^ 52 ≤ n / 2 ^ k := (Nat.le_div_iff_mul_le hpow).2 hlower
  have hquotient' : n / 2 ^ k < 2 ^ 53 := Nat.div_lt_of_lt_mul (by rwa [mul_comm])
  obtain ⟨hround, hround'⟩ := roundHalfEven_bounds n (2 ^ k)
  rw [whole_eq_nearestDouble, whole_eq_nearestDouble, nearestDouble, nearestDouble,
    nearestBits_one hlower hupper, rounded_eq hlower hupper]
  generalize roundHalfEven n (2 ^ k) = r at hround hround' ⊢
  obtain hlt | rfl : r < 2 ^ 53 ∨ r = 2 ^ 53 := by omega
  · have hlower : 2 ^ 52 * 2 ^ k ≤ r * 2 ^ k := Nat.mul_le_mul_right _ (by omega)
    have hupper : r * 2 ^ k < 2 ^ 53 * 2 ^ k := by gcongr
    rw [nearestBits_one hlower hupper, roundHalfEven_mul r hpow]
  · have hpow' : 2 ^ 53 * 2 ^ k = 2 ^ 52 * 2 ^ (k + 1) := by ring
    have hcarry : (k + 1 + 1074) * 2 ^ 52 + 2 ^ 52 = (k + 1074) * 2 ^ 52 + 2 ^ 53 := by ring
    rw [hpow', nearestBits_one le_rfl (by gcongr <;> norm_num), roundHalfEven_mul _ (by positivity),
      hcarry]

/-- A number that is rounded up to a limit or beyond has no finite double. -/
theorem whole_eq_infinity (hn : 2 ^ 1024 ≤ rounded n) : whole n = infinity := by
  rw [← whole_rounded]
  have hlarge : 2 ^ 53 ≤ rounded n := le_trans (Nat.pow_le_pow_right (by norm_num) (by norm_num)) hn
  obtain ⟨k, -, hlower, hupper⟩ := exists_binade hlarge
  have hk : 972 ≤ k := by
    have hlt : 2 ^ 1024 < 2 ^ (53 + k) := by
      rw [pow_add]
      exact hn.trans_lt hupper
    have := (Nat.pow_lt_pow_iff_right Nat.one_lt_two).1 hlt
    omega
  have hquotient : 2 ^ 52 ≤ rounded n / 2 ^ k := (Nat.le_div_iff_mul_le (by positivity)).2 hlower
  obtain ⟨hround, -⟩ := roundHalfEven_bounds (rounded n) (2 ^ k)
  have hbits : infinityBits ≤ (k + 1074) * 2 ^ 52 + roundHalfEven (rounded n) (2 ^ k) := by
    unfold infinityBits
    omega
  rw [whole_eq_nearestDouble, nearestDouble, nearestBits_one hlower hupper, Nat.min_eq_right hbits]
  rfl

/-- Any other number has the double of the one it is rounded to. -/
theorem value_whole (hn : rounded n < 2 ^ 1024) :
    IsMagnitude (whole n) ∧ value (whole n) = rounded n := by
  have h := (isShort_rounded n).value_nearestDouble hn (Nat.zero_le 1000)
  rw [pow_zero, pow_zero, div_one] at h
  rwa [← whole_eq_nearestDouble, whole_rounded] at h

/-- A number with few bits below the limit is a double. -/
theorem IsShort.value_whole (hn : IsShort n) (hlt : n < 2 ^ 1024) :
    IsMagnitude (whole n) ∧ value (whole n) = n := by
  have h := Decimal.value_whole (n := n) (by rwa [hn.rounded_eq_self])
  rwa [hn.rounded_eq_self] at h

theorem value_whole_of_lt (hn : n < 2 ^ 53) : IsMagnitude (whole n) ∧ value (whole n) = n :=
  (isShort_of_le hn.le).value_whole (hn.trans_le (pow_le_pow_right₀ one_le_two (by norm_num)))

/-- Numbers have the same double if they are rounded to the same, or both beyond the limit. -/
theorem whole_eq_iff {m n : ℕ} :
    whole m = whole n ↔ rounded m = rounded n ∨ 2 ^ 1024 ≤ rounded m ∧ 2 ^ 1024 ≤ rounded n := by
  have hfinite {x : Float} (hx : IsMagnitude x) : x ≠ infinity :=
    ne_infinity_of_isFinite hx.isFinite
  obtain hm | hm := lt_or_ge (rounded m) (2 ^ 1024)
  · obtain ⟨hmfinite, hmvalue⟩ := value_whole hm
    obtain hn | hn := lt_or_ge (rounded n) (2 ^ 1024)
    · obtain ⟨-, hnvalue⟩ := value_whole hn
      refine ⟨fun h => .inl ?_, ?_⟩
      · rw [h, hnvalue] at hmvalue
        exact_mod_cast hmvalue.symm
      · rintro (h | ⟨h, -⟩)
        · rw [← whole_rounded m, h, whole_rounded]
        · exact absurd hm (not_lt.2 h)
    · rw [whole_eq_infinity hn]
      refine ⟨fun h => absurd h (hfinite hmfinite), ?_⟩
      rintro (h | ⟨h, -⟩)
      · exact absurd hm (not_lt.2 (h ▸ hn))
      · exact absurd hm (not_lt.2 h)
  · rw [whole_eq_infinity hm]
    obtain hn | hn := lt_or_ge (rounded n) (2 ^ 1024)
    · refine ⟨fun h => absurd h.symm (hfinite (value_whole hn).1), ?_⟩
      rintro (h | ⟨-, h⟩)
      · exact absurd hn (not_lt.2 (h ▸ hm))
      · exact absurd hn (not_lt.2 h)
    · rw [whole_eq_infinity hn]
      exact iff_of_true rfl (.inr ⟨hm, hn⟩)

end Whole

end BlockScript.Decimal
