import BlockScript.Proofs.NumberGrammar
import BlockScript.Proofs.WholeNumbers

/-!
# Hexadecimal and decimal literals of one number

The digits of a hexadecimal literal are taken up one by one. After each digit a test shall tell
whether it was lost: the double is taken back to what it was before the digit. A decimal literal is
rounded once.

* `Passes`: the test, as one on natural numbers; `hexInteger_whole_cons`: one digit.
* `hexInteger_of_isShort`: a number with few bits is taken up without loss.
* `hexInteger_of_not_isShort`: any other number is rounded at the first digit that makes it too
  long, and nothing behind that digit counts; or the literal is infinite, whatever its size.
* `Spelled`: the digits of a number, in either letter case and behind any zeros.
* `hex_and_decimal_literals`: what the two literals denote, and when this is the same.
-/

namespace BlockScript

open Piece

namespace Decimal

/-! ### Rounding twice -/

/-- Without its last hexadecimal digit, the rounded number is what there was before this digit. -/
def Passes (q : ℕ) : Prop :=
  rounded (rounded q - q % 16) = q - q % 16

instance : DecidablePred Passes := fun _ => inferInstanceAs (Decidable (_ = _))

theorem isShort_iff_rounded {n : ℕ} : IsShort n ↔ rounded n = n :=
  ⟨IsShort.rounded_eq_self, fun h => h ▸ isShort_rounded n⟩

instance : DecidablePred IsShort := fun _ => decidable_of_iff _ isShort_iff_rounded.symm

theorem IsShort.sixteen_mul {p : ℕ} (hp : IsShort p) : IsShort (16 * p) := by
  rw [mul_comm]
  exact hp.mul_two_pow 4

section Passes

variable {p q d k n : ℕ}

theorem passes_sixteen_mul_add (hd : d < 16) :
    Passes (16 * p + d) ↔ rounded (rounded (16 * p + d) - d) = 16 * p := by
  rw [Passes, Nat.mul_add_mod, Nat.mod_eq_of_lt hd, Nat.add_sub_cancel]

/-- A digit that keeps the number short is not lost. -/
theorem IsShort.passes (hq : IsShort q) : Passes q := by
  have hdigits : q - q % 16 = q / 2 ^ 4 * 2 ^ 4 := by omega
  rw [Passes, hq.rounded_eq_self, hdigits]
  exact ((hq.div_two_pow 4).mul_two_pow 4).rounded_eq_self

/-- Behind a short number that leaves no room for its last bit no digit seems to be lost. -/
theorem IsShort.passes_add (hp : IsShort p) (hlt : 2 ^ 53 < p) (hd : d < 16) :
    Passes (16 * p + d) := by
  rw [passes_sixteen_mul_add hd, hp.rounded_add hlt hd, hp.rounded_sub hlt hd]

/-- A number too long is rounded to one above the first limit, or does not pass. -/
theorem Passes.lt_rounded (h : Passes q) (hq : ¬ IsShort q) : 2 ^ 53 < rounded q := by
  have hlt : 2 ^ 53 < q := not_le.1 fun hle => hq (isShort_of_le hle)
  have hlimit : IsShort (2 ^ 53) := isShort_of_le le_rfl
  refine lt_of_le_of_ne (hlimit.le_rounded hlt.le) fun heq => ?_
  obtain rfl : q = 2 ^ 53 + 1 := by
    by_contra hne
    have hnext : IsShort (2 ^ 53 + 2) := isShort_mul (q := 2 ^ 52 + 1) (by norm_num) 1
    have := hnext.le_rounded (n := q) (by omega)
    omega
  rw [Passes, ← heq] at h
  exact absurd h (by decide)

/-- Halving the unit of an odd quotient tells the rounding. -/
theorem roundHalfEven_of_odd {d : ℕ} (hd : 0 < d) (hodd : n / (2 * d) % 2 = 1) :
    roundHalfEven n (2 * d) = n / (2 * d) + n / d % 2 := by
  have hr := Nat.mod_lt n hd
  have hmod : n % (2 * d) = n % d + d * (n / d % 2) := by
    rw [Nat.mul_comm, Nat.mod_mul]
  obtain hbit | hbit : n / d % 2 = 0 ∨ n / d % 2 = 1 := by omega
  · rw [hbit, mul_zero, add_zero] at hmod
    have hlow : 2 * (n % (2 * d)) < 2 * d := by omega
    simp only [roundHalfEven, if_pos hlow, hbit, add_zero]
  · rw [hbit, mul_one] at hmod
    have hhigh : ¬ 2 * (n % (2 * d)) < 2 * d := by omega
    simp only [roundHalfEven, if_neg hhigh, hbit, hodd, ite_self]

theorem div_div_two_pow (n i j : ℕ) : n / 2 ^ j / 2 ^ i = n / 2 ^ (i + j) := by
  rw [Nat.div_div_eq_div_mul, ← pow_add, Nat.add_comm]

/-- The first 53 bits of a number are those of the number without its last bits. -/
theorem binade_of_div {i j : ℕ} (hlower : 2 ^ 52 * 2 ^ i ≤ n / 2 ^ j)
    (hupper : n / 2 ^ j < 2 ^ 53 * 2 ^ i) :
    2 ^ 52 * 2 ^ (i + j) ≤ n ∧ n < 2 ^ 53 * 2 ^ (i + j) := by
  rw [pow_add, ← mul_assoc, ← mul_assoc]
  exact ⟨(Nat.le_div_iff_mul_le (by positivity)).1 hlower,
    (Nat.div_lt_iff_lt_mul (by positivity)).1 hupper⟩

/-- Behind an odd quotient the next bit tells the rounding, so the last bits do not count. -/
theorem roundHalfEven_div_of_odd {i j : ℕ} (hodd : n / 2 ^ (i + 1 + j) % 2 = 1) :
    roundHalfEven (n / 2 ^ j) (2 ^ (i + 1)) = roundHalfEven n (2 ^ (i + 1 + j)) := by
  have hunit : 2 ^ (i + 1 + j) = 2 * 2 ^ (i + j) := by ring
  have hquotient : n / 2 ^ j / (2 * 2 ^ i) = n / (2 * 2 ^ (i + j)) := by
    rw [← pow_succ', div_div_two_pow, hunit]
  rw [hunit] at hodd
  rw [hunit, pow_succ', roundHalfEven_of_odd (by positivity) (by rwa [hquotient]),
    roundHalfEven_of_odd (by positivity) hodd, hquotient, div_div_two_pow]

/-- A number that is rounded up to a power of two or beyond is so already without its last bits, if
the others are too many. -/
theorem le_rounded_div_mul {j m : ℕ} (hq : ¬ IsShort (n / 2 ^ j)) (hn : 2 ^ m ≤ rounded n) :
    2 ^ m ≤ rounded (n / 2 ^ j) * 2 ^ j := by
  have hlong : 2 ^ 53 < n / 2 ^ j := not_le.1 fun hle => hq (isShort_of_le hle)
  obtain ⟨k, hk, hlower, hupper⟩ := exists_binade hlong.le
  obtain ⟨hnlower, hnupper⟩ := binade_of_div hlower hupper
  have hfirst : n / 2 ^ (k + j) < 2 ^ 53 := (Nat.div_lt_iff_lt_mul (by positivity)).2 hnupper
  rw [rounded_eq hnlower hnupper] at hn
  rw [rounded_eq hlower hupper, mul_assoc, ← pow_add]
  obtain heven | hodd : n / 2 ^ (k + j) % 2 = 0 ∨ n / 2 ^ (k + j) % 2 = 1 := by omega
  · -- what is not all ones is not rounded up to a power of two
    obtain ⟨-, hround⟩ := roundHalfEven_bounds n (2 ^ (k + j))
    obtain ⟨hround', -⟩ := roundHalfEven_bounds (n / 2 ^ j) (2 ^ k)
    have hquotient : 2 ^ 52 ≤ n / 2 ^ j / 2 ^ k := (Nat.le_div_iff_mul_le (by positivity)).2 hlower
    have hlt : 2 ^ m < 2 ^ (53 + (k + j)) := by
      rw [pow_add]
      exact hn.trans_lt (Nat.mul_lt_mul_of_pos_right (by omega) (by positivity))
    have hexp := (Nat.pow_lt_pow_iff_right Nat.one_lt_two).1 hlt
    calc 2 ^ m ≤ 2 ^ (52 + (k + j)) := Nat.pow_le_pow_right Nat.two_pos (by omega)
      _ = 2 ^ 52 * 2 ^ (k + j) := pow_add ..
      _ ≤ _ := Nat.mul_le_mul_right _ (hquotient.trans hround')
  · obtain ⟨i, rfl⟩ := Nat.exists_eq_add_one.2 hk
    rwa [roundHalfEven_div_of_odd hodd]

end Passes

/-! ### Taking up a digit -/

section Digits

variable {p d n k : ℕ} {c : Char} {cs : List Char}

theorem digitFloat_of_lt (hd : d < 16) :
    IsMagnitude (digitFloat d) ∧ value (digitFloat d) = d :=
  value_whole_of_lt (by omega)

theorem value_sixteen : IsMagnitude sixteen ∧ value sixteen = 16 :=
  value_whole_of_lt (n := 16) (by omega)

theorem exists_hexValue? (h : isHexDigit c = true) : ∃ d < 16, hexValue? c = some d := by
  obtain ⟨d, hd⟩ := Option.isSome_iff_exists.1 (hexValue?_isSome h)
  refine ⟨d, ?_, hd⟩
  simp only [hexValue?, Char.isDigit, Bool.and_eq_true, decide_eq_true_eq, Char.le_def,
    UInt32.le_iff_toNat_le, ge_iff_le] at hd
  have h9 : ('9').val.toNat = 57 := rfl
  have hf : ('f').val.toNat = 102 := rfl
  have hF : ('F').val.toNat = 70 := rfl
  have h0 : ('0').toNat = 48 := rfl
  have ha : ('a').toNat = 97 := rfl
  have hA : ('A').toNat = 65 := rfl
  have hc : c.val.toNat = c.toNat := rfl
  split_ifs at hd with hdigit hlower hupper
  all_goals
    have hvalue := Option.some.inj hd
    omega

/-- Once infinite, a literal stays so. -/
theorem infinity_digits : ∀ d < 16, infinity + digitFloat d = infinity ∧
    (infinity - digitFloat d) / sixteen = infinity ∧ overflows infinity (digitFloat d) = true := by
  decide +kernel

theorem hexInteger_infinity (hcs : ∀ c ∈ cs, isHexDigit c = true) :
    (hexInteger infinity cs).1 = infinity := by
  cases cs with
  | nil => rfl
  | cons c cs =>
    obtain ⟨d, hd, hc⟩ := exists_hexValue? (hcs c List.mem_cons_self)
    simp only [hexInteger, hc, Option.map_some, (infinity_digits d hd).2.2, if_true]

/-- A double and a digit make up the double nearest to the number and the digit. -/
theorem whole_mul_sixteen_add (hp : IsShort p) (hlt : p < 2 ^ 1024) (hd : d < 16) :
    whole p * sixteen + digitFloat d = whole (16 * p + d) := by
  obtain ⟨hpfinite, hpvalue⟩ := hp.value_whole hlt
  obtain ⟨hdfinite, hdvalue⟩ := digitFloat_of_lt hd
  obtain ⟨h16finite, h16value⟩ := value_sixteen
  have hshort := hp.sixteen_mul
  have hproduct : whole p * sixteen = whole (16 * p) := by
    refine hpfinite.mul_eq h16finite Nat.one_pos ?_
    rw [hpvalue, h16value]
    push_cast
    ring
  rw [hproduct]
  obtain hfinite | hlarge := lt_or_ge (16 * p) (2 ^ 1024)
  · obtain ⟨hfinite, hvalue⟩ := hshort.value_whole hfinite
    refine hfinite.add_eq hdfinite Nat.one_pos ?_
    rw [hvalue, hdvalue]
    push_cast
    ring
  · have hlarge' : 2 ^ 1024 ≤ rounded (16 * p + d) :=
      hlarge.trans (hshort.le_rounded (Nat.le_add_right ..))
    rw [whole_eq_infinity (hshort.rounded_eq_self.symm ▸ hlarge), whole_eq_infinity hlarge',
      (infinity_digits d hd).1]

/-- Doubles from zero up are equal as numbers only if they are the same. -/
theorem IsMagnitude.beq_iff {x y : Float} (hx : IsMagnitude x) (hy : IsMagnitude y) :
    (x == y) = true ↔ x = y := by
  have hminus : ¬ IsMagnitude (-0) := by decide
  have hnan : ¬ IsMagnitude Float.nan := by decide
  rw [Float.beq_iff_ne_nan_and_eq]
  constructor
  · rintro ⟨-, -, h | ⟨-, rfl⟩ | ⟨rfl, -⟩⟩
    · exact h
    · exact absurd hy hminus
    · exact absurd hx hminus
  · rintro rfl
    exact ⟨fun h => hnan (h ▸ hx), fun h => hnan (h ▸ hx), .inl rfl⟩

/-- Taking the digit off again is rounded a second time. -/
theorem whole_sub_digitFloat (hd : d < 16) (hle : d ≤ rounded n) (hfinite : rounded n < 2 ^ 1024) :
    whole n - digitFloat d = whole (rounded n - d) := by
  obtain ⟨hnmag, hnvalue⟩ := value_whole hfinite
  obtain ⟨hdmag, hdvalue⟩ := digitFloat_of_lt hd
  rw [whole_eq_nearestDouble (_ - d)]
  refine hnmag.sub_eq hdmag Nat.one_pos ?_
  rw [hnvalue, hdvalue, Nat.cast_sub hle, Nat.cast_one, div_one]

/-- A sixteenth of a whole number is not rounded. -/
theorem value_whole_div_sixteen (hfinite : rounded n < 2 ^ 1024) :
    IsMagnitude (whole n / sixteen) ∧ value (whole n / sixteen) = rounded n / 16 := by
  obtain ⟨hmag, hvalue⟩ := value_whole hfinite
  obtain ⟨h16mag, h16value⟩ := value_sixteen
  have hquotient : whole n / sixteen = nearestDouble (rounded n) (2 ^ 4) := by
    refine hmag.div_eq h16mag (by decide) (by norm_num) ?_
    rw [hvalue, h16value]
    norm_num
  have hshort := (isShort_rounded n).value_nearestDouble hfinite (c := 4) (by norm_num)
  rw [hquotient]
  norm_num at hshort ⊢
  exact hshort

/-- Without the digit and divided, the next double is the one before if the digit was not lost. -/
theorem whole_beq_iff (hp : IsShort p) (hlt : p < 2 ^ 1024) (hd : d < 16)
    (hfinite : rounded (16 * p + d) < 2 ^ 1024) :
    (whole p == (whole (16 * p + d) - digitFloat d) / sixteen) = true ↔ Passes (16 * p + d) := by
  have hle : d ≤ rounded (16 * p + d) :=
    (isShort_of_le (by omega)).le_rounded (Nat.le_add_left ..)
  have hless : rounded (rounded (16 * p + d) - d) < 2 ^ 1024 :=
    ((isShort_rounded _).rounded_le (Nat.sub_le ..)).trans_lt hfinite
  obtain ⟨hpmag, hpvalue⟩ := hp.value_whole hlt
  obtain ⟨hmag, hvalue⟩ := value_whole_div_sixteen hless
  rw [whole_sub_digitFloat hd hle hfinite, hpmag.beq_iff hmag, passes_sixteen_mul_add hd,
    hpmag.eq_iff_value hmag, hpvalue, hvalue, eq_div_iff (by norm_num), eq_comm, mul_comm]
  exact_mod_cast Iff.rfl

/-- The test fails if the digit was lost, and beyond the limit of the doubles. -/
theorem overflows_whole (hp : IsShort p) (hpos : 0 < p) (hlt : p < 2 ^ 1024) (hd : d < 16) :
    overflows (whole p) (digitFloat d) = true ↔
      2 ^ 1024 ≤ rounded (16 * p + d) ∨ ¬ Passes (16 * p + d) := by
  obtain ⟨hpmag, hpvalue⟩ := hp.value_whole hlt
  have hzero : (whole p != zero) = true := by
    rw [bne, Bool.not_eq_true', ← Bool.not_eq_true, hpmag.beq_iff (by decide)]
    intro h
    rw [h, value_zero] at hpvalue
    exact hpos.ne (by exact_mod_cast hpvalue)
  rw [overflows, whole_mul_sixteen_add hp hlt hd, hzero, Bool.true_and, Bool.or_eq_true,
    decide_eq_true_iff]
  obtain hfinite | hlarge := lt_or_ge (rounded (16 * p + d)) (2 ^ 1024)
  · obtain ⟨hnmag, hnvalue⟩ := value_whole hfinite
    have hle : 16 * p ≤ rounded (16 * p + d) := hp.sixteen_mul.le_rounded (Nat.le_add_right ..)
    have hmore : ¬ rounded (16 * p + d) ≤ p := by omega
    rw [hnmag.le_iff hpmag, hnvalue, hpvalue, Nat.cast_le, bne, Bool.not_eq_true',
      ← Bool.not_eq_true, whole_beq_iff hp hlt hd hfinite]
    simp only [hmore, not_le.2 hfinite, false_or]
  · have hinfinite : (whole p != infinity) = true := by
      rw [bne, Bool.not_eq_true', ← Bool.not_eq_true, beq_infinity_iff]
      exact ne_infinity_of_isFinite hpmag.isFinite
    rw [whole_eq_infinity hlarge, (infinity_digits d hd).2.1]
    exact iff_of_true (.inr hinfinite) (.inl hlarge)

/-- A digit that passes the test is taken up. -/
theorem hexInteger_whole_cons (hp : IsShort p) (hc : hexValue? c = some d) (hd : d < 16)
    (hcs : ∀ c ∈ cs, isHexDigit c = true) :
    (hexInteger (whole p) (c :: cs)).1 =
      if Passes (16 * p + d) then (hexInteger (whole (16 * p + d)) cs).1 else infinity := by
  have hbeyond (hlarge : 2 ^ 1024 ≤ rounded (16 * p + d)) :
      (hexInteger (whole (16 * p + d)) cs).1 = infinity := by
    rw [whole_eq_infinity hlarge, hexInteger_infinity hcs]
  simp only [hexInteger, hc, Option.map_some]
  obtain hlt | hlarge := lt_or_ge p (2 ^ 1024)
  · rw [whole_mul_sixteen_add hp hlt hd]
    obtain rfl | hpos := Nat.eq_zero_or_pos p
    · have hzero : overflows (whole 0) (digitFloat d) = false := by
        rw [whole_zero]
        rfl
      have hpasses : Passes (16 * 0 + d) := (isShort_of_le (by omega)).passes
      rw [hzero, if_pos hpasses, if_neg Bool.false_ne_true]
    · simp only [overflows_whole hp hpos hlt hd]
      by_cases hlarge : 2 ^ 1024 ≤ rounded (16 * p + d)
      · simp only [hlarge, true_or, if_true, hbeyond hlarge, ite_self]
      · by_cases hpasses : Passes (16 * p + d)
        · simp only [hlarge, hpasses, not_true, or_false, if_false, if_true]
        · simp only [hpasses, not_false_eq_true, or_true, if_true, if_false]
  · have hle : 16 * p ≤ rounded (16 * p + d) := hp.sixteen_mul.le_rounded (Nat.le_add_right ..)
    rw [hbeyond (by omega), whole_eq_infinity (hp.rounded_eq_self.symm ▸ hlarge),
      (infinity_digits d hd).2.2, ite_self]
    rfl

/-! ### Taking up all digits -/

/-- The number that hexadecimal digits make up behind another. -/
def ofHexDigits (p : ℕ) (cs : List Char) : ℕ :=
  cs.foldl (fun n c => 16 * n + (hexValue? c).getD 0) p

theorem ofHexDigits_cons (hc : hexValue? c = some d) (p : ℕ) (cs : List Char) :
    ofHexDigits p (c :: cs) = ofHexDigits (16 * p + d) cs := by
  rw [ofHexDigits, List.foldl_cons, hc]
  rfl

/-- Without its last digits the number is what there was in front of them. -/
theorem ofHexDigits_div (hcs : ∀ c ∈ cs, isHexDigit c = true) (p : ℕ) :
    ofHexDigits p cs / 16 ^ cs.length = p := by
  induction cs generalizing p with
  | nil => simp [ofHexDigits]
  | cons c cs ih =>
    obtain ⟨d, hd, hc⟩ := exists_hexValue? (hcs c List.mem_cons_self)
    rw [ofHexDigits_cons hc, List.length_cons, pow_succ, ← Nat.div_div_eq_div_mul,
      ih fun c hc => hcs c (List.mem_cons_of_mem _ hc)]
    omega

theorem sixteen_pow (k : ℕ) : 16 ^ k = 2 ^ (4 * k) := by
  rw [Nat.pow_mul]

theorem IsShort.div_sixteen_pow (hn : IsShort n) (k : ℕ) : IsShort (n / 16 ^ k) := by
  rw [sixteen_pow]
  exact hn.div_two_pow _

/-- A number that stays short is taken up without loss. -/
theorem hexInteger_of_isShort (hcs : ∀ c ∈ cs, isHexDigit c = true)
    (hn : IsShort (ofHexDigits p cs)) :
    (hexInteger (whole p) cs).1 = whole (ofHexDigits p cs) := by
  induction cs generalizing p with
  | nil => rfl
  | cons c cs ih =>
    obtain ⟨d, hd, hc⟩ := exists_hexValue? (hcs c List.mem_cons_self)
    have hcs' : ∀ c ∈ cs, isHexDigit c = true :=
      fun c hc => hcs c (List.mem_cons_of_mem _ hc)
    have hp : IsShort p := by
      rw [← ofHexDigits_div hcs p]
      exact hn.div_sixteen_pow _
    rw [ofHexDigits_cons hc] at hn ⊢
    have hnext : IsShort (16 * p + d) := by
      rw [← ofHexDigits_div hcs' (16 * p + d)]
      exact hn.div_sixteen_pow _
    rw [hexInteger_whole_cons hp hc hd hcs', if_pos hnext.passes, ih hcs' hn]

/-- Behind a short number that is too large for its last bit no digit counts. -/
theorem hexInteger_of_lt (hcs : ∀ c ∈ cs, isHexDigit c = true) (hp : IsShort p)
    (hlt : 2 ^ 53 < p) : (hexInteger (whole p) cs).1 = whole (p * 16 ^ cs.length) := by
  induction cs generalizing p with
  | nil => simp [hexInteger]
  | cons c cs ih =>
    obtain ⟨d, hd, hc⟩ := exists_hexValue? (hcs c List.mem_cons_self)
    have hcs' : ∀ c ∈ cs, isHexDigit c = true :=
      fun c hc => hcs c (List.mem_cons_of_mem _ hc)
    rw [hexInteger_whole_cons hp hc hd hcs', if_pos (hp.passes_add hlt hd), ← whole_rounded,
      hp.rounded_add hlt hd, ih hcs' hp.sixteen_mul (by omega), List.length_cons, pow_succ']
    congr 1
    ring

/-- A number that becomes too long is rounded at the digit that makes it so, or the literal is
infinite. -/
theorem hexInteger_of_not_isShort (hcs : ∀ c ∈ cs, isHexDigit c = true) (hp : IsShort p)
    (hshort : IsShort (ofHexDigits p cs / 16 ^ (k + 1)))
    (hlong : ¬ IsShort (ofHexDigits p cs / 16 ^ k)) :
    (hexInteger (whole p) cs).1 =
      if Passes (ofHexDigits p cs / 16 ^ k) then
        whole (rounded (ofHexDigits p cs / 16 ^ k) * 16 ^ k)
      else infinity := by
  induction cs generalizing p with
  | nil => exact absurd (hp.div_sixteen_pow k) hlong
  | cons c cs ih =>
    obtain ⟨d, hd, hc⟩ := exists_hexValue? (hcs c List.mem_cons_self)
    have hcs' : ∀ c ∈ cs, isHexDigit c = true :=
      fun c hc => hcs c (List.mem_cons_of_mem _ hc)
    rw [ofHexDigits_cons hc] at hshort hlong ⊢
    rw [hexInteger_whole_cons hp hc hd hcs']
    have hfront := ofHexDigits_div hcs' (16 * p + d)
    obtain hlt | rfl | hgt := lt_trichotomy k cs.length
    · -- the digit that makes the number too long is still to come
      have hnext : IsShort (16 * p + d) := by
        obtain ⟨i, hi⟩ := Nat.exists_eq_add_of_le (Nat.succ_le_of_lt hlt)
        rw [← hfront, hi, pow_add, ← Nat.div_div_eq_div_mul]
        exact hshort.div_sixteen_pow i
      rw [if_pos hnext.passes]
      exact ih hcs' hnext hshort hlong
    · rw [hfront] at hlong ⊢
      split_ifs with hpasses
      · rw [← whole_rounded, hexInteger_of_lt hcs' (isShort_rounded _) (hpasses.lt_rounded hlong)]
      · rfl
    · -- it would have come already
      refine absurd ?_ hlong
      obtain ⟨i, rfl⟩ := Nat.exists_eq_add_of_lt hgt
      have hp' : ofHexDigits (16 * p + d) cs / 16 ^ (cs.length + 1) = p := by
        rw [pow_succ, ← Nat.div_div_eq_div_mul, hfront]
        omega
      rw [show cs.length + i + 1 = cs.length + 1 + i by omega, pow_add, ← Nat.div_div_eq_div_mul,
        hp']
      exact hp.div_sixteen_pow i

/-- Some digit is the first that makes the number too long. -/
theorem exists_not_isShort (hn : ¬ IsShort n) :
    ∃ k, IsShort (n / 16 ^ (k + 1)) ∧ ¬ IsShort (n / 16 ^ k) := by
  have hexists : ∃ k, IsShort (n / 16 ^ k) := by
    refine ⟨n, isShort_of_le ?_⟩
    rw [Nat.div_eq_of_lt (Nat.lt_pow_self (by norm_num))]
    norm_num
  obtain ⟨k, hk⟩ : ∃ k, Nat.find hexists = k + 1 := by
    refine Nat.exists_eq_succ_of_ne_zero fun hzero => hn ?_
    have h := Nat.find_spec hexists
    rwa [hzero, pow_zero, Nat.div_one] at h
  exact ⟨k, hk ▸ Nat.find_spec hexists, Nat.find_min hexists (by omega)⟩

/-- The literal denotes the double nearest to the number if this is short, or beyond the limit of
the doubles, or if what stands behind the first digit that is one too many does not count. -/
theorem hexInteger_eq_whole_iff (hcs : ∀ c ∈ cs, isHexDigit c = true) :
    (hexInteger (whole 0) cs).1 = whole (ofHexDigits 0 cs) ↔
      IsShort (ofHexDigits 0 cs) ∨ 2 ^ 1024 ≤ rounded (ofHexDigits 0 cs) ∨
        ∃ k, IsShort (ofHexDigits 0 cs / 16 ^ (k + 1)) ∧ ¬ IsShort (ofHexDigits 0 cs / 16 ^ k) ∧
          Passes (ofHexDigits 0 cs / 16 ^ k) ∧
          rounded (ofHexDigits 0 cs / 16 ^ k) * 16 ^ k = rounded (ofHexDigits 0 cs) := by
  have hzero : IsShort 0 := isShort_of_le (Nat.zero_le _)
  have hrun {k : ℕ} := hexInteger_of_not_isShort (k := k) hcs hzero
  have hexact := hexInteger_of_isShort (p := 0) hcs
  generalize ofHexDigits 0 cs = n at hrun hexact
  have hself (k : ℕ) : rounded (rounded (n / 16 ^ k) * 16 ^ k) = rounded (n / 16 ^ k) * 16 ^ k := by
    rw [sixteen_pow]
    exact ((isShort_rounded _).mul_two_pow _).rounded_eq_self
  constructor
  · intro heq
    refine or_iff_not_imp_left.2 fun hn => ?_
    obtain ⟨k, hshort, hlong⟩ := exists_not_isShort hn
    rw [hrun hshort hlong] at heq
    split_ifs at heq with hpasses
    · obtain heq | ⟨-, hlarge⟩ := whole_eq_iff.1 heq
      · rw [hself] at heq
        exact .inr ⟨k, hshort, hlong, hpasses, heq⟩
      · exact .inl hlarge
    · refine .inl (not_lt.1 fun hlt => ?_)
      exact ne_infinity_of_isFinite (value_whole hlt).1.isFinite heq.symm
  · rintro (hn | hlarge | ⟨k, hshort, hlong, hpasses, heq⟩)
    · exact hexact hn
    · by_cases hn : IsShort n
      · exact hexact hn
      obtain ⟨k, hshort, hlong⟩ := exists_not_isShort hn
      have hbeyond : 2 ^ 1024 ≤ rounded (rounded (n / 16 ^ k) * 16 ^ k) := by
        rw [hself]
        rw [sixteen_pow] at hlong ⊢
        exact le_rounded_div_mul hlong hlarge
      rw [hrun hshort hlong, whole_eq_infinity hlarge, whole_eq_infinity hbeyond, ite_self]
    · rw [hrun hshort hlong, if_pos hpasses, heq, whole_rounded]

end Digits

/-! ### Spelling a number -/

/-- The digits of a number, in either letter case and behind any zeros. -/
def Spelled (b n : ℕ) (cs : List Char) : Prop :=
  ∃ k, cs.map Char.toLower = List.replicate k '0' ++ Nat.toDigits b n

example : Spelled 16 0xABCDEF "00aBcDeF".toList := ⟨2, by decide⟩

section Spelled

variable {b n d : ℕ} {c : Char} {cs : List Char}

theorem exists_digitChar (hb : 1 < b) (hc : c ∈ Nat.toDigits b n) :
    ∃ d < b, c = Nat.digitChar d := by
  induction n using Nat.strong_induction_on with
  | _ n ih =>
    rw [Nat.toDigits_eq_if hb] at hc
    split_ifs at hc with hn
    · exact ⟨n, hn, List.mem_singleton.1 hc⟩
    · obtain hc | hc := List.mem_append.1 hc
      · exact ih _ (Nat.div_lt_self (by omega) hb) hc
      · exact ⟨n % b, Nat.mod_lt n (by omega), List.mem_singleton.1 hc⟩

theorem Spelled.exists_digitChar (h : Spelled b n cs) (hb : 1 < b) (hc : c ∈ cs) :
    ∃ d < b, c.toLower = Nat.digitChar d := by
  obtain ⟨k, h⟩ := h
  have hmem : c.toLower ∈ List.replicate k '0' ++ Nat.toDigits b n := by
    rw [← h]
    exact List.mem_map_of_mem hc
  obtain hmem | hmem := List.mem_append.1 hmem
  · exact ⟨0, by omega, List.eq_of_mem_replicate hmem⟩
  · exact Decimal.exists_digitChar hb hmem

theorem Spelled.ne_nil (h : Spelled b n cs) : cs ≠ [] := by
  obtain ⟨k, h⟩ := h
  rintro rfl
  exact Nat.toDigits_ne_nil (List.append_eq_nil_iff.1 h.symm).2

theorem foldl_toDigits (hb : 1 < b) {f : Char → ℕ} (hf : ∀ d < b, f (Nat.digitChar d) = d) (n : ℕ) :
    (Nat.toDigits b n).foldl (fun m c => b * m + f c) 0 = n := by
  induction n using Nat.strong_induction_on with
  | _ n ih =>
    rw [Nat.toDigits_eq_if hb]
    split_ifs with hn
    · simp [hf n hn]
    · rw [List.foldl_append, ih _ (Nat.div_lt_self (by omega) hb), List.foldl_cons, List.foldl_nil,
        hf _ (Nat.mod_lt n (by omega)), Nat.div_add_mod]

theorem toNat_lt_of_toLower (hd : d < 16) (hc : c.toLower = Nat.digitChar d) : c.toNat < 128 := by
  have hdigits : ∀ d < 16, (Nat.digitChar d).toNat < 128 := by decide
  have hlower := hdigits d hd
  rw [← hc, Char.toLower] at hlower
  split_ifs at hlower with hupper
  · exact lt_of_le_of_lt (UInt32.le_iff_toNat_le.1 hupper.2) (by decide)
  · exact hlower

/-- A digit in either letter case is the digit. -/
theorem hexDigit_of_toLower (hd : d < 16) (hc : c.toLower = Nat.digitChar d) :
    hexValue? c = some d ∧ isHexDigit c = true := by
  have hall : ∀ n < 128, ∀ d < 16, (Char.ofNat n).toLower = Nat.digitChar d →
      hexValue? (Char.ofNat n) = some d ∧ isHexDigit (Char.ofNat n) = true := by
    decide +kernel
  have h := hall c.toNat (toNat_lt_of_toLower hd hc) d hd
  rw [Char.ofNat_toNat] at h
  exact h hc

theorem digit_of_toLower (hd : d < 10) (hc : c.toLower = Nat.digitChar d) :
    digitValue c = d ∧ c.isDigit = true := by
  have hall : ∀ n < 128, ∀ d < 10, (Char.ofNat n).toLower = Nat.digitChar d →
      digitValue (Char.ofNat n) = d ∧ (Char.ofNat n).isDigit = true := by
    decide +kernel
  have h := hall c.toNat (toNat_lt_of_toLower (by omega) hc) d hd
  rw [Char.ofNat_toNat] at h
  exact h hc

/-- Digits are read as the number that they spell. -/
theorem Spelled.foldl_eq (h : Spelled b n cs) (hb : 1 < b) (hb' : b ≤ 16) {f : Char → ℕ}
    (hf : ∀ d < b, ∀ c : Char, c.toLower = Nat.digitChar d → f c = d) :
    cs.foldl (fun m c => b * m + f c) 0 = n := by
  have hlower : ∀ d < 16, (Nat.digitChar d).toLower = Nat.digitChar d := by decide
  have hdigit (d : ℕ) (hd : d < b) : f (Nat.digitChar d) = d :=
    hf d hd _ (hlower d (hd.trans_le hb'))
  have hcase : ∀ m, ∀ c ∈ cs, b * m + f c = b * m + f c.toLower := by
    intro m c hc
    obtain ⟨d, hd, hcd⟩ := h.exists_digitChar hb hc
    rw [hf d hd c hcd, hcd, hdigit d hd]
  obtain ⟨k, hk⟩ := h
  have hzeros : (List.replicate k '0').foldl (fun m c => b * m + f c) 0 = 0 := by
    have hzero : f '0' = 0 := hdigit 0 (by omega)
    clear hk
    induction k with
    | zero => rfl
    | succ k ih => rwa [List.replicate_succ, List.foldl_cons, hzero, mul_zero, add_zero]
  calc cs.foldl (fun m c => b * m + f c) 0
      = (cs.map Char.toLower).foldl (fun m c => b * m + f c) 0 := by
        rw [List.foldl_map]
        exact List.foldl_ext _ _ _ hcase
    _ = n := by rw [hk, List.foldl_append, hzeros, foldl_toDigits hb hdigit]

theorem Spelled.ofHexDigits_eq (h : Spelled 16 n cs) : ofHexDigits 0 cs = n := by
  refine h.foldl_eq (by norm_num) le_rfl fun d hd c hc => ?_
  rw [(hexDigit_of_toLower hd hc).1, Option.getD_some]

theorem Spelled.isHexDigit (h : Spelled 16 n cs) : ∀ c ∈ cs, isHexDigit c = true := by
  intro c hc
  obtain ⟨d, hd, hcd⟩ := h.exists_digitChar (by norm_num) hc
  exact (hexDigit_of_toLower hd hcd).2

theorem Spelled.ofDigits_eq (h : Spelled 10 n cs) : ofDigits cs = n :=
  h.foldl_eq (by norm_num) (by norm_num) fun _ hd _ hc => (digit_of_toLower hd hc).1

theorem Spelled.isDigit (h : Spelled 10 n cs) : ∀ c ∈ cs, c.isDigit = true := by
  intro c hc
  obtain ⟨d, hd, hcd⟩ := h.exists_digitChar (by norm_num) hc
  exact (digit_of_toLower hd hcd).2

end Spelled

end Decimal

/-! ### Literals of a program -/

open Decimal Grammar

/-- Hexadecimal digits behind their mark are a program of one token. -/
theorem scan_of_isHexDigit {w : String} (h : ∀ c ∈ w.toList, isHexDigit c = true) :
    scan ("#" ++ w) = .ok ⟨[⟨.hex w, 1⟩], 1⟩ := by
  have hlongest : Longest IsHexNumber ('#' :: w.toList) [] :=
    longest_isHexNumber_iff.2 ⟨h, stops_nil _⟩
  have hwritten : (Lexeme.hex w).Written ('#' :: w.toList) [] := by
    simpa using Lexeme.Written.hex hlongest
  have hlines : ('#' :: w.toList).count '\n' = 0 := by
    refine List.count_eq_zero.2 fun hmem => ?_
    obtain hmem | hmem := List.mem_cons.1 hmem
    · exact absurd hmem (by decide)
    · exact absurd (h _ hmem) (by decide)
  have hscan := hwritten.scanFrom_append 1 []
  have htext : ("#" ++ w).toList = '#' :: w.toList := by
    simp
  rw [List.append_nil, hlines] at hscan
  rw [scan, htext, hscan, scanFrom_nil]
  rfl

theorem readPrimary_of_isHexDigit {w : String} (h : ∀ c ∈ w.toList, isHexDigit c = true)
    (hne : w.toList ≠ []) (line : Nat) :
    plain (readPrimary [⟨.hex w, line⟩]) =
      .ok (.literal (.number (hexInteger (whole 0) w.toList).1), []) := by
  rw [plain_readPrimary_atom (by simp), whole_zero]
  simp only [atom, hexPayload?_of_isHexDigit h (by simpa using hne), Option.elim_some]

theorem readPrimary_of_spelled {n : ℕ} {w : String} (h : Spelled 10 n w.toList) (line : Nat) :
    plain (readPrimary [⟨.number w, line⟩]) = .ok (.literal (.number (whole n)), []) := by
  rw [plain_readPrimary_atom (by simp)]
  simp only [atom, numberPayload?_of_isNumber (.whole h.ne_nil h.isDigit),
    Numeral.ofText?_whole h.ne_nil h.isDigit, h.ofDigits_eq, Option.map_some, Option.elim_some,
    whole]

/-- **A hexadecimal and a decimal literal of one number.** Both are primaries. The decimal one is
the double nearest to the number. So is the hexadecimal one if at most 53 bits lie between the first
and the last one of the number. Otherwise the number is rounded at the first digit that makes it too
long, if it passes the test there, and nothing behind this digit counts; if it does not pass, the
literal is infinite. -/
theorem hex_and_decimal_literals {n : ℕ} {h d : String} (hh : Spelled 16 n h.toList)
    (hd : Spelled 10 n d.toList) :
    ∃ x, scan ("#" ++ h) = .ok ⟨[⟨.hex h, 1⟩], 1⟩ ∧
      plain (readPrimary [⟨.hex h, 1⟩]) = .ok (.literal (.number x), []) ∧
      scan d = .ok ⟨[⟨.number d, 1⟩], 1⟩ ∧
      plain (readPrimary [⟨.number d, 1⟩]) = .ok (.literal (.number (whole n)), []) ∧
      (IsShort n → x = whole n) ∧
      (¬ IsShort n → ∃ k, IsShort (n / 16 ^ (k + 1)) ∧ ¬ IsShort (n / 16 ^ k)) ∧
      (∀ k, IsShort (n / 16 ^ (k + 1)) → ¬ IsShort (n / 16 ^ k) →
        x = if Passes (n / 16 ^ k) then whole (rounded (n / 16 ^ k) * 16 ^ k) else infinity) ∧
      (x = whole n ↔ IsShort n ∨ 2 ^ 1024 ≤ rounded n ∨
        ∃ k, IsShort (n / 16 ^ (k + 1)) ∧ ¬ IsShort (n / 16 ^ k) ∧ Passes (n / 16 ^ k) ∧
          rounded (n / 16 ^ k) * 16 ^ k = rounded n) := by
  have hdigits := hh.isHexDigit
  have hzero : IsShort 0 := isShort_of_le (Nat.zero_le _)
  refine ⟨_, scan_of_isHexDigit hdigits, readPrimary_of_isHexDigit hdigits hh.ne_nil 1,
    scan_of_isNumber (.whole hd.ne_nil hd.isDigit), readPrimary_of_spelled hd 1, ?_⟩
  rw [← hh.ofHexDigits_eq]
  exact ⟨hexInteger_of_isShort hdigits, exists_not_isShort,
    fun k => hexInteger_of_not_isShort hdigits hzero, hexInteger_eq_whole_iff hdigits⟩

/-- Rounded at the first digit that makes it too long, this number is not rounded up by the last. -/
theorem hex_and_decimal_literals_rounded_twice :
    Spelled 16 144115188075856145 "200000000000111".toList ∧
      Spelled 10 144115188075856145 "144115188075856145".toList ∧
      plain (readPrimary [⟨.hex "200000000000111", 1⟩]) =
        .ok (.literal (.number (whole 144115188075856128)), []) ∧
      plain (readPrimary [⟨.number "144115188075856145", 1⟩]) =
        .ok (.literal (.number (whole 144115188075856160)), []) := by
  have hh : Spelled 16 144115188075856145 "200000000000111".toList := ⟨0, by decide +kernel⟩
  have hd : Spelled 10 144115188075856145 "144115188075856145".toList := ⟨0, by decide +kernel⟩
  obtain ⟨x, -, hhex, -, hdecimal, -, -, hlong, -⟩ := hex_and_decimal_literals hh hd
  have hx := hlong 1 (by decide) (by decide)
  have hpasses : Passes (144115188075856145 / 16 ^ 1) := by decide
  have hrounded : rounded (144115188075856145 / 16 ^ 1) * 16 ^ 1 = 144115188075856128 := by decide
  have hnearest : rounded 144115188075856145 = 144115188075856160 := by decide
  rw [if_pos hpasses, hrounded] at hx
  rw [hx] at hhex
  rw [← whole_rounded, hnearest] at hdecimal
  exact ⟨hh, hd, hhex, hdecimal⟩

/-- The number above two to the power of 53 is infinite if it is written in hexadecimal. -/
theorem hex_literal_infinite :
    Spelled 16 9007199254740993 "20000000000001".toList ∧
      Spelled 10 9007199254740993 "9007199254740993".toList ∧
      plain (readPrimary [⟨.hex "20000000000001", 1⟩]) = .ok (.literal (.number infinity), []) ∧
      plain (readPrimary [⟨.number "9007199254740993", 1⟩]) =
        .ok (.literal (.number (whole 9007199254740992)), []) ∧
      whole 9007199254740992 ≠ infinity := by
  have hh : Spelled 16 9007199254740993 "20000000000001".toList := ⟨0, by decide +kernel⟩
  have hd : Spelled 10 9007199254740993 "9007199254740993".toList := ⟨0, by decide +kernel⟩
  have hhex := readPrimary_of_isHexDigit hh.isHexDigit hh.ne_nil 1
  have hinfinite : (hexInteger (whole 0) "20000000000001".toList).1 = infinity := by decide +kernel
  have hdecimal := readPrimary_of_spelled hd 1
  have hnearest : rounded 9007199254740993 = 9007199254740992 := by decide
  rw [hinfinite] at hhex
  rw [← whole_rounded, hnearest] at hdecimal
  exact ⟨hh, hd, hhex, hdecimal, by decide +kernel⟩

end BlockScript
