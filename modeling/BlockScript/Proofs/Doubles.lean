import BlockScript.Decimal.Nearest
import Mathlib

/-!
# Doubles and their signs

A double is a sign, an exponent field and a fraction. The ones that are zero or positive are those
with bits up to the bits of infinity.

* `ofFields`: the bits with given fields; `unpack_ofFields`: the double that they stand for.
* `toBits_ofBits`: the double with given bits has these bits.
* `unpack_neg`: the opposite of a double differs from it in its sign only.
* `IsNonneg`: zero, the positive doubles and infinity; `IsMagnitude`: the finite ones among them.
* `IsNonneg.add`, `IsNonneg.mul`: sums and products keep clear of the minus sign.
-/

namespace BlockScript.Decimal

open Float.Model Float.Model.UnpackedFloat

/-! ### Fields -/

/-- The bits of a double with the given fields. -/
def ofFields (s : Sign) (e : BitVec 11) (m : BitVec 52) : BitVec 64 :=
  packComponents Format.binary64 s e m

section Fields

variable {s : Sign} {e : BitVec 11} {m : BitVec 52}

theorem toNat_ofFields (s : Sign) (e : BitVec 11) (m : BitVec 52) :
    (ofFields s e m).toNat = s.toBitVec.toNat * 2 ^ 63 + e.toNat * 2 ^ 52 + m.toNat := by
  unfold ofFields packComponents
  rw [BitVec.toNat_append, BitVec.toNat_append, ← Nat.shiftLeft_add_eq_or_of_lt m.isLt,
    ← Nat.shiftLeft_add_eq_or_of_lt e.isLt]
  simp only [Nat.shiftLeft_eq]
  omega

theorem exists_eq_ofFields (b : BitVec 64) : ∃ s e m, b = ofFields s e m :=
  ⟨_, _, _,
    (@packComponents_unpackSign_unpackExponent_unpackMantissa Format.binary64 b).symm⟩

theorem unpackSign_ofFields :
    Sign.ofBitVec (@unpackSign Format.binary64 (ofFields s e m)) = s := by
  rw [ofFields, unpackSign_packComponents, Sign.ofBitVec_toBitVec]

theorem unpackExponent_ofFields : @unpackExponent Format.binary64 (ofFields s e m) = e :=
  unpackExponent_packComponents

theorem unpackMantissa_ofFields : @unpackMantissa Format.binary64 (ofFields s e m) = m :=
  unpackMantissa_packComponents

/-- The double with the given fields: the greatest exponent is left to what is no finite number, and
the least one to zero and to the doubles without a leading one. -/
theorem unpack_ofFields (s : Sign) (e : BitVec 11) (m : BitVec 52) :
    UnpackedFloat.unpack Format.binary64 (ofFields s e m) =
      if e = -1#11 then if m = 0#52 then .infinity s else .notANumber
      else if e = 0#11 then
        if h : m = 0#52 then .zero s
        else .finite s m.toNat (-1074) (by simpa [BitVec.toNat_pos, BitVec.pos_iff_ne_zero])
      else .finite s (2 ^ 52 + m.toNat) (e.toNat - 1075) (by omega) := by
  have happ : (1#1 ++ m).toNat = 2 ^ 52 + m.toNat := by
    rw [BitVec.toNat_append, ← Nat.shiftLeft_add_eq_or_of_lt m.isLt]
    rfl
  unfold UnpackedFloat.unpack
  simp only [unpackMantissa_ofFields, unpackExponent_ofFields, unpackSign_ofFields, happ]
  split_ifs with h1 h2 h3 h4
  · rfl
  · rfl
  · rfl
  · subst h3
    rfl
  · rfl

/-- The bits for what is no number. -/
theorem isNaNBits_ofFields (s : Sign) (e : BitVec 11) (m : BitVec 52) :
    @isNaNBits Format.binary64 (ofFields s e m) = decide (e = -1#11 ∧ m ≠ 0#52) := by
  rw [isNaNBits, unpackExponent_ofFields, unpackMantissa_ofFields]

end Fields

/-! ### Doubles and their bits -/

theorem toBits_ofBits {b : Nat} (h : b ≤ infinityBits) :
    (Float.ofBits b.toUInt64).toBits.toNat = b := by
  unfold infinityBits at h
  obtain ⟨s, e, m, hfields⟩ := exists_eq_ofFields b.toUInt64.toBitVec
  have hb : b.toUInt64.toBitVec.toNat = b := by
    simp
    omega
  have hm : e = -1#11 → m = 0#52 := by
    rintro rfl
    have he : (-1#11).toNat = 2047 := rfl
    rw [hfields, toNat_ofFields, he] at hb
    exact BitVec.eq_of_toNat_eq (by simp; omega)
  have hnum : @isNaNBits Format.binary64 b.toUInt64.toBitVec = false := by
    rw [hfields, isNaNBits_ofFields, decide_eq_false_iff_not]
    exact fun ⟨hmax, hne⟩ => hne (hm hmax)
  calc (Float.ofBits b.toUInt64).toBits.toNat
      = (UnpackedFloat.pack Format.binary64
          (UnpackedFloat.unpack Format.binary64 b.toUInt64.toBitVec)).toNat := rfl
    _ = b.toUInt64.toBitVec.toNat := by rw [pack_unpack, hnum]; rfl
    _ = b := hb

theorem neg_unpack_ofFields (s : Sign) (e : BitVec 11) (m : BitVec 52) :
    (UnpackedFloat.unpack Format.binary64 (ofFields s e m)).neg =
      UnpackedFloat.unpack Format.binary64 (ofFields (-s) e m) := by
  rw [unpack_ofFields, unpack_ofFields]
  split_ifs <;> rfl

/-- The opposite of a double differs from it in its sign only. -/
theorem unpack_neg (x : Float) : (-x).toModel.unpack = x.toModel.unpack.neg := by
  obtain ⟨s, e, m, hfields⟩ := exists_eq_ofFields x.toBits.toBitVec
  have hx : x.toModel.unpack = UnpackedFloat.unpack Format.binary64 (ofFields s e m) := by
    rw [← hfields]
    rfl
  have hneg : (-x).toModel.unpack = UnpackedFloat.unpack Format.binary64
      (UnpackedFloat.pack Format.binary64 x.toModel.unpack.neg) := rfl
  rw [hneg, hx, neg_unpack_ofFields, pack_unpack, isNaNBits_ofFields]
  split_ifs with hnan
  -- what is no number has one form only, without a sign
  · obtain ⟨rfl, hm⟩ := of_decide_eq_true hnan
    rw [unpack_ofFields, if_pos rfl, if_neg hm]
    rfl
  · rfl

theorem neg_beq_zero (x : Float) : (-x == zero) = (x == zero) := by
  change (-x).toModel.unpack.beq (.zero .positive) = x.toModel.unpack.beq (.zero .positive)
  rw [unpack_neg]
  cases x.toModel.unpack with
  | notANumber => rfl
  | infinity s | zero s | finite s => cases s <;> rfl

theorem not_lt_of_beq_zero {x : Float} (h : (x == zero) = true) : ¬ x < zero := by
  intro hlt
  have heq : x.toModel.unpack.beq (.zero .positive) = true := h
  have hlt : x.toModel.unpack.lt (.zero .positive) = true := of_decide_eq_true hlt
  rw [UnpackedFloat.beq, beq_iff_eq] at heq
  rw [UnpackedFloat.lt, heq] at hlt
  cases hlt

/-- The double is zero, positive or infinity. -/
def IsNonneg (x : Float) : Prop :=
  x.toBits.toNat ≤ infinityBits

/-- The double is zero or positive, and finite. -/
def IsMagnitude (x : Float) : Prop :=
  x.toBits.toNat < infinityBits

instance (x : Float) : Decidable (IsMagnitude x) :=
  inferInstanceAs (Decidable (_ < _))

theorem toBits_infinity : infinity.toBits.toNat = infinityBits := by
  decide

theorem IsNonneg.isMagnitude {x : Float} (h : IsNonneg x) (hx : x ≠ infinity) : IsMagnitude x := by
  refine lt_of_le_of_ne h fun heq => hx (Float.toBits_inj.1 (UInt64.toNat_inj.1 ?_))
  rw [heq, toBits_infinity]

theorem Numeral.isNonneg_nearest (n : Numeral) : IsNonneg n.nearest := by
  have hle := nearestBits_le n.mantissa (Nat.pow 10 n.places)
  unfold IsNonneg nearest
  rwa [toBits_ofBits hle]

/-! ### Sums and products -/

/-- The double is a number and has a plus sign. -/
def HasPlus : UnpackedFloat → Prop
  | .notANumber => False
  | .infinity s | .zero s | .finite s .. => s = .positive

theorem isNonneg_of_hasPlus {f : UnpackedFloat} (h : HasPlus f) :
    IsNonneg (.ofModel (Float.Model.pack f)) := by
  have hfields (e : BitVec 11) (m : BitVec 52) (he : e.toNat < 2047) :
      (ofFields .positive e m).toNat ≤ infinityBits := by
    have hzero : (Sign.toBitVec .positive).toNat = 0 := rfl
    have := m.isLt
    rw [toNat_ofFields, hzero]
    unfold infinityBits
    omega
  change (UnpackedFloat.pack Format.binary64 f).toNat ≤ infinityBits
  cases f with
  | notANumber => cases h
  | infinity s =>
    obtain rfl : s = .positive := h
    decide
  | zero s =>
    obtain rfl : s = .positive := h
    decide
  | finite s m e hm =>
    obtain rfl : s = .positive := h
    simp only [UnpackedFloat.pack]
    split_ifs with hlarge
    · decide
    · refine hfields _ _ ?_
      rw [BitVec.toNat_ofNat]
      omega
    · exact hfields _ _ (by decide)

theorem IsNonneg.exists_fields {x : Float} (h : IsNonneg x) :
    ∃ e m, x.toModel.unpack = UnpackedFloat.unpack Format.binary64 (ofFields .positive e m) ∧
      x.toBits.toNat = e.toNat * 2 ^ 52 + m.toNat := by
  obtain ⟨s, e, m, hfields⟩ := exists_eq_ofFields x.toBits.toBitVec
  have hbits : x.toBits.toNat = (ofFields s e m).toNat := congrArg BitVec.toNat hfields
  have hunpack : x.toModel.unpack = UnpackedFloat.unpack Format.binary64 (ofFields s e m) := by
    rw [← hfields]
    rfl
  rw [toNat_ofFields] at hbits
  cases s with
  | positive =>
    have hzero : (Sign.toBitVec .positive).toNat = 0 := rfl
    rw [hzero, Nat.zero_mul, Nat.zero_add] at hbits
    exact ⟨e, m, hunpack, hbits⟩
  | negative =>
    have hone : (Sign.toBitVec .negative).toNat = 1 := rfl
    unfold IsNonneg infinityBits at h
    omega

theorem IsNonneg.hasPlus {x : Float} (h : IsNonneg x) : HasPlus x.toModel.unpack := by
  obtain ⟨e, m, hunpack, hbits⟩ := h.exists_fields
  rw [hunpack, unpack_ofFields]
  split_ifs with hmax hnum
  · rfl
  · -- the bits would be more than those of infinity
    have htop : (-1#11).toNat = 2047 := rfl
    unfold IsNonneg infinityBits at h
    rw [hmax, htop] at hbits
    exact hnum (BitVec.eq_of_toNat_eq (by simp; omega))
  · rfl
  · rfl
  · rfl

/-- The zero is the only finite double from zero up that is not positive. -/
theorem IsMagnitude.eq_zero_or {x : Float} (h : IsMagnitude x) :
    x = zero ∨ ∃ m e hm, x.toModel.unpack = .finite .positive m e hm := by
  obtain ⟨e, m, hunpack, hbits⟩ := IsNonneg.exists_fields h.le
  unfold IsMagnitude infinityBits at h
  rw [hunpack, unpack_ofFields]
  split_ifs with hmax hnum hmin hfraction
  · have htop : (-1#11).toNat = 2047 := rfl
    rw [hmax, htop] at hbits
    omega
  · have htop : (-1#11).toNat = 2047 := rfl
    rw [hmax, htop] at hbits
    omega
  · refine .inl (Float.toBits_inj.1 (UInt64.toNat_inj.1 ?_))
    rw [hbits, hmin, hfraction]
    decide
  · have hpos : 0 < m.toNat :=
      Nat.pos_of_ne_zero fun h0 => hfraction (BitVec.eq_of_toNat_eq h0)
    exact .inr ⟨m.toNat, -1074, hpos, rfl⟩
  · exact .inr ⟨2 ^ 52 + m.toNat, e.toNat - 1075, by omega, rfl⟩

theorem hasPlus_round {m : Nat} {e : Int} {a : Accuracy} :
    HasPlus (roundWithAccuracy Format.binary64 .positive m e a) := by
  simp only [roundWithAccuracy]
  split <;> rfl

theorem HasPlus.add {f g : UnpackedFloat} (hf : HasPlus f) (hg : HasPlus g) :
    HasPlus (UnpackedFloat.add Format.binary64 f g) := by
  cases f with
  | notANumber => cases hf
  | infinity s =>
    obtain rfl : s = .positive := hf
    cases g with
    | notANumber => cases hg
    | infinity t =>
      obtain rfl : t = .positive := hg
      rfl
    | zero t => rfl
    | finite t m e hm => rfl
  | zero s =>
    obtain rfl : s = .positive := hf
    cases g with
    | notANumber => cases hg
    | infinity t => exact hg
    | zero t =>
      obtain rfl : t = .positive := hg
      rfl
    | finite t m e hm => exact hg
  | finite s m e hm =>
    obtain rfl : s = .positive := hf
    cases g with
    | notANumber => cases hg
    | infinity t => exact hg
    | zero t => rfl
    | finite t m' e' hm' =>
      obtain rfl : t = .positive := hg
      simp only [UnpackedFloat.add, UnpackedFloat.normalize, Sign.apply]
      split
      · next hlt =>
        rw [Int.compare_eq_lt] at hlt
        omega
      · rfl
      · exact hasPlus_round

theorem HasPlus.mul {f : UnpackedFloat} (hf : HasPlus f) (m : Nat) (e : Int) (hm : 0 < m) :
    HasPlus (UnpackedFloat.mul Format.binary64 f (.finite .positive m e hm)) := by
  cases f with
  | notANumber => cases hf
  | infinity s =>
    obtain rfl : s = .positive := hf
    rfl
  | zero s =>
    obtain rfl : s = .positive := hf
    rfl
  | finite s m' e' hm' =>
    obtain rfl : s = .positive := hf
    exact hasPlus_round

section Operations

variable {x y : Float}

theorem IsNonneg.add (hx : IsNonneg x) (hy : IsNonneg y) : IsNonneg (x + y) :=
  isNonneg_of_hasPlus (hx.hasPlus.add hy.hasPlus)

/-- Infinity times zero would be no number, so one factor has to be positive and finite. -/
theorem IsNonneg.mul (hx : IsNonneg x)
    (hy : ∃ m e hm, y.toModel.unpack = .finite .positive m e hm) : IsNonneg (x * y) := by
  obtain ⟨m, e, hm, hy⟩ := hy
  have h := hx.hasPlus.mul m e hm
  rw [← hy] at h
  exact isNonneg_of_hasPlus h

end Operations

end BlockScript.Decimal
