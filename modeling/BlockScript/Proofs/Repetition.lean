import BlockScript.Proofs.NumberValue
import BlockScript.Run.Eval

/-!
# Repeated texts

A text in front of `*` is repeated as often as the right operand says, without its fraction. A text
that would be longer than `repeatLimit` is a fault. So are as many copies of the empty text as
`countLimit` says, although they would be empty.

* `truncated`: a double without its fraction.
* `toList_copies`, `utf8ByteSize_copies`: the characters and the bytes of a repeated text.
* `arithmetic_mul_text`: the product of a text and a value, for every number of copies.
-/

namespace BlockScript

namespace Decimal

/-- The integer that is left of a finite double without its fraction, so rounded toward zero. What
is no finite number counts as zero. -/
def truncated (x : Float) : ℤ :=
  if 0 ≤ value x then ⌊value x⌋ else ⌈value x⌉

variable {x : Float}

theorem truncated_of_not_isFinite (h : x.isFinite = false) : truncated x = 0 := by
  have hvalue : value x = 0 := by
    have h : x.toModel.unpack.isFinite = false := h
    unfold value
    cases hunpack : x.toModel.unpack with
    | notANumber | infinity s | zero s => rfl
    | finite s m e hm =>
      rw [hunpack] at h
      cases h
  simp [truncated, hvalue]

theorem IsMagnitude.truncated_eq (h : IsMagnitude x) : truncated x = wholePart x := by
  rw [truncated, if_pos h.value_nonneg, h.wholePart_eq, Int.natCast_floor_eq_floor h.value_nonneg]

theorem one_le_truncated_iff (x : Float) : 1 ≤ truncated x ↔ 1 ≤ value x := by
  unfold truncated
  split_ifs with h
  · simp [Int.le_floor]
  · have hceil : ⌈value x⌉ ≤ 0 := Int.ceil_le.2 (by push_cast; linarith)
    constructor
    · intro h1
      omega
    · intro h1
      linarith

end Decimal

open Decimal

/-! ### Copies of a text -/

/-- The copies of a text stand one behind the other. -/
theorem toList_copies (t : String) (n : Nat) :
    (copies t n).toList = (List.replicate n t.toList).flatten := by
  unfold copies
  split_ifs with h
  · obtain rfl : t = "" := by simpa using h
    simp
  · induction n with
    | zero => rfl
    | succ n ih =>
      rw [Nat.repeat, String.toList_append, ih, List.replicate_succ', List.flatten_append]
      simp

theorem utf8ByteSize_copies (t : String) (n : Nat) :
    (copies t n).utf8ByteSize = t.utf8ByteSize * n := by
  unfold copies
  split_ifs with h
  · obtain rfl : t = "" := by simpa using h
    simp
  · induction n with
    | zero => rfl
    | succ n ih => rw [Nat.repeat, String.utf8ByteSize_append, ih, Nat.mul_succ]

/-! ### The product of a text and a value -/

/-- A repetition by its number of copies. -/
theorem repeatText_eq (t : String) (x : Float) : repeatText t x =
    if x = infinity then .error (.repeatTooLarge infinity)
    else if truncated x < 1 then .ok (.text "")
    else if truncated x < 2 ^ 64 ∧ t.utf8ByteSize * truncated x ≤ 2 ^ 28 then
      .ok (.text (copies t (truncated x).toNat))
    else .error (.repeatTooLarge (Numeral.nearest ⟨(truncated x).toNat, 0⟩)) := by
  unfold repeatText
  by_cases hx : x = infinity
  · subst hx
    rfl
  · have hbeq : ¬ (x == infinity) = true := fun h => hx (beq_infinity_iff.1 h)
    have hone : one ≤ x ↔ 1 ≤ truncated x := by
      rw [one_le_iff, one_le_truncated_iff]
      simp [hx]
    by_cases hlarge : 1 ≤ truncated x
    · have hmagnitude : IsMagnitude x :=
        isMagnitude_of_value_pos (by have := (one_le_truncated_iff x).1 hlarge; linarith)
      have hwhole := hmagnitude.truncated_eq
      have hcount : wholePart x < countLimit ↔ truncated x < 2 ^ 64 := by
        rw [hwhole]
        unfold countLimit
        norm_cast
      have hbytes : t.utf8ByteSize * wholePart x ≤ repeatLimit ↔
          t.utf8ByteSize * truncated x ≤ 2 ^ 28 := by
        rw [hwhole]
        unfold repeatLimit
        norm_cast
      have htoNat : (truncated x).toNat = wholePart x := by rw [hwhole, Int.toNat_natCast]
      simp only [hx, hbeq, hone, hlarge, Bool.false_eq_true, hcount, hbytes, htoNat,
        not_lt.2 hlarge, if_true, if_false]
    · simp only [hx, hone, hlarge, not_le.1 hlarge, if_true, if_false]

/-- Copies within the limit are fewer than a 64-bit word counts, unless they are empty. -/
theorem lt_of_bytes_le {t : String} {k : ℤ} (h : t.utf8ByteSize * k ≤ 2 ^ 28)
    (ht : t ≠ "") : k < 2 ^ 64 := by
  have hsize : t.utf8ByteSize ≠ 0 := by simpa using ht
  have hpos : (1 : ℤ) ≤ t.utf8ByteSize := by omega
  nlinarith

section

variable {x : Float} {t : String}

/-- Without a whole part above zero there is no copy. -/
theorem repeatText_of_truncated_le (hx : x ≠ infinity) (hk : truncated x ≤ 0) :
    repeatText t x = .ok (.text "") := by
  rw [repeatText_eq, if_neg hx, if_pos (by omega)]

/-- What is fatal: an infinite number of copies, copies beyond the limit, and copies of the empty
text that no 64-bit word counts. -/
theorem repeatText_eq_error_iff : (∃ n, repeatText t x = .error (.repeatTooLarge n)) ↔
    x = infinity ∨ x.isFinite = true ∧ 1 ≤ truncated x ∧
      (2 ^ 28 < t.utf8ByteSize * truncated x ∨ t = "" ∧ 2 ^ 64 ≤ truncated x) := by
  rw [repeatText_eq]
  constructor
  · rintro ⟨n, h⟩
    split_ifs at h with hx hk hfits
    · exact .inl hx
    · have hpos : 0 < value x := by
        have := (one_le_truncated_iff x).1 (not_lt.1 hk)
        linarith
      refine .inr ⟨(isMagnitude_of_value_pos hpos).isFinite, not_lt.1 hk, ?_⟩
      by_cases hbytes : t.utf8ByteSize * truncated x ≤ 2 ^ 28
      · have hcount : 2 ^ 64 ≤ truncated x := not_lt.1 fun h => hfits ⟨h, hbytes⟩
        by_contra hcon
        have hlt := lt_of_bytes_le hbytes fun ht => hcon (.inr ⟨ht, hcount⟩)
        omega
      · exact .inl (not_le.1 hbytes)
  · rintro (hx | ⟨h, hk, hlong⟩)
    · exact ⟨_, if_pos hx⟩
    · have hfits : ¬ (truncated x < 2 ^ 64 ∧ t.utf8ByteSize * truncated x ≤ 2 ^ 28) := by
        rintro ⟨hcount, hbytes⟩
        rcases hlong with hlong | ⟨-, hlong⟩ <;> omega
      rw [if_neg (ne_infinity_of_isFinite h), if_neg (not_lt.2 hk), if_neg hfits]
      exact ⟨_, rfl⟩

/-- Within the limit the copies stand one behind the other. -/
theorem repeatText_eq_copies (hx : x ≠ infinity) (hk : 1 ≤ truncated x)
    (hbytes : t.utf8ByteSize * truncated x ≤ 2 ^ 28) (hcount : t = "" → truncated x < 2 ^ 64) :
    repeatText t x = .ok (.text (copies t (truncated x).toNat)) := by
  have hlt : truncated x < 2 ^ 64 := by
    by_cases ht : t = ""
    · exact hcount ht
    · exact lt_of_bytes_le hbytes ht
  rw [repeatText_eq, if_neg hx, if_neg (not_lt.2 hk), if_pos ⟨hlt, hbytes⟩]

end

/-- **A text is repeated up to the limit.** The product of a text and a value is the empty text if
the value is no number or has no whole part above zero. It is a fault exactly if the value is
infinity or the copies would have more bytes than the limit, and also if there would be as many
copies of the empty text as no 64-bit word counts. Else it is the copies of the text, one behind
the other. -/
theorem arithmetic_mul_text (t : String) (r : Value) :
    let x := r.toNumber
    let k := truncated x
    (x.isNaN = true ∨ x = -infinity ∨ x.isFinite = true ∧ k ≤ 0 →
        arithmetic .mul (.text t) r = .ok (.text "")) ∧
      ((∃ n, arithmetic .mul (.text t) r = .error (.repeatTooLarge n)) ↔
        x = infinity ∨ x.isFinite = true ∧ 1 ≤ k ∧
          (2 ^ 28 < t.utf8ByteSize * k ∨ t = "" ∧ 2 ^ 64 ≤ k)) ∧
      (x.isFinite = true → 1 ≤ k → t.utf8ByteSize * k ≤ 2 ^ 28 → (t = "" → k < 2 ^ 64) →
        ∃ s, arithmetic .mul (.text t) r = .ok (.text s) ∧
          s.toList = (List.replicate k.toNat t.toList).flatten ∧
          s.utf8ByteSize = t.utf8ByteSize * k) := by
  intro x k
  have hmul : arithmetic .mul (.text t) r = repeatText t x := rfl
  rw [hmul]
  refine ⟨fun h => ?_, repeatText_eq_error_iff, fun h hk hbytes hcount => ?_⟩
  · rcases h with h | h | ⟨h, hk⟩
    · rw [isNaN_iff.1 h]
      exact repeatText_of_truncated_le (by decide) (truncated_of_not_isFinite (by decide)).le
    · rw [h]
      exact repeatText_of_truncated_le (by decide) (truncated_of_not_isFinite (by decide)).le
    · exact repeatText_of_truncated_le (ne_infinity_of_isFinite h) hk
  · refine ⟨_, repeatText_eq_copies (ne_infinity_of_isFinite h) hk hbytes hcount,
      toList_copies t k.toNat, ?_⟩
    rw [utf8ByteSize_copies, Nat.cast_mul, Int.toNat_of_nonneg (by omega)]

/-- Two and a half copies of a text of three bytes are two. -/
theorem arithmetic_mul_text_two :
    let x := Float.ofBits 0x4004000000000000
    x.isFinite = true ∧ truncated x = 2 ∧
      ∃ s, arithmetic .mul (.text "né") (.number x) = .ok (.text s) ∧
        s.toList = ['n', 'é', 'n', 'é'] ∧ s.utf8ByteSize = 6 := by
  intro x
  have hmagnitude : IsMagnitude x := by decide
  have hcount : truncated x = 2 := by
    rw [hmagnitude.truncated_eq]
    decide
  have hbytes : "né".utf8ByteSize = 3 := by decide
  obtain ⟨-, -, h⟩ := arithmetic_mul_text "né" (.number x)
  simp only [Value.toNumber, hcount, hbytes] at h
  obtain ⟨s, hs, hlist, hsize⟩ := h hmagnitude.isFinite (by decide) (by decide) (by decide)
  exact ⟨hmagnitude.isFinite, hcount, s, hs, hlist, by omega⟩

/-- So many copies of the empty text that no word counts them are a fault, although they would
have no bytes. -/
theorem arithmetic_mul_empty_text :
    let x := Float.ofBits 0x43F0000000000000
    x ≠ infinity ∧ truncated x = 2 ^ 64 ∧ "".utf8ByteSize * truncated x ≤ 2 ^ 28 ∧
      arithmetic .mul (.text "") (.number x) = .error (.repeatTooLarge x) := by
  intro x
  have hmagnitude : IsMagnitude x := by decide
  have hcount : truncated x = 2 ^ 64 := by
    rw [hmagnitude.truncated_eq]
    decide
  refine ⟨by decide, hcount, ?_, by decide⟩
  rw [hcount]
  decide

end BlockScript
