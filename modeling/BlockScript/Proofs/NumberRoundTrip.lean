import BlockScript.Proofs.NumberGrammar
import BlockScript.Proofs.NumberValue

/-!
# Numbers through text

Every number reads back from its text: as a value, whatever the number is, and as a literal of a
program, if it is finite and not negative. The sign of a zero is the only thing that is lost.

* `throughText`: a number without the sign of a zero; `throughText_sameNumber`: it is the same
  number.
* `numberText_neg`: the text of a negative number has the text of its opposite behind the sign.
* `readNumber?_numberText`: what the text of a number is read as.
* `toNumber_toText_and_literal`: all this together.
-/

namespace BlockScript

open Character Piece Decimal Grammar Float.Model

/-- Equal numbers, where what is no number counts as equal to itself. -/
def SameNumber (x y : Float) : Prop :=
  (x == y) = true ∨ x.isNaN = true ∧ y.isNaN = true

/-- The number, with zero for both zeros. -/
def throughText (x : Float) : Float :=
  if x == zero then zero else x

section

variable {x : Float}

/-! ### Equality of numbers -/

theorem sameNumber_refl (x : Float) : SameNumber x x := by
  by_cases hx : x = notANumber
  · exact .inr ⟨isNaN_iff.2 hx, isNaN_iff.2 hx⟩
  · have hnan : Float.nan = notANumber := by decide
    refine .inl (Float.beq_iff_ne_nan_and_eq.2 ?_)
    rw [hnan]
    exact ⟨hx, hx, .inl rfl⟩

/-- There are two numbers that are equal to zero. -/
theorem beq_zero_iff : (x == zero) = true ↔ x = zero ∨ x = -zero := by
  have hzero : (0 : Float) = zero := by decide
  constructor
  · intro h
    obtain ⟨-, -, h | ⟨h, -⟩ | ⟨h, -⟩⟩ := Float.beq_iff_ne_nan_and_eq.1 h
    · exact .inl h
    · exact .inl (h.trans hzero)
    · exact .inr (h.trans (congrArg _ hzero))
  · rintro (rfl | rfl) <;> decide

/-- Without the sign of a zero, a number is the same. -/
theorem throughText_sameNumber (x : Float) : SameNumber (throughText x) x := by
  unfold throughText
  split_ifs with hx
  · obtain rfl | rfl := beq_zero_iff.1 hx
    · exact .inl (by decide)
    · exact .inl (by decide)
  · exact sameNumber_refl x

theorem throughText_of_ne (h : x ≠ -zero) : throughText x = x := by
  unfold throughText
  split_ifs with hx
  · exact ((beq_zero_iff.1 hx).resolve_right h).symm
  · rfl

/-- Equal numbers count alike as conditions. -/
theorem SameNumber.bne_zero {y : Float} (h : SameNumber x y) : (x != zero) = (y != zero) := by
  obtain h | ⟨hx, hy⟩ := h
  · obtain ⟨-, -, rfl | ⟨rfl, rfl⟩ | ⟨rfl, rfl⟩⟩ := Float.beq_iff_ne_nan_and_eq.1 h
    · rfl
    · decide
    · decide
  · rw [isNaN_iff.1 hx, isNaN_iff.1 hy]

/-! ### The text of a number -/

/-- The text of a negative number is a sign and the text of its opposite. -/
theorem numberText_neg (h : IsMagnitude x) (hx : x ≠ zero) :
    numberText (-x) = "-" ++ numberText x := by
  obtain rfl | ⟨m, e, hm, hunpack⟩ := h.eq_zero_or
  · exact absurd rfl hx
  have hneg : (-x).toModel.unpack = .finite .negative m e hm := by
    rw [unpack_neg, hunpack]
    rfl
  have hlt : -x < zero := by
    rw [lt_zero_iff_unpack, hneg]
    rfl
  rw [numberText_of_unpack hneg, if_pos hlt, neg_involutive, numberText_of_ne_zero h hx]

/-- A number from zero up reads back from its text. -/
theorem readNumber?_of_isMagnitude (h : IsMagnitude x) :
    readNumber? (numberText x) = some x := by
  obtain ⟨n, htext, rfl⟩ := exists_numeral h
  have hnumber := isNumber_numberText h
  rw [readNumber?_of_isNumber hnumber, numberPayload?_of_isNumber hnumber, htext, n.ofText?_text]
  rfl

/-- The sign in front of a number is read as such. -/
theorem readNumber?_minus {w : String} (h : IsNumber w.toList) :
    readNumber? ("-" ++ w) = (readNumber? w).map fun x => -x := by
  have hblank : ∀ c ∈ '-' :: w.toList, isBlank c = false := by
    intro c hc
    obtain rfl | hc := List.mem_cons.1 hc
    · decide
    · exact isBlank_of_inNumber (h.inNumber c hc)
  have hsigned : IsSigned ('-' :: w.toList) := .minus (.number h)
  have htext : ("-" ++ w).toList = '-' :: w.toList := by simp
  rw [readNumber?, htext, trimBlank_of_not_blank hblank, (readTrimmed?_of_isSigned hsigned).2,
    readNumber?_of_isNumber h, numberPayload?_of_isNumber h, ← readMagnitude?_of_isNumber h]
  rfl

/-- Every number reads back from its text, apart from the sign of a zero. -/
theorem readNumber?_numberText (x : Float) : readNumber? (numberText x) = some (throughText x) := by
  obtain rfl | rfl | rfl | hx | hx := cases_of_double x
  · decide +kernel
  · decide +kernel
  · decide +kernel
  · have hne : x ≠ -zero := by
      rintro rfl
      exact absurd hx (by decide)
    rw [readNumber?_of_isMagnitude hx, throughText_of_ne hne]
  · by_cases hzero : x = -zero
    · rw [hzero]
      decide +kernel
    · have hneg := numberText_neg hx fun h => hzero (by rw [← h, neg_involutive])
      rw [neg_involutive] at hneg
      rw [hneg, readNumber?_minus (isNumber_numberText hx), readNumber?_of_isMagnitude hx,
        Option.map_some, neg_involutive, throughText_of_ne hzero]

theorem Value.toNumber_toText (v : Value) :
    SameNumber (Value.text v.toText).toNumber v.toNumber := by
  cases v with
  | text t => exact sameNumber_refl _
  | number x =>
    have hread : (Value.text (numberText x)).toNumber = throughText x := by
      rw [Value.toNumber, readNumber?_numberText, Option.getD_some]
    exact hread ▸ throughText_sameNumber x

/-- The finite numbers that are not less than zero. -/
theorem isMagnitude_of_zero_le (hfinite : x.isFinite = true) (h : zero ≤ x) :
    IsMagnitude x ∨ x = -zero := by
  obtain hx | hx := isFinite_iff.1 hfinite
  · exact .inl hx
  · obtain hzero | ⟨m, e, hm, hunpack⟩ := hx.eq_zero_or
    · exact .inr (by rw [← hzero, neg_involutive])
    · have hneg : x.toModel.unpack = .finite .negative m e hm := by
        rw [← neg_involutive x, unpack_neg, hunpack]
        rfl
      rw [le_iff_unpack, hneg] at h
      cases h

/-- The text of a finite number that is not negative is a number of a program. -/
theorem isNumber_numberText_of_zero_le (hfinite : x.isFinite = true) (h : zero ≤ x) :
    IsNumber (numberText x).toList := by
  obtain hx | rfl := isMagnitude_of_zero_le hfinite h
  · exact isNumber_numberText hx
  · have htext : numberText (-zero) = numberText zero := by decide +kernel
    rw [htext]
    exact isNumber_numberText (by decide)

end

/-- **Numbers survive a trip through text.** The text of a value denotes the same number as the
value, so that both count alike as conditions. The text of a number denotes the number itself, and
zero for both zeros. The text of a finite number that is not negative is one token of a program,
and the literal that it stands for is the number again. -/
theorem toNumber_toText_and_literal :
    (∀ v : Value, SameNumber (Value.text v.toText).toNumber v.toNumber ∧
      (Value.text v.toText).isTruthy = v.isTruthy) ∧
      (∀ x : Float, readNumber? (numberText x) = some (throughText x) ∧
        SameNumber (throughText x) x ∧ (x ≠ -zero → throughText x = x)) ∧
      ∀ x : Float, x.isFinite = true → zero ≤ x →
        scan (numberText x) = .ok ⟨[⟨.number (numberText x), 1⟩], 1⟩ ∧
          plain (readPrimary [⟨.number (numberText x), 1⟩]) =
            .ok (.literal (.number (throughText x)), []) ∧
          (throughText x == x) = true := by
  refine ⟨fun v => ⟨v.toNumber_toText, v.toNumber_toText.bne_zero⟩,
    fun x => ⟨readNumber?_numberText x, throughText_sameNumber x, throughText_of_ne⟩,
    fun x hfinite hle => ?_⟩
  have hnumber := isNumber_numberText_of_zero_le hfinite hle
  have hliteral := readPrimary_of_isNumber hnumber 1
  rw [Value.toNumber, readNumber?_numberText, Option.getD_some] at hliteral
  have hsame : (throughText x == x) = true := by
    obtain h | ⟨-, hnan⟩ := throughText_sameNumber x
    · exact h
    · rw [isNaN_iff.1 hnan] at hfinite
      exact absurd hfinite (by decide)
  exact ⟨scan_of_isNumber hnumber, hliteral, hsame⟩

/-- The zero with a sign, and a number that is not zero. -/
theorem toNumber_toText_and_literal_signed_zero_one :
    -zero ≠ zero ∧ readNumber? (numberText (-zero)) = some zero ∧
      scan "0" = .ok ⟨[⟨.number "0", 1⟩], 1⟩ ∧ (zero == -zero) = true ∧
      one ≠ -zero ∧ throughText one = one ∧
      scan (numberText one) = .ok ⟨[⟨.number (numberText one), 1⟩], 1⟩ := by
  obtain ⟨-, hreads, hliterals⟩ := toNumber_toText_and_literal
  have htext : numberText (-zero) = "0" := by decide +kernel
  have hzero : throughText (-zero) = zero := by decide
  have hone : one ≠ -zero := by decide
  have hscan := hliterals (-zero) (by decide) (by decide)
  have hread := (hreads (-zero)).1
  rw [hzero] at hread
  rw [htext, hzero] at hscan
  exact ⟨by decide, hread, hscan.1, hscan.2.2, hone, (hreads one).2.2 hone,
    (hliterals one (by decide) (by decide)).1⟩

end BlockScript
