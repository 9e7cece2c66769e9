/-!
# Ranges of code points

* `Range.covers rs n`: the code point `n` lies in one of the closed ranges `rs`.
-/

namespace BlockScript.Character

/-- A closed range of code points, by its first and its last member. -/
abbrev Range := Nat × Nat

/-- The code point `n` lies in one of the ranges. -/
def Range.covers (rs : List Range) (n : Nat) : Bool :=
  rs.any fun r => r.1 ≤ n && n ≤ r.2

theorem Range.covers_iff {rs : List Range} {n : Nat} :
    Range.covers rs n = true ↔ ∃ r ∈ rs, r.1 ≤ n ∧ n ≤ r.2 := by
  simp [Range.covers]

end BlockScript.Character
