/-
Rounding a quotient to an integer.

Both functions return an integer nearest to `num / den`; they differ in what they do
with a quotient that lies exactly between two integers.
-/

namespace SqlSession

/-- The integer nearest to `num / den`; a tie goes to the even neighbour. -/
def divHalfEven (num den : Nat) : Nat :=
  let quotient := num / den
  let twice := 2 * (num % den)
  if twice > den ∨ (twice = den ∧ quotient % 2 = 1) then quotient + 1 else quotient

/-- The integer nearest to `num / den`; a tie goes up. -/
def divHalfUp (num den : Nat) : Nat :=
  (2 * num + den) / (2 * den)

theorem le_divHalfEven (num den : Nat) : num / den ≤ divHalfEven num den := by
  unfold divHalfEven
  dsimp only
  split <;> omega

theorem divHalfEven_le (num den : Nat) : divHalfEven num den ≤ num / den + 1 := by
  unfold divHalfEven
  dsimp only
  split <;> omega

/-- A quotient that is an integer already stays as it is. -/
theorem divHalfEven_mul (k den : Nat) (h : 0 < den) : divHalfEven (k * den) den = k := by
  have hr : k * den % den = 0 := Nat.mul_mod_left k den
  have hq : k * den / den = k := Nat.mul_div_cancel k h
  unfold divHalfEven
  simp only [hr, hq]
  split
  · omega
  · rfl

end SqlSession
