/-
Normal forms that are bound again.

A record holds the normal form of each value, and what is bound from it is the value that
`Value.ofJson` makes of that form.  Here is what the numbers of a record are bound as.  A decimal
zero is plain zero whatever its sign and places, `Decimal.toJson_of_zero`.  A double is bound as
itself, or, where it is not finite, as a word that is read as a double of the same normal form:
`Binary64.parse?_plainText`.
-/
import SqlSession.Value.Normal

namespace SqlSession

/-! ### Decimals -/

namespace Decimal

theorem stripZeros_zero (scale : Nat) : stripZeros 0 scale = (0, 0) := by
  induction scale with
  | zero => rfl
  | succ scale ih =>
      rw [stripZeros, if_pos (Nat.zero_mod 10), Nat.zero_div, ih]

/-- A zero is plain zero in a record. -/
theorem toJson_of_zero {d : Decimal} (h : d.mantissa = 0) : d.toJson = (zero false).toJson := by
  have hnormal : d.normalize = (zero false).normalize := by
    unfold normalize
    simp only [h, stripZeros_zero, bne_self_eq_false, Bool.and_false, mk.injEq]
    exact ⟨rfl, rfl, rfl⟩
  unfold toJson
  rw [hnormal]

end Decimal

/-! ### Doubles -/

namespace Binary64

theorem toJson_of_finite {x : Binary64} (h : x.isFinite = true) :
    x.toJson = .number (.double x h) := by
  unfold toJson JsonNumber.ofBinary64?
  rw [dif_pos h]

theorem toJson_of_not_finite {x : Binary64} (h : x.isFinite = false) :
    x.toJson = .text x.plainText := by
  unfold toJson JsonNumber.ofBinary64?
  rw [dif_neg (by rw [h]; decide)]

/-- What is not finite is written as a word that stands for something with the same normal form. -/
theorem parse?_plainText {x : Binary64} (h : x.isFinite = false) :
    ∃ y, Binary64.parse? (Text.trimmed x.plainText) = some y ∧ y.toJson = .text x.plainText := by
  unfold plainText
  by_cases hnan : x.isNaN = true
  · rw [if_pos hnan]
    exact ⟨notANumber false, by decide, by decide⟩
  · rw [if_neg hnan]
    simp only [h, Bool.false_eq_true, if_false]
    cases x.isNegative
    · exact ⟨infinity false, by decide, by decide⟩
    · exact ⟨infinity true, by decide, by decide⟩

end Binary64

end SqlSession
