/-
Numbers cut toward zero.

`towardZero` is the integer that is left of a number without its fraction.  A decimal is cut to it
where a signed word has room for that integer, and is no integer at all elsewhere:
`Decimal.toInt64?_eq_some_iff`.  A double is cut to it as well, but where there is no room, or no
number, it still gives an integer, which has nothing to do with the number:
`Binary64.toInt64_of_outside`.
-/
import Mathlib.Data.Rat.Floor
import SqlSession.Proofs.Number.DecimalValue

namespace SqlSession

variable {n : Int} {k : Int64}

/-- The integer that is left of a number without its fraction. -/
def towardZero (q : ℚ) : Int :=
  if 0 ≤ q then ⌊q⌋ else ⌈q⌉

/-- A signed word of 64 bits has room for the integer. -/
def FitsWord (n : Int) : Prop :=
  -0x8000000000000000 ≤ n ∧ n < 0x8000000000000000

instance (n : Int) : Decidable (FitsWord n) :=
  inferInstanceAs (Decidable (_ ∧ _))

theorem fitsWord_toInt (k : Int64) : FitsWord k.toInt :=
  ⟨k.le_toInt, k.toInt_lt⟩

theorem toInt_ofInt_of_fitsWord (h : FitsWord n) : (Int64.ofInt n).toInt = n :=
  Int64.toInt_ofInt_of_le h.1 h.2

theorem ofInt_eq_iff_of_fitsWord (h : FitsWord n) : Int64.ofInt n = k ↔ n = k.toInt := by
  rw [← Int64.toInt_inj, toInt_ofInt_of_fitsWord h]

/-! ### Quotients -/

theorem towardZero_intCast (n : Int) : towardZero n = n := by
  unfold towardZero
  rw [Int.floor_intCast, Int.ceil_intCast, ite_self]

theorem towardZero_neg (q : ℚ) : towardZero (-q) = -towardZero q := by
  unfold towardZero
  rcases lt_trichotomy q 0 with hneg | rfl | hpos
  · rw [if_pos (by linarith), if_neg (by linarith), Int.floor_neg]
  · simp
  · rw [if_neg (by linarith), if_pos hpos.le, Int.ceil_neg]

/-- Of a quotient the division without remainder is left. -/
theorem towardZero_div (num den : Nat) : towardZero (num / den) = (num / den : Nat) := by
  rw [towardZero, if_pos (by positivity), Rat.floor_natCast_div_natCast, Int.natCast_div]

theorem towardZero_signed (negative : Bool) (num den : Nat) :
    towardZero (if negative then -(num / den : ℚ) else num / den)
      = if negative then -((num / den : Nat) : Int) else (num / den : Nat) := by
  cases negative
  · exact towardZero_div num den
  · show towardZero (-(num / den : ℚ)) = _
    rw [towardZero_neg, towardZero_div]
    rfl

/-! ### Decimals -/

theorem Decimal.truncate_eq (d : Decimal) : d.truncate = towardZero d.value := by
  have hsize : d.size = (d.mantissa : ℚ) / (10 ^ d.scale : Nat) := by
    rw [size]
    push_cast
    rfl
  rw [value, hsize, towardZero_signed]
  rfl

/-- A decimal is cut to an integer where there is room for it. -/
theorem Decimal.toInt64?_eq_some_iff {d : Decimal} :
    d.toInt64? = some k ↔ towardZero d.value = k.toInt := by
  unfold toInt64?
  rw [d.truncate_eq]
  show (if FitsWord (towardZero d.value) then some (Int64.ofInt (towardZero d.value)) else none)
    = some k ↔ _
  by_cases hfits : FitsWord (towardZero d.value)
  · rw [if_pos hfits, Option.some_inj, ofInt_eq_iff_of_fitsWord hfits]
  · rw [if_neg hfits]
    exact iff_of_false nofun fun hk => hfits (hk ▸ fitsWord_toInt k)

/-! ### Doubles -/

namespace Binary64

variable {x : Binary64}

theorem truncate_eq (x : Binary64) : x.truncate = towardZero x.value := by
  rw [value, ← numerator_div_denominator, towardZero_signed]
  rfl

/-- The double is no number, or one whose integer has no room in a signed word. -/
def IsOutside (x : Binary64) : Prop :=
  x.isFinite = true → ¬FitsWord (towardZero x.value)

/-- What stands for a double that lies outside: the end of the range on its side, and 0 for what
is not a number. -/
def clamped (x : Binary64) : Int64 :=
  if x.isNaN then 0 else if x.isNegative then Int64.minValue else Int64.maxValue

theorem isNaN_of_isFinite (h : x.isFinite = true) : x.isNaN = false :=
  decide_eq_false (Nat.lt_asymm (of_decide_eq_true h))

/-- The sign of what is left of a double is the sign of the double. -/
theorem isNegative_of_towardZero_ne_zero (h : towardZero x.value ≠ 0) :
    x.isNegative = decide (towardZero x.value < 0) := by
  have htruncate : towardZero x.value
      = if x.isNegative then -((x.numerator / x.denominator : Nat) : Int)
        else (x.numerator / x.denominator : Nat) := (truncate_eq x).symm
  rw [htruncate] at h ⊢
  generalize x.numerator / x.denominator = n at h ⊢
  cases hsign : x.isNegative
  · rw [if_neg Bool.false_ne_true]
    exact (decide_eq_false (by omega)).symm
  · rw [hsign, if_pos rfl] at h
    rw [if_pos rfl]
    exact (decide_eq_true (by omega)).symm

theorem toInt64_of_isFinite (h : x.isFinite = true) :
    x.toInt64 =
      Int64.ofInt (max (-0x8000000000000000) (min (towardZero x.value) 0x7FFFFFFFFFFFFFFF)) := by
  rw [toInt64, isNaN_of_isFinite h, h, if_neg Bool.false_ne_true, if_pos rfl, truncate_eq]

/-- A double within the range is cut like any other number. -/
theorem toInt_toInt64 (hfinite : x.isFinite = true) (hfits : FitsWord (towardZero x.value)) :
    x.toInt64.toInt = towardZero x.value := by
  have hsame : max (-0x8000000000000000) (min (towardZero x.value) 0x7FFFFFFFFFFFFFFF)
      = towardZero x.value := by
    unfold FitsWord at hfits
    omega
  rw [toInt64_of_isFinite hfinite, hsame, toInt_ofInt_of_fitsWord hfits]

/-- A double outside the range gives an integer all the same. -/
theorem toInt64_of_outside (h : x.IsOutside) : x.toInt64 = x.clamped := by
  by_cases hfinite : x.isFinite = true
  · have hout := h hfinite
    have hsign : x.isNegative = decide (towardZero x.value < 0) := by
      refine isNegative_of_towardZero_ne_zero fun hzero => hout ?_
      rw [hzero]
      decide
    rw [toInt64_of_isFinite hfinite, clamped, isNaN_of_isFinite hfinite, hsign,
      if_neg Bool.false_ne_true]
    unfold FitsWord at hout
    by_cases hneg : towardZero x.value < 0
    · have hlow : max (-0x8000000000000000) (min (towardZero x.value) 0x7FFFFFFFFFFFFFFF)
          = -0x8000000000000000 := by omega
      rw [hlow, if_pos (decide_eq_true hneg)]
      rfl
    · have hhigh : max (-0x8000000000000000) (min (towardZero x.value) 0x7FFFFFFFFFFFFFFF)
          = 0x7FFFFFFFFFFFFFFF := by omega
      rw [hhigh, if_neg (by simpa using hneg)]
      rfl
  · rw [toInt64, if_neg hfinite]
    rfl

end Binary64

end SqlSession
