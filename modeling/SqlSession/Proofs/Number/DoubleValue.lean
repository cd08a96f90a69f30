/-
The numbers that doubles stand for.

`Binary64.value` is the rational number that a finite double is.  A quotient is turned into a
double by rounding it once, so arithmetic is judged by what it makes of a quotient: of one that
lies well within the range it makes a finite number, off by at most one part in 2^53, and the
quotient itself where that `FitsDouble`, which means that 53 binary digits are enough for it.
-/
import SqlSession.Number.Binary64
import SqlSession.Proofs.Number.NearestWord

namespace SqlSession

open BinaryFormat (double IsNearest)

variable {num den : Nat} {negative : Bool} {q : ℚ}

/-- A magnitude with at most 53 binary digits, none of them below the last place of a double. -/
def FitsDouble (q : ℚ) : Prop :=
  ∃ (c : Nat) (k : Int), q = c * 2 ^ k ∧ c < 2 ^ 53 ∧ -1074 ≤ k

theorem minScale_double : double.minScale = -1074 := rfl

theorem infinity_double : double.infinity = 0x7FF0000000000000 := rfl

/-- For a whole number the binary digits are those of the number, without the zeros at their end. -/
theorem fitsDouble_natCast_iff {n : Nat} :
    FitsDouble n ↔ ∃ c k : Nat, n = c * 2 ^ k ∧ c < 2 ^ 53 := by
  constructor
  · rintro ⟨c, k, hn, hc, -⟩
    obtain ⟨j, rfl | rfl⟩ := k.eq_nat_or_neg
    · rw [zpow_natCast] at hn
      exact ⟨c, j, by exact_mod_cast hn, hc⟩
    · rw [zpow_neg, zpow_natCast, ← div_eq_mul_inv, eq_div_iff (by positivity)] at hn
      have hc' : n * 2 ^ j = c := by exact_mod_cast hn
      refine ⟨n, 0, (Nat.mul_one n).symm, ?_⟩
      exact Nat.lt_of_le_of_lt (hc' ▸ Nat.le_mul_of_pos_right n (by positivity)) hc
  · rintro ⟨c, k, hn, hc⟩
    refine ⟨c, k, ?_, hc, by omega⟩
    rw [zpow_natCast]
    exact_mod_cast hn

namespace Binary64

/-! ### Values -/

/-- The magnitude of a finite number. -/
def size (x : Binary64) : ℚ :=
  double.value x.magnitude

/-- The number that a finite double is. -/
def value (x : Binary64) : ℚ :=
  if x.isNegative then -x.size else x.size

theorem numerator_div_denominator (x : Binary64) : (x.numerator : ℚ) / x.denominator = x.size :=
  double.numerator_div_denominator _

theorem fitsDouble_size (x : Binary64) : FitsDouble x.size :=
  ⟨_, _, rfl, double.significand_lt _, double.minScale_le_scale _⟩

theorem size_nonneg (x : Binary64) : 0 ≤ x.size := by
  unfold size BinaryFormat.value
  positivity

theorem abs_value (x : Binary64) : |x.value| = x.size := by
  unfold value
  split
  · rw [abs_neg, abs_of_nonneg x.size_nonneg]
  · exact abs_of_nonneg x.size_nonneg

/-! ### Fields -/

variable {w : Nat}

theorem magnitude_ofMagnitude (hw : w < 0x8000000000000000) :
    (ofMagnitude negative w).magnitude = w := by
  unfold magnitude ofMagnitude
  rw [UInt64.toNat_ofNat']
  cases negative
  · rw [if_neg Bool.false_ne_true]
    omega
  · rw [if_pos rfl]
    omega

theorem isNegative_ofMagnitude (hw : w < 0x8000000000000000) :
    (ofMagnitude negative w).isNegative = negative := by
  unfold isNegative ofMagnitude
  rw [UInt64.toNat_ofNat']
  cases negative
  · rw [if_neg Bool.false_ne_true]
    exact decide_eq_false (by omega)
  · rw [if_pos rfl]
    exact decide_eq_true (by omega)

theorem nearest_le_infinity (num den : Nat) : double.nearest num den ≤ double.infinity := by
  unfold BinaryFormat.nearest
  split
  · exact Nat.zero_le _
  · exact Nat.min_le_right _ _

theorem nearest_lt (num den : Nat) : double.nearest num den < 0x8000000000000000 :=
  Nat.lt_of_le_of_lt (nearest_le_infinity num den) (by decide)

theorem isNegative_ofRatio (negative : Bool) (num den : Nat) :
    (ofRatio negative num den).isNegative = negative :=
  isNegative_ofMagnitude (nearest_lt num den)

theorem size_ofRatio_zero (negative : Bool) (den : Nat) : (ofRatio negative 0 den).size = 0 := by
  have hzero : (ofRatio negative 0 den).magnitude = 0 := magnitude_ofMagnitude (nearest_lt 0 den)
  unfold size
  rw [hzero]
  simp [BinaryFormat.value, BinaryFormat.significand]

/-! ### Rounding once -/

/-- The word of a point well within the range is finite. -/
theorem wordAt_lt_infinity {s : Int} {m : Nat} (h : double.IsNearest q s m) (hq : q < 2 ^ 1023) :
    double.wordAt s m < double.infinity := by
  have hscale : s < 971 := by
    rcases h.le with hs | hle
    · rw [hs, minScale_double]
      decide
    · have hpow : (2 : ℚ) ^ (s + 52) < 2 ^ (1023 : Int) := by
        rw [zpow_add₀ (by decide), mul_comm]
        exact_mod_cast hle.trans_lt hq
      have := (zpow_lt_zpow_iff_right₀ (by decide)).mp hpow
      omega
  have hmin := h.minScale_le
  have hpoint : m ≤ 2 * 2 ^ 52 := h.point_le
  have hunit : Nat.pow 2 double.fractionBits = 2 ^ 52 := rfl
  rw [minScale_double] at hmin
  rw [infinity_double, BinaryFormat.wordAt, hunit, minScale_double]
  have hsteps : (s - -1074).toNat ≤ 2044 := by omega
  have := Nat.mul_le_mul_right (2 ^ 52) hsteps
  omega

/-- A quotient well within the range becomes the finite number nearest to it. -/
theorem exists_ofRatio (negative : Bool) (hnum : 0 < num) (hden : 0 < den)
    (hq : (num : ℚ) / den < 2 ^ 1023) :
    ∃ s m, double.IsNearest ((num : ℚ) / den) s m ∧ (ofRatio negative num den).isFinite = true ∧
      (ofRatio negative num den).size = m * 2 ^ s := by
  obtain ⟨s, m, hnearest, hword⟩ := double.exists_isNearest hnum hden
  have hlt := wordAt_lt_infinity hnearest hq
  have hmagnitude : (ofRatio negative num den).magnitude = double.wordAt s m := by
    rw [ofRatio, magnitude_ofMagnitude (nearest_lt num den), hword, Nat.min_eq_left hlt.le]
  refine ⟨s, m, hnearest, ?_, ?_⟩
  · unfold isFinite
    rw [hmagnitude]
    exact decide_eq_true hlt
  · unfold size
    rw [hmagnitude]
    exact double.value_wordAt hnearest.minScale_le hnearest.le_point hnearest.point_le

theorem isFinite_ofRatio (negative : Bool) (hnum : 0 < num) (hden : 0 < den)
    (hq : (num : ℚ) / den < 2 ^ 1023) : (ofRatio negative num den).isFinite = true := by
  obtain ⟨s, m, -, hfinite, -⟩ := exists_ofRatio negative hnum hden hq
  exact hfinite

/-- The double is off by at most one part in 2^53. -/
theorem size_ofRatio_near (negative : Bool) (hnum : 0 < num) (hden : 0 < den)
    (hlow : 2 ^ (-1022 : Int) ≤ (num : ℚ) / den) (hhigh : (num : ℚ) / den < 2 ^ 1023) :
    |(ofRatio negative num den).size - num / den| ≤ num / den / 2 ^ 53 := by
  obtain ⟨s, m, hnearest, -, hsize⟩ := exists_ofRatio negative hnum hden hhigh
  rw [hsize]
  refine hnearest.near_of_normal ?_
  have hunit : (2 : ℚ) ^ double.fractionBits * 2 ^ double.minScale = 2 ^ (-1022 : Int) := by
    rw [minScale_double, ← zpow_natCast, ← zpow_add₀ (by decide)]
    rfl
  rwa [hunit]

/-- The double is the quotient itself exactly where 53 binary digits are enough. -/
theorem size_ofRatio_eq_iff (negative : Bool) (hnum : 0 < num) (hden : 0 < den)
    (hq : (num : ℚ) / den < 2 ^ 1023) :
    (ofRatio negative num den).size = num / den ↔ FitsDouble ((num : ℚ) / den) := by
  refine ⟨fun h => h ▸ fitsDouble_size _, fun ⟨c, k, hgrid, hc, hk⟩ => ?_⟩
  obtain ⟨s, m, hnearest, -, hsize⟩ := exists_ofRatio negative hnum hden hq
  rw [hsize]
  exact hnearest.eq_of_grid hgrid hc hk

/-- The double is the number rounded once: off by at most one part in 2^53, and the number itself
exactly where 53 binary digits are enough. -/
structure IsRounded (x : Binary64) (q : ℚ) : Prop where
  finite : x.isFinite = true
  near : |x.value - q| ≤ |q| / 2 ^ 53
  eq_iff : x.value = q ↔ FitsDouble |q|

theorem fitsDouble_zero : FitsDouble 0 :=
  ⟨0, 0, by simp, by decide, by decide⟩

/-- A quotient of normal size, or zero, is rounded once. -/
theorem isRounded_ofRatio (negative : Bool) (hden : 0 < den)
    (hlow : num = 0 ∨ 2 ^ (-1022 : Int) ≤ (num : ℚ) / den) (hhigh : (num : ℚ) / den < 2 ^ 1023) :
    IsRounded (ofRatio negative num den) (if negative then -(num / den : ℚ) else num / den) := by
  have hvalue (q : ℚ) : |(if negative = true then -q else q)| = |q| := by
    split
    · exact abs_neg q
    · rfl
  have hpos : (0 : ℚ) ≤ num / den := div_nonneg (Nat.cast_nonneg _) (Nat.cast_nonneg _)
  by_cases hzero : num = 0
  · subst hzero
    have hmagnitude : (ofRatio negative 0 den).magnitude = 0 :=
      magnitude_ofMagnitude (nearest_lt 0 den)
    have hsize : (ofRatio negative 0 den).value = 0 := by
      rw [← abs_eq_zero, abs_value, size_ofRatio_zero]
    refine ⟨?_, ?_, ?_⟩
    · unfold isFinite
      rw [hmagnitude]
      rfl
    · simp [hsize]
    · simpa [hsize] using fitsDouble_zero
  · have hnum : 0 < num := Nat.pos_of_ne_zero hzero
    have hlow := hlow.resolve_left hzero
    have hx : (ofRatio negative num den).value
        = if negative = true then -(ofRatio negative num den).size
          else (ofRatio negative num den).size := by
      rw [value, isNegative_ofRatio]
    refine ⟨isFinite_ofRatio negative hnum hden hhigh, ?_, ?_⟩
    · have hnear := size_ofRatio_near negative hnum hden hlow hhigh
      rw [hvalue, abs_of_nonneg hpos, hx]
      cases negative
      · exact hnear
      · rw [if_pos rfl, if_pos rfl, neg_sub_neg, abs_sub_comm]
        exact hnear
    · rw [hvalue, abs_of_nonneg hpos, ← size_ofRatio_eq_iff negative hnum hden hhigh, hx]
      cases negative
      · exact Iff.rfl
      · exact neg_inj

theorem natAbs_div_one_lt {n : Int} (hn : n.natAbs ≤ 2 ^ 64) :
    ((n.natAbs : Nat) : ℚ) / (1 : Nat) < 2 ^ 1023 := by
  have hcast : (n.natAbs : ℚ) ≤ 2 ^ 64 := by exact_mod_cast hn
  rw [Nat.cast_one, div_one]
  exact lt_of_le_of_lt hcast (pow_lt_pow_right₀ (by decide) (by decide))

/-- An integer of 64 bits, signed or not, is rounded once. -/
theorem isRounded_ofInt {n : Int} (hn : n.natAbs ≤ 2 ^ 64) : IsRounded (ofInt n) n := by
  have hvalue : (n : ℚ) = if decide (n < 0) = true then -((n.natAbs : Nat) / (1 : Nat) : ℚ)
      else (n.natAbs : Nat) / (1 : Nat) := by
    rw [Nat.cast_one, div_one, Nat.cast_natAbs, Int.cast_abs]
    by_cases hneg : n < 0
    · rw [if_pos (decide_eq_true hneg), abs_of_neg (by exact_mod_cast hneg), neg_neg]
    · rw [if_neg (by simpa using hneg), abs_of_nonneg (by exact_mod_cast not_lt.mp hneg)]
  rw [hvalue]
  refine isRounded_ofRatio _ Nat.one_pos ?_ ?_
  · rcases Nat.eq_zero_or_pos n.natAbs with hzero | hpos
    · exact .inl hzero
    · refine .inr ?_
      have hone : (1 : ℚ) ≤ n.natAbs := by exact_mod_cast hpos
      rw [Nat.cast_one, div_one]
      exact le_trans (zpow_le_one_of_nonpos₀ (by decide) (by decide)) hone
  · exact natAbs_div_one_lt hn

/-- The double nearest to a whole number is a whole number. -/
theorem exists_size_ofInt {n : Int} (hn : n.natAbs ≤ 2 ^ 64) :
    ∃ k : Nat, (ofInt n).size = k := by
  rcases Nat.eq_zero_or_pos n.natAbs with hzero | hpos
  · refine ⟨0, ?_⟩
    rw [ofInt, hzero, size_ofRatio_zero, Nat.cast_zero]
  have hq : ((n.natAbs : Nat) : ℚ) / (1 : Nat) < 2 ^ 1023 := natAbs_div_one_lt hn
  obtain ⟨s, m, hnearest, -, hsize⟩ := exists_ofRatio (decide (n < 0)) hpos Nat.one_pos hq
  rw [ofInt, hsize]
  obtain ⟨j, rfl | rfl⟩ := s.eq_nat_or_neg
  · exact ⟨m * 2 ^ j, by rw [zpow_natCast]; push_cast; rfl⟩
  · -- the grid is finer than the whole numbers, so nothing is rounded
    have hgrid : ((n.natAbs : Nat) : ℚ) / (1 : Nat)
        = (n.natAbs * 2 ^ j : Nat) * 2 ^ (-j : Int) := by
      rw [zpow_neg, zpow_natCast, Nat.cast_one, div_one, Nat.cast_mul, Nat.cast_pow, Nat.cast_two,
        mul_inv_cancel_right₀ (by positivity)]
    refine ⟨n.natAbs, ?_⟩
    rw [hnearest.point_eq _ hgrid, ← hgrid, Nat.cast_one, div_one]

/-! ### Arithmetic -/

variable {x y : Binary64}

theorem value_of_not_negative (h : x.isNegative = false) : x.value = x.size := by
  rw [value, h, if_neg Bool.false_ne_true]

theorem denominator_pos (x : Binary64) : 0 < x.denominator :=
  Nat.pow_pos (by decide)

theorem numerator_pos (h : 0 < x.size) : 0 < x.numerator := by
  rw [← numerator_div_denominator] at h
  exact_mod_cast (div_pos_iff_of_pos_right (by exact_mod_cast x.denominator_pos)).mp h

theorem isRounded_mul (hx : x.isNegative = false) (hy : y.isNegative = false)
    (hlow : 2 ^ (-1022 : Int) ≤ x.size * y.size) (hhigh : x.size * y.size < 2 ^ 1023) :
    (x.mul y).isNegative = false ∧ (x.mul y).IsRounded (x.size * y.size) := by
  have hquotient : ((x.numerator * y.numerator : Nat) : ℚ) / (x.denominator * y.denominator : Nat)
      = x.size * y.size := by
    rw [← numerator_div_denominator, ← numerator_div_denominator, Nat.cast_mul, Nat.cast_mul,
      div_mul_div_comm]
  have hrounded := isRounded_ofRatio false (Nat.mul_pos x.denominator_pos y.denominator_pos)
    (.inr (hquotient ▸ hlow)) (hquotient ▸ hhigh)
  rw [if_neg Bool.false_ne_true, hquotient] at hrounded
  unfold mul
  rw [hx, hy]
  exact ⟨isNegative_ofRatio _ _ _, hrounded⟩

theorem isRounded_div (hx : x.isNegative = false) (hy : y.isNegative = false) (hpos : 0 < y.size)
    (hlow : 2 ^ (-1022 : Int) ≤ x.size / y.size) (hhigh : x.size / y.size < 2 ^ 1023) :
    (x.div y).isNegative = false ∧ (x.div y).IsRounded (x.size / y.size) := by
  have hquotient : ((x.numerator * y.denominator : Nat) : ℚ) / (x.denominator * y.numerator : Nat)
      = x.size / y.size := by
    rw [← numerator_div_denominator, ← numerator_div_denominator, Nat.cast_mul, Nat.cast_mul,
      div_div_div_eq]
  have hrounded := isRounded_ofRatio false (Nat.mul_pos x.denominator_pos (numerator_pos hpos))
    (.inr (hquotient ▸ hlow)) (hquotient ▸ hhigh)
  rw [if_neg Bool.false_ne_true, hquotient] at hrounded
  unfold div
  rw [hx, hy]
  exact ⟨isNegative_ofRatio _ _ _, hrounded⟩

theorem magnitude_lt (x : Binary64) : x.magnitude < 0x8000000000000000 :=
  Nat.mod_lt _ (by decide)

theorem isNegative_neg (x : Binary64) : x.neg.isNegative = !x.isNegative :=
  isNegative_ofMagnitude x.magnitude_lt

theorem size_neg (x : Binary64) : x.neg.size = x.size := by
  unfold size neg
  rw [magnitude_ofMagnitude x.magnitude_lt]

theorem isFinite_neg (x : Binary64) : x.neg.isFinite = x.isFinite := by
  unfold isFinite neg
  rw [magnitude_ofMagnitude x.magnitude_lt]

theorem value_neg (x : Binary64) : x.neg.value = -x.value := by
  unfold value
  rw [isNegative_neg, size_neg]
  cases x.isNegative <;> simp

/-- A number and its negative are rounded alike. -/
theorem IsRounded.neg (h : x.IsRounded q) : x.neg.IsRounded (-q) where
  finite := x.isFinite_neg.trans h.finite
  near := by
    rw [value_neg, neg_sub_neg, abs_sub_comm, abs_neg]
    exact h.near
  eq_iff := by
    rw [value_neg, neg_inj, abs_neg]
    exact h.eq_iff

end Binary64

end SqlSession
