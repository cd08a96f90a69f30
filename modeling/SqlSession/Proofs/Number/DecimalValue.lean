/-
The numbers that decimals stand for.

`Decimal.value` is the rational number that a decimal is.  Taking zeros away does not change it,
and an integer of 64 bits has it as a decimal.

A double becomes a decimal by trading its binary places for decimal ones.  As long as 96 bits are
enough nothing is lost in that: `exists_ofBinary64?` says that a double is converted exactly where
its number `FitsDecimal` at all.  Every halving takes a binary place away, and an odd number that
is a decimal with places left has room for one more five, because its mantissa does.
-/
import Mathlib.Data.Nat.Prime.Basic
import SqlSession.Number.Decimal.Binary
import SqlSession.Proofs.Number.DoubleValue

namespace SqlSession

open BinaryFormat (double)

/-- A magnitude that a mantissa of 96 bits and at most 28 places are enough for. -/
def FitsDecimal (q : ℚ) : Prop :=
  ∃ c places : Nat, q = c / 10 ^ places ∧ c < Decimal.mantissaLimit ∧ places ≤ 28

namespace Decimal

variable {d e : Decimal} {x : Binary64}

/-! ### Values -/

/-- The magnitude of a decimal. -/
def size (d : Decimal) : ℚ :=
  d.mantissa / 10 ^ d.scale

/-- The number that a decimal is. -/
def value (d : Decimal) : ℚ :=
  if d.negative then -d.size else d.size

theorem fitsDecimal_size (d : Decimal) : FitsDecimal d.size :=
  ⟨_, _, rfl, d.mantissa_lt, d.scale_le⟩

theorem size_nonneg (d : Decimal) : 0 ≤ d.size := by
  unfold size
  positivity

theorem abs_value (d : Decimal) : |d.value| = d.size := by
  unfold value
  split
  · rw [abs_neg, abs_of_nonneg d.size_nonneg]
  · exact abs_of_nonneg d.size_nonneg

theorem value_ofInt64 (n : Int64) : (ofInt64 n).value = n.toInt := by
  have hsign : n < 0 ↔ n.toInt < 0 := Int64.lt_iff_toInt_lt
  have hsize : (ofInt64 n).size = (n.toInt.natAbs : Nat) := by
    simp [size, ofInt64]
  have habs : (n.toInt.natAbs : ℚ) = |(n.toInt : ℚ)| := by
    rw [Nat.cast_natAbs, Int.cast_abs]
  unfold value
  rw [hsize, habs]
  by_cases hneg : n.toInt < 0
  · have hnegative : (ofInt64 n).negative = true := decide_eq_true (hsign.mpr hneg)
    have hcast : (n.toInt : ℚ) < 0 := by exact_mod_cast hneg
    rw [if_pos hnegative, abs_of_neg hcast, neg_neg]
  · have hnegative : (ofInt64 n).negative = false := decide_eq_false (mt hsign.mp hneg)
    have hcast : (0 : ℚ) ≤ n.toInt := by exact_mod_cast not_lt.mp hneg
    rw [hnegative, if_neg Bool.false_ne_true, abs_of_nonneg hcast]

theorem value_of_zero (h : d.mantissa = 0) : d.value = 0 := by
  rw [← abs_eq_zero, abs_value, size, h, Nat.cast_zero, zero_div]

theorem size_lt (d : Decimal) : d.size < 2 ^ 1023 := by
  have hmantissa : (d.mantissa : ℚ) < 2 ^ 96 := by
    exact_mod_cast d.mantissa_lt
  calc d.size ≤ d.mantissa := div_le_self (Nat.cast_nonneg _) (one_le_pow₀ (by decide))
    _ < 2 ^ 96 := hmantissa
    _ ≤ 2 ^ 1023 := pow_le_pow_right₀ (by decide) (by decide)

theorem le_size (hd : d.mantissa ≠ 0) : 2 ^ (-1022 : Int) ≤ d.size := by
  have hone : (1 : ℚ) ≤ d.mantissa := by exact_mod_cast Nat.pos_of_ne_zero hd
  have hpower : (10 : ℚ) ^ d.scale ≤ 10 ^ 28 := pow_le_pow_right₀ (by decide) d.scale_le
  rw [size, le_div_iff₀ (by positivity)]
  calc (2 : ℚ) ^ (-1022 : Int) * 10 ^ d.scale ≤ 2 ^ (-100 : Int) * 10 ^ 28 := by
        gcongr <;> decide
    _ ≤ 1 := by norm_num
    _ ≤ d.mantissa := hone

/-- The double nearest to a decimal.  For zero the sign does not matter. -/
theorem isRounded_ofRatio (d : Decimal) {negative : Bool}
    (hsign : d.mantissa = 0 ∨ negative = d.negative) :
    (Binary64.ofRatio negative d.mantissa (10 ^ d.scale)).IsRounded d.value := by
  have hsize : ((d.mantissa : ℚ)) / (10 ^ d.scale : Nat) = d.size := by
    rw [size]
    push_cast
    rfl
  have hvalue : d.value = if negative then -(d.mantissa / (10 ^ d.scale : Nat) : ℚ)
      else d.mantissa / (10 ^ d.scale : Nat) := by
    rw [hsize]
    rcases hsign with hzero | rfl
    · have hnone : d.size = 0 := by rw [size, hzero, Nat.cast_zero, zero_div]
      rw [value_of_zero hzero, hnone, neg_zero, ite_self]
    · rfl
  rw [hvalue]
  refine Binary64.isRounded_ofRatio _ (by positivity) ?_ (hsize ▸ d.size_lt)
  rcases Nat.eq_zero_or_pos d.mantissa with hzero | hpos
  · exact .inl hzero
  · exact .inr (hsize ▸ le_size hpos.ne')

/-! ### From a double -/

/-- While a number is a decimal, its binary places are traded for decimal ones without loss: `j`
of the places become decimal ones. -/
theorem exists_growFives (n : Nat) {m c s : Nat} (hm : 0 < m) (hnumber : m * 10 ^ s = c * 2 ^ n)
    (hc : c < mantissaLimit) (e10 : Int) :
    ∃ j m' : Nat, growFives n m e10 = (m', e10 + n - j) ∧ j ≤ s ∧ m' * 2 ^ n = m * 10 ^ j := by
  induction n generalizing m s e10 with
  | zero => exact ⟨0, m, by simp [growFives], Nat.zero_le _, rfl⟩
  | succ n ih =>
      unfold growFives
      by_cases heven : m % 2 = 0
      · obtain ⟨half, rfl⟩ : ∃ half, m = half * 2 := ⟨m / 2, by omega⟩
        have hhalf : half * 10 ^ s = c * 2 ^ n := by
          rw [pow_succ] at hnumber
          linarith
        obtain ⟨j, m', hgrown, hj, hvalue⟩ := ih (by omega) hhalf (e10 + 1)
        refine ⟨j, m', ?_, hj, ?_⟩
        · rw [if_pos heven, Nat.mul_div_cancel _ (by decide), hgrown]
          congr 1
          push_cast
          ring
        · rw [pow_succ, ← Nat.mul_assoc, hvalue]
          ring
      · -- all the twos are in the power of ten, so there is room for a five
        have hodd : Nat.Coprime (2 ^ (n + 1)) (m * 5 ^ s) := by
          refine Nat.Coprime.pow_left _ (Nat.Coprime.mul_right ?_ ?_)
          · exact (Nat.Prime.coprime_iff_not_dvd Nat.prime_two).mpr
              fun h => heven (Nat.dvd_iff_mod_eq_zero.mp h)
          · exact Nat.Coprime.pow_right _ (by decide)
        have htwos : m * 5 ^ s * 2 ^ s = c * 2 ^ (n + 1) := by
          rw [← hnumber, Nat.mul_assoc, ← Nat.mul_pow]
        have hplaces : n + 1 ≤ s := by
          refine (Nat.pow_dvd_pow_iff_le_right (by decide)).mp (hodd.dvd_of_dvd_mul_left ?_)
          rw [htwos]
          exact Nat.dvd_mul_left _ _
        obtain ⟨s, rfl⟩ : ∃ t, s = t + 1 := ⟨s - 1, by omega⟩
        have hfive : m * 5 * 10 ^ s = c * 2 ^ n := by
          rw [pow_succ, pow_succ] at hnumber
          linarith
        have hroom : m * 5 < mantissaLimit := by
          refine Nat.lt_of_le_of_lt ?_ hc
          refine Nat.le_of_mul_le_mul_right ?_ (Nat.pow_pos (n := n) (by decide : 0 < 2))
          rw [← hfive]
          exact Nat.mul_le_mul_left _ ((Nat.pow_le_pow_left (by decide) n).trans
            (Nat.pow_le_pow_right (by decide) (by omega)))
        obtain ⟨j, m', hgrown, hj, hvalue⟩ := ih (by omega) hfive e10
        refine ⟨j + 1, m', ?_, by omega, ?_⟩
        · rw [if_neg heven, if_pos hroom, hgrown]
          congr 1
          push_cast
          ring
        · rw [pow_succ, ← Nat.mul_assoc, hvalue]
          ring

/-- Below 96 bits the binary digits are only moved. -/
theorem shrinkFives_eq (n : Nat) {m : Nat} (hroom : m * 2 ^ n < mantissaLimit) (e10 : Int) :
    shrinkFives n m e10 = some (m * 2 ^ n, e10 - n) := by
  induction n generalizing m e10 with
  | zero => simp [shrinkFives]
  | succ n ih =>
      have hdouble : m * 2 * 2 ^ n = m * 2 ^ (n + 1) := by ring
      have hhalf : m < 0x800000000000000000000000 := by
        have : m * 2 ≤ m * 2 * 2 ^ n := Nat.le_mul_of_pos_right _ (by positivity)
        unfold mantissaLimit at hroom
        omega
      rw [shrinkFives, if_pos hhalf, ih (hdouble ▸ hroom), hdouble]
      congr 2
      push_cast
      ring

/-- What is left once the binary places are gone. -/
def settle? (negative : Bool) (m : Nat) (e10 : Int) : Option Decimal :=
  if 0 ≤ e10 then (writeOut e10.toNat m).bind fun m => ofParts? negative m 0
  else if -28 ≤ e10 then ofParts? negative m e10.natAbs
  else
    let (m, scale) := dropPlaces (e10.natAbs - 28) m
    ofParts? negative m scale

theorem settle?_of_places (negative : Bool) {m j : Nat} (hm : m < mantissaLimit) (hj : j ≤ 28) :
    settle? negative m (-j) = some ⟨negative, m, j, hm, hj⟩ := by
  unfold settle?
  rcases Nat.eq_zero_or_pos j with rfl | hpos
  · exact dif_pos ⟨hm, hj⟩
  · rw [if_neg (by omega), if_pos (by omega), Int.natAbs_neg, Int.natAbs_natCast]
    exact dif_pos ⟨hm, hj⟩

theorem ofBinary64?_eq (hfinite : x.isFinite = true) (hzero : x.isZero = false) :
    ofBinary64? x =
      (if double.scale x.magnitude < 0 then
          some (growFives (double.scale x.magnitude).natAbs (double.significand x.magnitude)
            (double.scale x.magnitude))
        else shrinkFives (double.scale x.magnitude).natAbs (double.significand x.magnitude)
            (double.scale x.magnitude)).bind
        fun p => settle? x.isNegative p.1 p.2 := by
  unfold ofBinary64?
  rw [hfinite, hzero]
  rfl

theorem significand_pos {word : Nat} (hword : word ≠ 0) : 0 < double.significand word := by
  unfold BinaryFormat.significand
  split
  · omega
  · exact Nat.add_pos_left (Nat.pow_pos (by decide)) _

/-- **A double that is a decimal** is converted exactly. -/
theorem exists_ofBinary64? (hfinite : x.isFinite = true) (hfits : FitsDecimal x.size) :
    ∃ e, ofBinary64? x = some e ∧ e.value = x.value := by
  obtain ⟨c, s, hnumber, hc, hs⟩ := hfits
  by_cases hzero : x.isZero = true
  · have hword : x.magnitude = 0 := beq_iff_eq.mp hzero
    refine ⟨zero x.isNegative, ?_, ?_⟩
    · unfold ofBinary64?
      rw [hfinite, hzero]
      rfl
    · simp [value, size, zero, Binary64.value, Binary64.size, hword, BinaryFormat.value,
        BinaryFormat.significand]
  have hm : 0 < double.significand x.magnitude :=
    significand_pos fun h => hzero (beq_iff_eq.mpr h)
  -- it is enough to find the mantissa and the places of the decimal
  have hparts {m j : Nat} (hm : m < mantissaLimit) (hj : j ≤ 28) (hsize : x.size = m / 10 ^ j)
      (hmoved : ofBinary64? x = settle? x.isNegative m (-j)) :
      ∃ e, ofBinary64? x = some e ∧ e.value = x.value := by
    refine ⟨⟨x.isNegative, m, j, hm, hj⟩, hmoved.trans (settle?_of_places _ hm hj), ?_⟩
    unfold value Binary64.value
    rw [hsize]
    rfl
  have hsize : x.size = double.significand x.magnitude * 2 ^ double.scale x.magnitude := rfl
  rw [hsize] at hnumber
  have hcases := ofBinary64?_eq hfinite (by simpa using hzero)
  rcases lt_or_ge (double.scale x.magnitude) 0 with hneg | hpos
  · obtain ⟨n, hn⟩ : ∃ n : Nat, double.scale x.magnitude = -n :=
      ⟨(double.scale x.magnitude).natAbs, by omega⟩
    have hplaces : double.significand x.magnitude * 10 ^ s = c * 2 ^ n := by
      rw [hn, zpow_neg, zpow_natCast, ← div_eq_mul_inv,
        div_eq_div_iff (by positivity) (by positivity)] at hnumber
      exact_mod_cast hnumber
    obtain ⟨j, m', hgrown, hj, hvalue⟩ := exists_growFives n hm hplaces hc (-n)
    have hroom : m' < mantissaLimit := by
      refine Nat.lt_of_le_of_lt (Nat.le_of_mul_le_mul_right ?_ (by positivity : 0 < 2 ^ n)) hc
      rw [hvalue, ← hplaces]
      exact Nat.mul_le_mul_left _ (Nat.pow_le_pow_right (by decide) hj)
    refine hparts hroom (hj.trans hs) ?_ ?_
    · rw [hsize, hn, zpow_neg, zpow_natCast, ← div_eq_mul_inv,
        div_eq_div_iff (by positivity) (by positivity)]
      exact_mod_cast hvalue.symm
    · rw [hcases, if_pos hneg, hn, Int.natAbs_neg, Int.natAbs_natCast, hgrown, neg_add_cancel,
        zero_sub]
      rfl
  · obtain ⟨n, hn⟩ : ∃ n : Nat, double.scale x.magnitude = n :=
      ⟨(double.scale x.magnitude).natAbs, by omega⟩
    have hwhole : double.significand x.magnitude * 2 ^ n * 10 ^ s = c := by
      rw [hn, zpow_natCast, eq_div_iff (by positivity)] at hnumber
      exact_mod_cast hnumber
    have hroom : double.significand x.magnitude * 2 ^ n < mantissaLimit :=
      Nat.lt_of_le_of_lt (hwhole ▸ Nat.le_mul_of_pos_right _ (by positivity)) hc
    refine hparts hroom (Nat.zero_le 28) ?_ ?_
    · rw [hsize, hn, zpow_natCast]
      push_cast
      ring
    · rw [hcases, if_neg (not_lt.mpr hpos), hn, Int.natAbs_natCast, shrinkFives_eq n hroom]
      simp

end Decimal

end SqlSession
