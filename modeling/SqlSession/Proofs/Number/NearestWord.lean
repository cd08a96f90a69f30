/-
The word nearest to a quotient.

A finite word of a binary format stands for its significand times a power of two.  In the binade
of a quotient these numbers form a grid.  `BinaryFormat.nearest` rounds the quotient to a point of
the grid, which is `exists_isNearest`, and the word that it makes of the point stands for the
point, also where rounding has reached the next binade, which is `value_wordAt`.

From this follow the two things that arithmetic is judged by: the word misses a quotient of normal
size by at most half a unit of its last place, `IsNearest.near_of_normal`, and does not miss a
number of the format at all, `IsNearest.eq_of_grid`.
-/
import Mathlib.Algebra.Order.Field.Power
import Mathlib.Data.Rat.Cast.Order
import Mathlib.Tactic.FieldSimp
import Mathlib.Tactic.Linarith
import Mathlib.Tactic.Positivity
import Mathlib.Tactic.Ring
import SqlSession.Number.BinaryFormat

namespace SqlSession

variable {num den k : Nat}

/-! ### Rounding to an integer -/

theorem divHalfEven_near (hden : 0 < den) :
    |(divHalfEven num den : ℚ) - num / den| ≤ 1 / 2 := by
  have hpos : (0 : ℚ) < den := by exact_mod_cast hden
  have hlt : num % den < den := Nat.mod_lt _ hden
  have hsplit : (num : ℚ) / den = (num / den : Nat) + (num % den : Nat) / den := by
    rw [div_eq_iff hpos.ne', add_mul, div_mul_cancel₀ _ hpos.ne']
    exact_mod_cast (Nat.div_add_mod' num den).symm
  have hfraction : ((num % den : Nat) : ℚ) / den < 1 := by
    rw [div_lt_one hpos]
    exact_mod_cast hlt
  have hfraction' : 0 ≤ ((num % den : Nat) : ℚ) / den := by positivity
  rw [hsplit, abs_sub_le_iff]
  unfold divHalfEven
  dsimp only
  split
  next hup =>
    have hhalf : (1 : ℚ) / 2 ≤ ((num % den : Nat) : ℚ) / den := by
      rw [div_le_div_iff₀ (by decide) hpos]
      exact_mod_cast (show 1 * den ≤ num % den * 2 by omega)
    push_cast
    constructor <;> linarith
  next hdown =>
    have hhalf : ((num % den : Nat) : ℚ) / den ≤ 1 / 2 := by
      rw [div_le_div_iff₀ hpos (by decide)]
      exact_mod_cast (show num % den * 2 ≤ 1 * den by omega)
    constructor <;> linarith

theorem le_divHalfEven_of_le (hden : 0 < den) (h : k * den ≤ num) : k ≤ divHalfEven num den :=
  Nat.le_trans ((Nat.le_div_iff_mul_le hden).mpr h) (le_divHalfEven num den)

theorem divHalfEven_le_of_le (hden : 0 < den) (h : num ≤ k * den) : divHalfEven num den ≤ k := by
  rcases Nat.eq_or_lt_of_le h with heq | hlt
  · rw [heq, divHalfEven_mul k den hden]
  · have hquotient : num / den < k := (Nat.div_lt_iff_lt_mul hden).mpr hlt
    have := divHalfEven_le num den
    omega

namespace BinaryFormat

variable (f : BinaryFormat) {s : Int} {m word : Nat} {q : ℚ}

/-! ### The value of a word -/

/-- The magnitude of a finite word. -/
def value (word : Nat) : ℚ :=
  f.significand word * 2 ^ f.scale word

/-- Scaling by a power of two, on the side where it is a whole number. -/
theorem scaled_div (num den : Nat) (s : Int) :
    ((num * Nat.pow 2 (-s).toNat : Nat) : ℚ) / (den * Nat.pow 2 s.toNat : Nat)
      = num / den / 2 ^ s := by
  obtain ⟨k, rfl | rfl⟩ := s.eq_nat_or_neg
  · simp [Nat.pow_eq, div_div]
  · simp [Nat.pow_eq, div_mul_eq_mul_div]

theorem numerator_div_denominator (word : Nat) :
    (f.numerator word : ℚ) / f.denominator word = f.value word := by
  have h := scaled_div (f.significand word) 1 (-f.scale word)
  rw [neg_neg] at h
  unfold numerator denominator value
  rw [← Nat.one_mul (Nat.pow 2 (-f.scale word).toNat), h]
  simp

theorem significand_lt (word : Nat) : f.significand word < 2 ^ (f.fractionBits + 1) := by
  have hpos : 0 < Nat.pow 2 f.fractionBits := Nat.pow_pos (by decide)
  have hmod := Nat.mod_lt word hpos
  have hdouble : 2 ^ (f.fractionBits + 1) = Nat.pow 2 f.fractionBits * 2 := pow_succ _ _
  unfold significand
  split <;> omega

theorem minScale_le_scale (word : Nat) : f.minScale ≤ f.scale word := by
  unfold scale
  omega

/-- The word of a point on the grid of a scale. -/
def wordAt (s : Int) (m : Nat) : Nat :=
  (s - f.minScale).toNat * Nat.pow 2 f.fractionBits + m

/-- The word of a point stands for the point.  A point above the grid is the first of the next. -/
theorem value_wordAt (hs : f.minScale ≤ s) (hlow : s = f.minScale ∨ 2 ^ f.fractionBits ≤ m)
    (hhigh : m ≤ 2 ^ (f.fractionBits + 1)) : f.value (f.wordAt s m) = m * 2 ^ s := by
  obtain ⟨k, rfl⟩ : ∃ k : Nat, s = f.minScale + k := ⟨(s - f.minScale).toNat, by omega⟩
  have hk : (f.minScale + k - f.minScale).toNat = k := by omega
  have hone : Nat.pow 2 f.fractionBits = 2 ^ f.fractionBits := rfl
  rw [pow_succ] at hhigh
  have hpos : 0 < 2 ^ f.fractionBits := Nat.pow_pos (by decide)
  unfold value significand scale wordAt
  rw [hk, hone]
  generalize 2 ^ f.fractionBits = unit at *
  by_cases hsub : m < unit
  · have hzero : k = 0 := by omega
    subst hzero
    simp [hsub, Nat.div_eq_of_lt hsub]
  · obtain ⟨r, rfl⟩ : ∃ r, m = unit + r := ⟨m - unit, by omega⟩
    have hword : k * unit + (unit + r) = r + (k + 1) * unit := by ring
    rw [hword, if_neg (by nlinarith), Nat.add_mul_div_right _ _ hpos, Nat.add_mul_mod_self_right]
    rcases Nat.lt_or_ge r unit with hr | hr
    · rw [Nat.div_eq_of_lt hr, Nat.mod_eq_of_lt hr]
      congr 2
      omega
    · have hr' : r = unit := by omega
      have hnext : ((unit / unit + (k + 1) - 1 : Nat) : Int) = k + 1 := by
        rw [Nat.div_self hpos]
        omega
      rw [hr', Nat.mod_self, hnext, ← add_assoc, zpow_add_one₀ (by decide)]
      push_cast
      ring

/-! ### The binade of a quotient -/

theorem binaryLog_spec (hnum : 0 < num) (hden : 0 < den) :
    (2 : ℚ) ^ binaryLog num den ≤ num / den ∧ (num : ℚ) / den < 2 ^ (binaryLog num den + 1) := by
  have hposn : (0 : ℚ) < num := by exact_mod_cast hnum
  have hposd : (0 : ℚ) < den := by exact_mod_cast hden
  have hn : (2 : ℚ) ^ (num.log2 : Int) ≤ num := by
    rw [zpow_natCast]
    exact_mod_cast Nat.log2_self_le hnum.ne'
  have hn' : (num : ℚ) < 2 ^ ((num.log2 : Int) + 1) := by
    have := Nat.lt_log2_self (n := num)
    exact_mod_cast this
  have hd : (2 : ℚ) ^ (den.log2 : Int) ≤ den := by
    rw [zpow_natCast]
    exact_mod_cast Nat.log2_self_le hden.ne'
  have hd' : (den : ℚ) < 2 ^ ((den.log2 : Int) + 1) := by
    have := Nat.lt_log2_self (n := den)
    exact_mod_cast this
  -- the difference of the logarithms is right or one too great
  have hlow : (2 : ℚ) ^ ((num.log2 : Int) - den.log2 - 1) ≤ num / den := by
    rw [le_div_iff₀ hposd]
    calc (2 : ℚ) ^ ((num.log2 : Int) - den.log2 - 1) * den
        ≤ 2 ^ ((num.log2 : Int) - den.log2 - 1) * 2 ^ ((den.log2 : Int) + 1) := by gcongr
      _ = 2 ^ (num.log2 : Int) := by rw [← zpow_add₀ (by decide)]; congr 1; omega
      _ ≤ num := hn
  have hhigh : (num : ℚ) / den < 2 ^ ((num.log2 : Int) - den.log2 + 1) := by
    rw [div_lt_iff₀ hposd]
    calc (num : ℚ) < 2 ^ ((num.log2 : Int) + 1) := hn'
      _ = 2 ^ ((num.log2 : Int) - den.log2 + 1) * 2 ^ (den.log2 : Int) := by
          rw [← zpow_add₀ (by decide)]; congr 1; omega
      _ ≤ 2 ^ ((num.log2 : Int) - den.log2 + 1) * den := by gcongr
  have hcompare : num * Nat.pow 2 (-((num.log2 : Int) - den.log2)).toNat
        < den * Nat.pow 2 ((num.log2 : Int) - den.log2).toNat
      ↔ (num : ℚ) / den < 2 ^ ((num.log2 : Int) - den.log2) := by
    have hposd' : (0 : ℚ) < (den * Nat.pow 2 ((num.log2 : Int) - den.log2).toNat : Nat) := by
      exact_mod_cast Nat.mul_pos hden (Nat.pow_pos (by decide))
    rw [← Nat.cast_lt (α := ℚ), ← div_lt_one hposd', scaled_div, div_lt_one (by positivity)]
  unfold binaryLog
  dsimp only
  split
  next hless => exact ⟨hlow, by rw [sub_add_cancel]; exact hcompare.mp hless⟩
  next hless => exact ⟨not_lt.mp (mt hcompare.mpr hless), hhigh⟩

/-! ### Rounding to the grid -/

/-- The point `m` on the grid of the scale `s` is nearest to the number, and the grid is the one
of its binade. -/
structure IsNearest (q : ℚ) (s : Int) (m : Nat) : Prop where
  minScale_le : f.minScale ≤ s
  le : s = f.minScale ∨ 2 ^ f.fractionBits * 2 ^ s ≤ q
  lt : q < 2 ^ (f.fractionBits + 1) * 2 ^ s
  near : |m * 2 ^ s - q| ≤ 2 ^ s / 2
  /-- The bounds of the binade bound the point. -/
  le_point : s = f.minScale ∨ 2 ^ f.fractionBits ≤ m
  point_le : m ≤ 2 ^ (f.fractionBits + 1)
  /-- A number on the grid is its own point. -/
  point_eq : ∀ k : Nat, q = k * 2 ^ s → m = k

theorem exists_isNearest (hnum : 0 < num) (hden : 0 < den) :
    ∃ s m, f.IsNearest ((num : ℚ) / den) s m
      ∧ f.nearest num den = min (f.wordAt s m) f.infinity := by
  obtain ⟨hlow, hhigh⟩ := binaryLog_spec hnum hden
  let s : Int := max (binaryLog num den - f.fractionBits) f.minScale
  let den' := den * Nat.pow 2 s.toNat
  have hden' : 0 < den' := Nat.mul_pos hden (Nat.pow_pos (by decide))
  have hposd : (0 : ℚ) < den' := by exact_mod_cast hden'
  have hscaled := scaled_div num den s
  have hpow : (0 : ℚ) < 2 ^ s := by positivity
  have hle : s = f.minScale ∨ (2 : ℚ) ^ f.fractionBits * 2 ^ s ≤ num / den := by
    rcases le_total (binaryLog num den - f.fractionBits) f.minScale with h | h
    · exact .inl (max_eq_right h)
    · refine .inr ?_
      have hs : s = binaryLog num den - f.fractionBits := max_eq_left h
      rw [hs, ← zpow_natCast, ← zpow_add₀ (by decide), add_sub_cancel]
      exact hlow
  have hlt : (num : ℚ) / den < 2 ^ (f.fractionBits + 1) * 2 ^ s := by
    refine lt_of_lt_of_le hhigh ?_
    rw [← zpow_natCast, ← zpow_add₀ (by decide)]
    refine zpow_le_zpow_right₀ (by decide) ?_
    have : binaryLog num den - f.fractionBits ≤ s := le_max_left _ _
    push_cast
    omega
  refine ⟨s, divHalfEven (num * Nat.pow 2 (-s).toNat) den',
    ⟨le_max_right _ _, hle, hlt, ?_, ?_, ?_, ?_⟩, ?_⟩
  · have hnear : |(divHalfEven (num * Nat.pow 2 (-s).toNat) den' : ℚ)
        - (num * Nat.pow 2 (-s).toNat : Nat) / den'| ≤ 1 / 2 := divHalfEven_near hden'
    rw [hscaled] at hnear
    have hstep : (divHalfEven (num * Nat.pow 2 (-s).toNat) den' : ℚ) * 2 ^ s - num / den
        = (divHalfEven (num * Nat.pow 2 (-s).toNat) den' - num / den / 2 ^ s) * 2 ^ s := by
      rw [sub_mul, div_mul_cancel₀ _ hpow.ne']
    rw [hstep, abs_mul, abs_of_pos hpow]
    calc _ ≤ 1 / 2 * (2 : ℚ) ^ s := by gcongr
      _ = 2 ^ s / 2 := by ring
  · refine hle.imp_right fun h => le_divHalfEven_of_le hden' ?_
    rw [← Nat.cast_le (α := ℚ), Nat.cast_mul, ← le_div_iff₀ hposd, hscaled, le_div_iff₀ hpow]
    exact_mod_cast h
  · refine divHalfEven_le_of_le hden' ?_
    rw [← Nat.cast_le (α := ℚ), Nat.cast_mul (2 ^ _), ← div_le_iff₀ hposd, hscaled,
      div_le_iff₀ hpow]
    exact_mod_cast hlt.le
  · intro k hk
    have hmul : num * Nat.pow 2 (-s).toNat = k * den' := by
      rw [← Nat.cast_inj (R := ℚ), Nat.cast_mul k, ← div_eq_iff hposd.ne', hscaled, hk,
        mul_div_cancel_right₀ _ hpow.ne']
    rw [hmul, divHalfEven_mul k den' hden']
  · unfold nearest
    rw [if_neg hnum.ne']
    rfl

variable {f}

/-- A number of normal size is missed by half a unit of the last place at most. -/
theorem IsNearest.near_of_normal (h : f.IsNearest q s m)
    (hnormal : 2 ^ f.fractionBits * 2 ^ f.minScale ≤ q) :
    |m * 2 ^ s - q| ≤ q / 2 ^ (f.fractionBits + 1) := by
  have hunit : 2 ^ f.fractionBits * 2 ^ s ≤ q := by
    rcases h.le with hs | hle
    · rwa [hs]
    · exact hle
  refine h.near.trans ?_
  rw [div_le_div_iff₀ (by decide) (by positivity), pow_succ]
  linarith

/-- The scale of a number on a grid is none coarser. -/
theorem IsNearest.scale_le {c : Nat} {k : Int} (h : f.IsNearest q s m) (hq : q = c * 2 ^ k)
    (hc : c < 2 ^ (f.fractionBits + 1)) (hk : f.minScale ≤ k) : s ≤ k := by
  rcases h.le with hs | hle
  · rwa [hs]
  · have hcq : (c : ℚ) < 2 ^ (f.fractionBits + 1) := by exact_mod_cast hc
    have hpow : (2 : ℚ) ^ f.fractionBits * 2 ^ s < 2 ^ f.fractionBits * 2 ^ (k + 1) := by
      calc (2 : ℚ) ^ f.fractionBits * 2 ^ s ≤ c * 2 ^ k := hq ▸ hle
        _ < 2 ^ (f.fractionBits + 1) * 2 ^ k := by gcongr
        _ = 2 ^ f.fractionBits * 2 ^ (k + 1) := by rw [pow_succ, zpow_add_one₀ (by decide)]; ring
    have hscale := (zpow_lt_zpow_iff_right₀ (by decide)).mp
      (lt_of_mul_lt_mul_left hpow (by positivity))
    omega

/-- A number of the format is its own nearest. -/
theorem IsNearest.eq_of_grid {c : Nat} {k : Int} (h : f.IsNearest q s m) (hq : q = c * 2 ^ k)
    (hc : c < 2 ^ (f.fractionBits + 1)) (hk : f.minScale ≤ k) : m * 2 ^ s = q := by
  obtain ⟨j, rfl⟩ : ∃ j : Nat, k = s + j :=
    ⟨(k - s).toNat, by have := h.scale_le hq hc hk; omega⟩
  have hpoint : q = (c * 2 ^ j : Nat) * 2 ^ s := by
    rw [hq, zpow_add₀ (by decide), zpow_natCast]
    push_cast
    ring
  rw [h.point_eq _ hpoint, ← hpoint]

end BinaryFormat

end SqlSession
