/-
How exactly numbers of JSON are read.

A number with a point is not rounded once.  As many of its digits as fit an unsigned word are taken
and the others dropped, the word becomes a double, and so does the power of ten that it is brought
to its places with.  Each of the three steps is a rounding, and what is dropped is far less than
one of them.  So the double that is read is off by less than four roundings, one part in 2^51:
`exists_toBinary64?`.

Where nothing is dropped and the word and the power of ten are doubles themselves, only one of the
roundings is left, and the double is the number rounded once.

Only literals without an exponent are looked at, and only up to 30 digits on each side of the
point, which is more than decimals have.
-/
import SqlSession.Json.Reading
import SqlSession.Proofs.Number.DoubleValue
import SqlSession.Proofs.Text.Digits

namespace SqlSession

open DecimalLiteral (natOfDigits)

/-! ### Several roundings -/

/-- The factor by which one rounding to 53 binary digits can change a number. -/
def oneRounding : ℚ :=
  2 ^ 53 / (2 ^ 53 - 1)

/-- `x` is what is left of `q` after `k` roundings. -/
structure WithinRoundings (k : Nat) (x q : ℚ) : Prop where
  le : x ≤ q * oneRounding ^ k
  ge : q ≤ x * oneRounding ^ k

namespace WithinRoundings

variable {i k : Nat} {x y p q : ℚ}

theorem oneRounding_pos : 0 < oneRounding := by
  norm_num [oneRounding]

theorem of_near (hq : 0 ≤ q) (h : |x - q| ≤ q / 2 ^ 53) : WithinRoundings 1 x q := by
  obtain ⟨habove, hbelow⟩ := abs_sub_le_iff.mp h
  constructor
  · unfold oneRounding
    linarith
  · unfold oneRounding
    linarith

theorem pos (h : WithinRoundings k x q) (hq : 0 < q) : 0 < x :=
  (mul_pos_iff_of_pos_right (pow_pos oneRounding_pos k)).mp (hq.trans_le h.2)

theorem trans (h : WithinRoundings i x p) (h' : WithinRoundings k p q) :
    WithinRoundings (i + k) x q := by
  have hpos : 0 ≤ oneRounding ^ i := (pow_pos oneRounding_pos i).le
  have hpos' : 0 ≤ oneRounding ^ k := (pow_pos oneRounding_pos k).le
  constructor
  · calc x ≤ p * oneRounding ^ i := h.1
      _ ≤ q * oneRounding ^ k * oneRounding ^ i := by gcongr; exact h'.1
      _ = q * oneRounding ^ (i + k) := by ring
  · calc q ≤ p * oneRounding ^ k := h'.2
      _ ≤ x * oneRounding ^ i * oneRounding ^ k := by gcongr; exact h.2
      _ = x * oneRounding ^ (i + k) := by ring

theorem mul (hx : 0 ≤ x) (hp : 0 ≤ p) (hy : 0 ≤ y) (hq : 0 ≤ q) (h : WithinRoundings i x p)
    (h' : WithinRoundings k y q) : WithinRoundings (i + k) (x * y) (p * q) := by
  have hpos : 0 ≤ oneRounding ^ i := (pow_pos oneRounding_pos i).le
  constructor
  · calc x * y ≤ (p * oneRounding ^ i) * (q * oneRounding ^ k) :=
          mul_le_mul h.1 h'.1 hy (by positivity)
      _ = p * q * oneRounding ^ (i + k) := by ring
  · calc p * q ≤ (x * oneRounding ^ i) * (y * oneRounding ^ k) :=
          mul_le_mul h.2 h'.2 hq (by positivity)
      _ = x * y * oneRounding ^ (i + k) := by ring

theorem inv (hy : 0 < y) (hq : 0 < q) (h : WithinRoundings k y q) : WithinRoundings k y⁻¹ q⁻¹ := by
  have hpos : 0 < oneRounding ^ k := pow_pos oneRounding_pos k
  constructor
  · rw [← div_eq_inv_mul, inv_le_iff_one_le_mul₀ hy, div_mul_eq_mul_div, le_div_iff₀ hq, one_mul,
      mul_comm]
    exact h.2
  · rw [← div_eq_inv_mul, inv_le_iff_one_le_mul₀ hq, div_mul_eq_mul_div, le_div_iff₀ hy, one_mul,
      mul_comm]
    exact h.1

theorem div (hx : 0 ≤ x) (hp : 0 ≤ p) (hy : 0 < y) (hq : 0 < q) (h : WithinRoundings i x p)
    (h' : WithinRoundings k y q) : WithinRoundings (i + k) (x / y) (p / q) := by
  rw [div_eq_mul_inv, div_eq_mul_inv]
  exact mul hx hp (inv_nonneg.mpr hy.le) (inv_nonneg.mpr hq.le) h (inv hy hq h')

/-- Two roundings do not lead out of the range of the doubles. -/
theorem normal_of_two (h : WithinRoundings 2 x q) (hlow : 1 / 10 ^ 30 ≤ q) (hhigh : q ≤ 10 ^ 50) :
    2 ^ (-1022 : Int) ≤ x ∧ x < 2 ^ 1023 := by
  obtain ⟨hxq, hqx⟩ := h
  norm_num [oneRounding] at hxq hqx
  constructor
  · calc (2 : ℚ) ^ (-1022 : Int) ≤ 2 ^ (-101 : Int) := zpow_le_zpow_right₀ (by decide) (by decide)
      _ ≤ x := by norm_num; linarith
  · calc x < 2 ^ 168 := by linarith
      _ ≤ 2 ^ 1023 := pow_le_pow_right₀ (by decide) (by decide)

/-- Three roundings of a number that is right up to one part in 2^60. -/
theorem near_of_three (hq : 0 ≤ q) (h : WithinRoundings 3 x p) (hp : |p - q| ≤ q / 2 ^ 60) :
    |x - q| ≤ q / 2 ^ 51 := by
  obtain ⟨hxp, hpx⟩ := h
  obtain ⟨habove, hbelow⟩ := abs_sub_le_iff.mp hp
  norm_num [oneRounding] at hxp hpx
  rw [abs_sub_le_iff]
  constructor <;> linarith

end WithinRoundings

/-! ### The digits that are taken -/

namespace Json.NumberLiteral

variable {n : NumberLiteral} {cs : List Char} {word : Nat} {E : Int}

/-- The digits are split where the word is full. -/
theorem exists_takeWord (hcs : ∀ c ∈ cs, c.isDigit = true) (hword : word < 0x10000000000000000) :
    ∃ taken dropped,
      takeWord word cs = (word * 10 ^ taken.length + natOfDigits taken, dropped)
        ∧ cs = taken ++ dropped
        ∧ word * 10 ^ taken.length + natOfDigits taken < 0x10000000000000000
        ∧ (dropped ≠ [] → 2 ^ 60 ≤ word * 10 ^ taken.length + natOfDigits taken) := by
  induction cs generalizing word with
  | nil => exact ⟨[], [], by simp [takeWord, natOfDigits], rfl, by simpa [natOfDigits], nofun⟩
  | cons c cs ih =>
      have hdigit := Text.digit_le_nine (hcs c (List.mem_cons_self ..))
      by_cases hroom : word * 10 + (c.toNat - 48) < 0x10000000000000000
      · obtain ⟨taken, dropped, htake, hsplit, hlt, hfull⟩ :=
          ih (fun c' hc' => hcs c' (List.mem_cons_of_mem _ hc')) hroom
        have hmoved := Text.behind_cons word c taken
        refine ⟨c :: taken, dropped, ?_, ?_, ?_, ?_⟩
        · rw [hmoved, takeWord]
          rw [if_pos hroom, htake]
        · rw [hsplit, List.cons_append]
        · rw [hmoved]
          exact hlt
        · rw [hmoved]
          exact hfull
      · refine ⟨[], c :: cs, ?_, rfl, by simpa [natOfDigits], ?_⟩
        · rw [takeWord]
          rw [if_neg hroom]
          simp [natOfDigits]
        · intro _
          simp only [List.length_nil, pow_zero, Nat.mul_one, natOfDigits, List.foldl_nil]
          omega

/-- Nothing is dropped of what fits. -/
theorem takeWord_of_lt (h : word * 10 ^ cs.length + natOfDigits cs < 0x10000000000000000) :
    takeWord word cs = (word * 10 ^ cs.length + natOfDigits cs, []) := by
  induction cs generalizing word with
  | nil => simp [takeWord, natOfDigits]
  | cons c cs ih =>
      rw [Text.behind_cons] at h ⊢
      have hroom : word * 10 + (c.toNat - 48) < 0x10000000000000000 :=
        Nat.lt_of_le_of_lt (Text.le_behind _ cs) h
      rw [takeWord, if_pos hroom, ih h]

/-- All the digits as one number. -/
def mantissa (n : NumberLiteral) : Nat :=
  natOfDigits (n.whole ++ n.fraction.getD [])

/-- How many digits stand behind the point. -/
def places (n : NumberLiteral) : Nat :=
  (n.fraction.getD []).length

/-- The magnitude of a literal without an exponent. -/
def size (n : NumberLiteral) : ℚ :=
  n.mantissa / 10 ^ n.places

theorem mantissa_eq (n : NumberLiteral) :
    n.mantissa = natOfDigits n.whole * 10 ^ n.places + natOfDigits (n.fraction.getD []) :=
  Text.natOfDigits_append _ _

theorem size_eq (n : NumberLiteral) :
    n.size = natOfDigits n.whole + natOfDigits (n.fraction.getD []) / 10 ^ n.places := by
  have hpos : (10 : ℚ) ^ n.places ≠ 0 := by positivity
  rw [size, mantissa_eq]
  push_cast
  rw [add_div, mul_div_cancel_right₀ _ hpos]

/-- What stands behind 60 leading bits does not count much. -/
theorem near_of_leading {lead : Nat} {σ τ unit : ℚ} (hlead : 2 ^ 60 ≤ lead) (hσ : 0 ≤ σ)
    (hσ' : σ < 1) (hτ : 0 ≤ τ) (hτ' : τ < 1) (hunit : 0 < unit) :
    |(lead + τ) * unit - (lead + σ) * unit| ≤ (lead + σ) * unit / 2 ^ 60 := by
  have hcast : (2 : ℚ) ^ 60 ≤ lead := by exact_mod_cast hlead
  have hone : |τ - σ| ≤ 1 := abs_sub_le_iff.mpr ⟨by linarith, by linarith⟩
  have hstep : (lead + τ) * unit - (lead + σ) * unit = (τ - σ) * unit := by ring
  rw [hstep, abs_mul, abs_of_pos hunit, le_div_iff₀ (by positivity)]
  calc |τ - σ| * unit * 2 ^ 60 ≤ 1 * unit * lead := by gcongr
    _ ≤ (lead + σ) * unit := by nlinarith

/-- Digits as places behind a point. -/
theorem behind_point (h : ∀ c ∈ cs, c.isDigit = true) :
    (0 : ℚ) ≤ natOfDigits cs / 10 ^ cs.length ∧ (natOfDigits cs : ℚ) / 10 ^ cs.length < 1 := by
  have hlt : (natOfDigits cs : ℚ) < 10 ^ cs.length := by exact_mod_cast Text.natOfDigits_lt h
  exact ⟨by positivity, (div_lt_one (by positivity)).mpr hlt⟩

/-- The word ends behind the point, if anything is dropped at all. -/
theorem near_of_dropped_places {taken dropped : List Char}
    (hsplit : n.fraction.getD [] = taken ++ dropped) (hdropped : ∀ c ∈ dropped, c.isDigit = true)
    (hfull : dropped ≠ [] →
      2 ^ 60 ≤ natOfDigits n.whole * 10 ^ taken.length + natOfDigits taken) :
    |((natOfDigits n.whole * 10 ^ taken.length + natOfDigits taken : Nat) : ℚ)
        * (1 / 10 ^ taken.length) - n.size| ≤ n.size / 2 ^ 60 := by
  obtain ⟨hσ, hσ'⟩ := behind_point hdropped
  have hsize : n.size = ((natOfDigits n.whole * 10 ^ taken.length + natOfDigits taken : Nat)
      + (natOfDigits dropped : ℚ) / 10 ^ dropped.length) * (1 / 10 ^ taken.length) := by
    rw [size_eq, places, hsplit, Text.natOfDigits_append, List.length_append, pow_add]
    push_cast
    field_simp
    ring
  rw [hsize]
  by_cases hall : dropped = []
  · have hzero : (natOfDigits dropped : ℚ) / 10 ^ dropped.length = 0 := by simp [hall, natOfDigits]
    rw [hzero, add_zero, sub_self, abs_zero]
    positivity
  · have hnear := near_of_leading (hfull hall) hσ hσ' le_rfl one_pos
      (show (0 : ℚ) < 1 / 10 ^ taken.length by positivity)
    rwa [add_zero] at hnear

/-- Digits before the point are dropped; what is taken behind it then stands in a wrong place, but
far behind the others. -/
theorem near_of_dropped_whole {lead dropped taken : List Char} (hsplit : n.whole = lead ++ dropped)
    (hdropped : ∀ c ∈ dropped, c.isDigit = true) (htaken : ∀ c ∈ taken, c.isDigit = true)
    (hfraction : ∀ c ∈ n.fraction.getD [], c.isDigit = true) (hfull : 2 ^ 60 ≤ natOfDigits lead) :
    |((natOfDigits lead * 10 ^ taken.length + natOfDigits taken : Nat) : ℚ)
        * (10 ^ dropped.length / 10 ^ taken.length) - n.size| ≤ n.size / 2 ^ 60 := by
  obtain ⟨hτ, hτ'⟩ := behind_point htaken
  obtain ⟨hφ, hφ'⟩ := behind_point hfraction
  have hroom : (natOfDigits dropped : ℚ) + 1 ≤ 10 ^ dropped.length := by
    exact_mod_cast Text.natOfDigits_lt hdropped
  have hsize : n.size = (natOfDigits lead + (natOfDigits dropped
      + (natOfDigits (n.fraction.getD []) : ℚ) / 10 ^ n.places) / 10 ^ dropped.length)
        * 10 ^ dropped.length := by
    rw [size_eq, hsplit, Text.natOfDigits_append, add_mul, div_mul_cancel₀ _ (by positivity)]
    push_cast
    ring
  have hword : ((natOfDigits lead * 10 ^ taken.length + natOfDigits taken : Nat) : ℚ)
      * (10 ^ dropped.length / 10 ^ taken.length)
      = (natOfDigits lead + (natOfDigits taken : ℚ) / 10 ^ taken.length) * 10 ^ dropped.length := by
    push_cast
    field_simp
  rw [hword, hsize]
  refine near_of_leading hfull (by positivity) ?_ hτ hτ' (by positivity)
  rw [div_lt_one (by positivity)]
  exact lt_of_lt_of_le (add_lt_add_of_le_of_lt le_rfl hφ') hroom

/-- All the digits are taken where they fit the word. -/
theorem takeWord_of_mantissa_lt (hroom : n.mantissa < 0x10000000000000000) :
    takeWord 0 n.whole = (natOfDigits n.whole, [])
      ∧ takeWord (natOfDigits n.whole) (n.fraction.getD []) = (n.mantissa, []) := by
  rw [mantissa_eq] at hroom ⊢
  have hwhole : natOfDigits n.whole < 0x10000000000000000 :=
    Nat.lt_of_le_of_lt (Text.le_behind _ (n.fraction.getD [])) hroom
  have hfirst := takeWord_of_lt
    (show 0 * 10 ^ n.whole.length + natOfDigits n.whole < 0x10000000000000000 by simpa)
  rw [Nat.zero_mul, Nat.zero_add] at hfirst
  exact ⟨hfirst, takeWord_of_lt hroom⟩

/-- The word and the power of ten that are taken for a literal. -/
theorem exists_scaled (hexp : n.exponent = none) (hwhole : ∀ c ∈ n.whole, c.isDigit = true)
    (hfraction : ∀ c ∈ n.fraction.getD [], c.isDigit = true) :
    ∃ (word : Nat) (E : Int),
      n.toBinary64? = (scaled? word E).map (fun x => if n.negative then x.neg else x)
        ∧ word < 0x10000000000000000 ∧ -(n.places : Int) ≤ E ∧ E ≤ n.whole.length
        ∧ |word * (10 : ℚ) ^ E - n.size| ≤ n.size / 2 ^ 60
        ∧ (n.mantissa < 0x10000000000000000 → word = n.mantissa ∧ E = -n.places) := by
  obtain ⟨t, r, htake, hsplit, hlt, hfull⟩ :=
    exists_takeWord hwhole (show 0 < 0x10000000000000000 by decide)
  rw [Nat.zero_mul, Nat.zero_add] at htake hlt hfull
  obtain ⟨t', r', htake', hsplit', hlt', hfull'⟩ := exists_takeWord hfraction hlt
  have htaken : (n.fraction.getD []).length - r'.length = t'.length := by
    rw [hsplit', List.length_append, Nat.add_sub_cancel]
  have hplaces : n.places = t'.length + r'.length := by
    rw [places, hsplit', List.length_append]
  have hlength : n.whole.length = t.length + r.length := by
    rw [hsplit, List.length_append]
  have hunit : (10 : ℚ) ^ ((r.length : Int) - t'.length) = 10 ^ r.length / 10 ^ t'.length := by
    rw [zpow_sub₀ (by decide), zpow_natCast, zpow_natCast]
  refine ⟨natOfDigits t * 10 ^ t'.length + natOfDigits t', r.length - t'.length, ?_, hlt',
    by omega, by omega, ?_, ?_⟩
  · unfold toBinary64?
    simp only [htake, htake', htaken, hexp, add_zero]
  · rw [hunit]
    by_cases hnone : r = []
    · have hwholeTaken : n.whole = t := by rw [hsplit, hnone, List.append_nil]
      rw [hnone, List.length_nil, pow_zero, ← hwholeTaken]
      exact near_of_dropped_places hsplit'
        (fun c hc => hfraction c (hsplit' ▸ List.mem_append_right t' hc)) (hwholeTaken ▸ hfull')
    · exact near_of_dropped_whole hsplit
        (fun c hc => hwhole c (hsplit ▸ List.mem_append_right t hc))
        (fun c hc => hfraction c (hsplit' ▸ List.mem_append_left r' hc)) hfraction (hfull hnone)
  · intro hroom
    obtain ⟨hfirst, hsecond⟩ := takeWord_of_mantissa_lt hroom
    rw [htake, Prod.mk.injEq] at hfirst
    obtain ⟨hvalue, rfl⟩ := hfirst
    rw [← hvalue, htake', Prod.mk.injEq] at hsecond
    obtain ⟨hvalue', rfl⟩ := hsecond
    rw [List.length_nil, Nat.add_zero] at hplaces
    exact ⟨hvalue', by rw [hplaces]; simp⟩

end Json.NumberLiteral

/-! ### The double of a word and a power of ten -/

namespace Binary64

theorem isRounded_ofNat {n : Nat} (hpos : 0 < n) (hn : n ≤ 10 ^ 30) :
    (ofNat n).isNegative = false ∧ (ofNat n).IsRounded n := by
  have hone : (1 : ℚ) ≤ n := by exact_mod_cast hpos
  have hcast : (n : ℚ) ≤ 10 ^ 30 := by exact_mod_cast hn
  have hquotient : (n : ℚ) / (1 : Nat) = n := by rw [Nat.cast_one, div_one]
  have hlow : (2 : ℚ) ^ (-1022 : Int) ≤ n / (1 : Nat) := by
    rw [hquotient]
    exact le_trans (zpow_le_one_of_nonpos₀ (by decide) (by decide)) hone
  have hhigh : (n : ℚ) / (1 : Nat) < 2 ^ 1023 := by
    rw [hquotient]
    exact lt_of_le_of_lt hcast (lt_of_lt_of_le (by norm_num : (10 : ℚ) ^ 30 < 2 ^ 100)
      (pow_le_pow_right₀ (by decide) (by decide)))
  have hrounded := isRounded_ofRatio false Nat.one_pos (.inr hlow) hhigh
  rw [if_neg Bool.false_ne_true, hquotient] at hrounded
  exact ⟨isNegative_ofRatio _ _ _, hrounded⟩

/-- A whole number and its double. -/
theorem size_ofNat {n : Nat} (hpos : 0 < n) (hn : n ≤ 10 ^ 30) :
    WithinRoundings 1 (ofNat n).size n ∧ ((ofNat n).size = n ↔ FitsDouble n) := by
  obtain ⟨hsign, hrounded⟩ := isRounded_ofNat hpos hn
  have habs : |(n : ℚ)| = n := abs_of_nonneg (Nat.cast_nonneg n)
  have hnear := hrounded.near
  have heq := hrounded.eq_iff
  rw [value_of_not_negative hsign, habs] at hnear heq
  exact ⟨.of_near (Nat.cast_nonneg n) hnear, heq⟩

/-- Powers of ten up to the 22nd are doubles. -/
theorem fitsDouble_tenPow {k : Nat} (hk : k ≤ 22) : FitsDouble (10 ^ k : Nat) := by
  refine fitsDouble_natCast_iff.mpr ⟨5 ^ k, k, by rw [← Nat.mul_pow], ?_⟩
  exact Nat.lt_of_le_of_lt (Nat.pow_le_pow_right (by decide) hk) (by decide)

theorem fitsDouble_of_le {n : Nat} (hn : n ≤ 2 ^ 53) : FitsDouble n := by
  refine fitsDouble_natCast_iff.mpr ?_
  rcases Nat.eq_or_lt_of_le hn with rfl | hlt
  · exact ⟨1, 53, rfl, by decide⟩
  · exact ⟨n, 0, by simp, hlt⟩

end Binary64

namespace Json.NumberLiteral

variable {n : NumberLiteral} {word : Nat} {E : Int}

/-- The double is a number rounded once that is itself two roundings away from `q`, or none. -/
structure IsScaled (x : Binary64) (q : ℚ) (exact : Prop) : Prop where
  isNegative : x.isNegative = false
  rounded : ∃ y, x.IsRounded y ∧ WithinRoundings 2 y q ∧ (exact → y = q)

variable {k : Nat}

/-- A power of ten and its double. -/
theorem tenPow_spec (hk : k ≤ 30) :
    (1 : ℚ) ≤ 10 ^ k ∧ (10 : ℚ) ^ k ≤ 10 ^ 30 ∧ (Binary64.tenPow k).isNegative = false
      ∧ WithinRoundings 1 (Binary64.tenPow k).size (10 ^ k)
      ∧ (k ≤ 22 → (Binary64.tenPow k).size = 10 ^ k) := by
  have hpos : 0 < 10 ^ k := Nat.pow_pos (by decide)
  have hle : 10 ^ k ≤ 10 ^ 30 := Nat.pow_le_pow_right (by decide) hk
  obtain ⟨hnear, hexact⟩ := Binary64.size_ofNat hpos hle
  have hcast : ((10 ^ k : Nat) : ℚ) = 10 ^ k := by push_cast; rfl
  rw [hcast] at hnear
  refine ⟨one_le_pow₀ (by decide), pow_le_pow_right₀ (by decide) hk,
    (Binary64.isRounded_ofNat hpos hle).1, hnear, fun hsmall => ?_⟩
  exact (hexact.mpr (Binary64.fitsDouble_tenPow hsmall)).trans hcast

/-- A word and its double. -/
theorem word_spec (hpos : 0 < word) (hword : word < 0x10000000000000000) :
    (1 : ℚ) ≤ word ∧ (word : ℚ) ≤ 10 ^ 20 ∧ (Binary64.ofNat word).isNegative = false
      ∧ WithinRoundings 1 (Binary64.ofNat word).size word
      ∧ (word ≤ 2 ^ 53 → (Binary64.ofNat word).size = word) := by
  have hle : word ≤ 10 ^ 20 := hword.le.trans (by decide)
  obtain ⟨hnear, hexact⟩ := Binary64.size_ofNat hpos (hle.trans (by decide))
  exact ⟨by exact_mod_cast hpos, by exact_mod_cast hle,
    (Binary64.isRounded_ofNat hpos (hle.trans (by decide))).1, hnear,
    fun hsmall => hexact.mpr (Binary64.fitsDouble_of_le hsmall)⟩

/-- A power of ten is multiplied in. -/
theorem exists_scaled?_up (hpos : 0 < word) (hword : word < 0x10000000000000000) (hk : k ≤ 30) :
    ∃ x, scaled? word k = some x ∧ IsScaled x (word * 10 ^ k) (word ≤ 2 ^ 53 ∧ k ≤ 22) := by
  obtain ⟨hone, hhigh, hsign, hnear, hexact⟩ := word_spec hpos hword
  obtain ⟨hone', hhigh', hsign', hnear', hexact'⟩ := tenPow_spec hk
  have hnonneg : (0 : ℚ) ≤ word := zero_le_one.trans hone
  have hnonneg' : (0 : ℚ) ≤ 10 ^ k := zero_le_one.trans hone'
  have hproduct : WithinRoundings 2 ((Binary64.ofNat word).size * (Binary64.tenPow k).size)
      (word * 10 ^ k) :=
    .mul (Binary64.size_nonneg _) hnonneg (Binary64.size_nonneg _) hnonneg' hnear hnear'
  obtain ⟨hlow, hlt⟩ := hproduct.normal_of_two
    (le_trans (by norm_num) (one_le_mul_of_one_le_of_one_le hone hone'))
    (le_trans (mul_le_mul hhigh hhigh' hnonneg' (by norm_num)) (by norm_num))
  obtain ⟨hpositive, hrounded⟩ := Binary64.isRounded_mul hsign hsign' hlow hlt
  refine ⟨(Binary64.ofNat word).mul (Binary64.tenPow k), ?_,
    ⟨hpositive, _, hrounded, hproduct, fun h => ?_⟩⟩
  · unfold scaled?
    rw [if_neg (by omega), if_pos (by omega), Int.toNat_natCast]
    exact if_pos hrounded.finite
  · rw [hexact h.1, hexact' h.2]

/-- A power of ten is divided out. -/
theorem exists_scaled?_down (hpos : 0 < word) (hword : word < 0x10000000000000000) (hkpos : 0 < k)
    (hk : k ≤ 30) :
    ∃ x, scaled? word (-k) = some x ∧ IsScaled x (word / 10 ^ k) (word ≤ 2 ^ 53 ∧ k ≤ 22) := by
  obtain ⟨hone, hhigh, hsign, hnear, hexact⟩ := word_spec hpos hword
  obtain ⟨hone', hhigh', hsign', hnear', hexact'⟩ := tenPow_spec hk
  have hnonneg : (0 : ℚ) ≤ word := zero_le_one.trans hone
  have htenPos : (0 : ℚ) < 10 ^ k := zero_lt_one.trans_le hone'
  have hsizePos : 0 < (Binary64.tenPow k).size := hnear'.pos htenPos
  have hquotient : WithinRoundings 2 ((Binary64.ofNat word).size / (Binary64.tenPow k).size)
      (word / 10 ^ k) :=
    .div (Binary64.size_nonneg _) hnonneg hsizePos htenPos hnear hnear'
  obtain ⟨hlow, hlt⟩ := hquotient.normal_of_two
    (div_le_div₀ hnonneg hone htenPos hhigh')
    (le_trans (div_le_self hnonneg hone') (le_trans hhigh (by norm_num)))
  obtain ⟨hpositive, hrounded⟩ := Binary64.isRounded_div hsign hsign' hsizePos hlow hlt
  refine ⟨(Binary64.ofNat word).div (Binary64.tenPow k), ?_,
    ⟨hpositive, _, hrounded, hquotient, fun h => ?_⟩⟩
  · unfold scaled? lowered
    rw [if_pos (by omega), Int.natAbs_neg, Int.natAbs_natCast, if_pos (by omega)]
  · rw [hexact h.1, hexact' h.2]

theorem exists_scaled? (hpos : 0 < word) (hword : word < 0x10000000000000000) (hE : E.natAbs ≤ 30) :
    ∃ x, scaled? word E = some x
      ∧ IsScaled x (word * 10 ^ E) (word ≤ 2 ^ 53 ∧ E.natAbs ≤ 22) := by
  obtain ⟨k, rfl | rfl⟩ := E.eq_nat_or_neg
  · rw [Int.natAbs_natCast] at hE ⊢
    rw [zpow_natCast]
    exact exists_scaled?_up hpos hword hE
  · rw [Int.natAbs_neg, Int.natAbs_natCast] at hE ⊢
    rcases Nat.eq_zero_or_pos k with rfl | hk
    · have hup := exists_scaled?_up hpos hword hE
      simpa using hup
    · rw [zpow_neg, zpow_natCast, ← div_eq_mul_inv]
      exact exists_scaled?_down hpos hword hk hE

/-! ### The double of a literal -/

/-- The number that a literal without an exponent stands for. -/
def value (n : NumberLiteral) : ℚ :=
  if n.negative then -n.size else n.size

theorem size_nonneg (n : NumberLiteral) : 0 ≤ n.size :=
  div_nonneg (Nat.cast_nonneg _) (pow_nonneg (by decide) _)

theorem abs_value (n : NumberLiteral) : |n.value| = n.size := by
  unfold value
  split
  · rw [abs_neg, abs_of_nonneg n.size_nonneg]
  · exact abs_of_nonneg n.size_nonneg

/-- **A number of JSON without an exponent** is read as a double that is off by at most one part
in 2^51, and is rounded only once where its digits and its places are few. -/
theorem exists_toBinary64? (hexp : n.exponent = none) (hwhole : ∀ c ∈ n.whole, c.isDigit = true)
    (hfraction : ∀ c ∈ n.fraction.getD [], c.isDigit = true) (hpos : 0 < n.mantissa)
    (hlength : n.whole.length ≤ 30) (hplaces : n.places ≤ 30) :
    ∃ x, n.toBinary64? = some x ∧ x.isFinite = true ∧ |x.value - n.value| ≤ |n.value| / 2 ^ 51
      ∧ (n.mantissa ≤ 2 ^ 53 → n.places ≤ 22 → x.IsRounded n.value) := by
  obtain ⟨word, E, hread, hword, hlow, hhigh, hnear, hexact⟩ := exists_scaled hexp hwhole hfraction
  have hsize : 0 < n.size :=
    div_pos (by exact_mod_cast hpos) (pow_pos (by decide) _)
  have hwordPos : 0 < word := by
    refine Nat.pos_of_ne_zero fun hzero => ?_
    rw [hzero, Nat.cast_zero, zero_mul, zero_sub, abs_neg, abs_of_pos hsize] at hnear
    linarith
  obtain ⟨x, hx, hsign, y, hrounded, htwo, hy⟩ := exists_scaled? hwordPos hword (E := E) (by omega)
  have hyNonneg : 0 ≤ y := by
    have htwo' : 0 < y := htwo.pos (mul_pos (by exact_mod_cast hwordPos) (zpow_pos (by decide) _))
    exact htwo'.le
  have hone : WithinRoundings 1 x.size y := by
    have := hrounded.near
    rw [Binary64.value_of_not_negative hsign, abs_of_nonneg hyNonneg] at this
    exact .of_near hyNonneg this
  have hthree : |x.size - n.size| ≤ n.size / 2 ^ 51 :=
    WithinRoundings.near_of_three n.size_nonneg (hone.trans htwo) hnear
  have honce (hm : n.mantissa ≤ 2 ^ 53) (hp : n.places ≤ 22) : x.IsRounded n.size := by
    obtain ⟨rfl, rfl⟩ := hexact (Nat.lt_of_le_of_lt hm (by decide))
    have hvalue : y = n.size := by
      rw [hy ⟨hm, by omega⟩, zpow_neg, zpow_natCast, ← div_eq_mul_inv, size]
    exact hvalue ▸ hrounded
  rw [hread, hx, Option.map_some, abs_value]
  refine ⟨if n.negative then x.neg else x, rfl, ?_, ?_, fun hm hp => ?_⟩
  · split
    · rw [Binary64.isFinite_neg]
      exact hrounded.finite
    · exact hrounded.finite
  · unfold value
    split
    · rw [Binary64.value_neg, Binary64.value_of_not_negative hsign, neg_sub_neg, abs_sub_comm]
      exact hthree
    · rw [Binary64.value_of_not_negative hsign]
      exact hthree
  · unfold value
    split
    · exact (honce hm hp).neg
    · exact honce hm hp

end Json.NumberLiteral

end SqlSession
