/-
Decimals in records.

A record holds a decimal as a number of JSON: its digits, without the zeros at the end, are read as
one.  They always are one, so that a decimal never becomes a text there.  Integers of 64 bits,
signed or not, stay what they are; any other decimal becomes a double, and what this loses is what
`normalize_decimal_spec` is about.  The double is off by at most one part in 2^51.  It can only be
the decimal where 53 binary digits are enough for that, and where the decimal has few digits and
places itself, it then is.

Decimals of the same number become the same value.  The other way round this is so up to 15 digits:
two decimals with more of them can become the same double, as `two_decimals_with_one_record` shows.
-/
import SqlSession.Proofs.Json.Accuracy
import SqlSession.Proofs.Json.Numbers
import SqlSession.Proofs.Number.DecimalValue
import SqlSession.Value.Normal

namespace SqlSession

open DecimalLiteral (natOfDigits)
open Json (NumberLiteral)
open Text (natDigits paddedDigits)

variable {d e : Decimal} {q : ℚ}

/-- The number that a number of JSON is. -/
def JsonNumber.value : JsonNumber → ℚ
  | .int n _ _ => n
  | .double x _ => x.value

namespace Decimal

/-! ### Zeros at the end -/

/-- There are no zeros left to take off, and zero has no sign. -/
structure IsStripped (d : Decimal) : Prop where
  places : d.scale = 0 ∨ d.mantissa % 10 ≠ 0
  sign : d.negative = true → d.mantissa ≠ 0

theorem stripZeros_spec (scale mantissa : Nat) :
    (stripZeros mantissa scale).1 * 10 ^ (scale - (stripZeros mantissa scale).2) = mantissa
      ∧ ((stripZeros mantissa scale).2 = 0 ∨ (stripZeros mantissa scale).1 % 10 ≠ 0) := by
  induction scale generalizing mantissa with
  | zero => simp [stripZeros]
  | succ scale ih =>
      unfold stripZeros
      split
      next hzero =>
        obtain ⟨hvalue, hplaces⟩ := ih (mantissa / 10)
        have hle := (stripZeros_le scale (mantissa / 10)).2
        refine ⟨?_, hplaces⟩
        rw [Nat.succ_sub hle, pow_succ, ← Nat.mul_assoc, hvalue]
        exact Nat.div_mul_cancel (Nat.dvd_of_mod_eq_zero hzero)
      next hsome => exact ⟨by simp, .inr hsome⟩

theorem size_normalize (d : Decimal) : d.normalize.size = d.size := by
  obtain ⟨hvalue, -⟩ := stripZeros_spec d.scale d.mantissa
  have hle := (stripZeros_le d.scale d.mantissa).2
  have hcast : ((stripZeros d.mantissa d.scale).1 : ℚ)
      * 10 ^ (d.scale - (stripZeros d.mantissa d.scale).2) = d.mantissa := by exact_mod_cast hvalue
  show ((stripZeros d.mantissa d.scale).1 : ℚ) / 10 ^ (stripZeros d.mantissa d.scale).2 = _
  rw [size, div_eq_div_iff (by positivity) (by positivity), ← hcast, mul_assoc, ← pow_add,
    Nat.sub_add_cancel hle]

theorem mantissa_normalize_eq_zero_iff : d.normalize.mantissa = 0 ↔ d.mantissa = 0 := by
  have hsize (e : Decimal) : e.mantissa = 0 ↔ e.size = 0 := by
    rw [size, div_eq_zero_iff, or_iff_left (by positivity), Nat.cast_eq_zero]
  rw [hsize, size_normalize, ← hsize]

theorem value_normalize (d : Decimal) : d.normalize.value = d.value := by
  by_cases hzero : d.mantissa = 0
  · rw [value_of_zero hzero, value_of_zero (mantissa_normalize_eq_zero_iff.mpr hzero)]
  · have hsign : d.normalize.negative = d.negative := by
      show (d.negative && d.mantissa != 0) = d.negative
      rw [bne_iff_ne.mpr hzero, Bool.and_true]
    rw [value, value, size_normalize, hsign]

theorem isStripped_normalize (d : Decimal) : d.normalize.IsStripped where
  places := (stripZeros_spec d.scale d.mantissa).2
  sign := by
    intro hsign
    rw [ne_eq, mantissa_normalize_eq_zero_iff]
    exact bne_iff_ne.mp (Bool.and_eq_true_iff.mp hsign).2

/-- Without zeros to take off there are no more digits than any other way of writing needs. -/
theorem IsStripped.le {c s : Nat} (h : d.IsStripped) (hsize : d.size = c / 10 ^ s) :
    d.mantissa ≤ c ∧ d.scale ≤ s := by
  rw [size, div_eq_div_iff (by positivity) (by positivity)] at hsize
  have hcross : d.mantissa * 10 ^ s = c * 10 ^ d.scale := by exact_mod_cast hsize
  have hscale : d.scale ≤ s := by
    by_contra hmore
    obtain ⟨k, hk⟩ : ∃ k, d.scale = s + (k + 1) := ⟨d.scale - s - 1, by omega⟩
    have hten : d.mantissa = c * 10 ^ k * 10 := by
      refine Nat.eq_of_mul_eq_mul_right (Nat.pow_pos (n := s) (by decide : 0 < 10)) ?_
      rw [hcross, hk]
      ring
    rcases h.places with hzero | hlast
    · omega
    · exact hlast (by rw [hten, Nat.mul_mod_left])
  refine ⟨?_, hscale⟩
  refine Nat.le_of_mul_le_mul_right ?_ (Nat.pow_pos (n := s) (by decide : 0 < 10))
  rw [hcross]
  exact Nat.mul_le_mul_left _ (Nat.pow_le_pow_right (by decide) hscale)

theorem size_pos (h : d.mantissa ≠ 0) : 0 < d.size :=
  div_pos (by exact_mod_cast Nat.pos_of_ne_zero h) (by positivity)

theorem IsStripped.value_neg_iff (h : d.IsStripped) : d.value < 0 ↔ d.negative = true := by
  unfold value
  split
  next hsign => exact iff_of_true (neg_lt_zero.mpr (size_pos (h.sign hsign))) hsign
  next hsign => exact iff_of_false (not_lt.mpr d.size_nonneg) hsign

/-- Each number has one decimal without zeros to take off. -/
theorem IsStripped.eq (hd : d.IsStripped) (he : e.IsStripped) (h : d.value = e.value) : d = e := by
  have hsize : d.size = e.size := by rw [← d.abs_value, h, e.abs_value]
  obtain ⟨hm, hs⟩ := hd.le (hsize.trans rfl)
  obtain ⟨hm', hs'⟩ := he.le (hsize.symm.trans rfl)
  have hmantissa := Nat.le_antisymm hm hm'
  have hscale := Nat.le_antisymm hs hs'
  have hnegative : d.negative = e.negative := by
    rw [Bool.eq_iff_iff, ← hd.value_neg_iff, ← he.value_neg_iff, h]
  cases d
  cases e
  simp_all

/-! ### The text of a decimal -/

/-- All digits of a decimal, with as many zeros in front as the point needs. -/
def digits (d : Decimal) : List Char :=
  paddedDigits (d.scale + 1) d.mantissa

/-- The parts that a decimal is written with. -/
def literal (d : Decimal) : NumberLiteral :=
  ⟨d.negative, d.digits.take (d.digits.length - d.scale),
    if d.scale = 0 then none else some (d.digits.drop (d.digits.length - d.scale)), none⟩

theorem length_digits (d : Decimal) :
    d.digits.length = max (d.scale + 1) (natDigits d.mantissa).length :=
  Text.length_paddedDigits _ _

theorem isDigits_digits (d : Decimal) : Text.IsDigits d.digits :=
  Text.isDigits_paddedDigits _ _

theorem toList_text (d : Decimal) : d.text.toList = d.literal.chars := by
  let whole := d.digits.take (d.digits.length - d.scale)
  let places := d.digits.drop (d.digits.length - d.scale)
  let body := if d.scale = 0 then whole else whole ++ '.' :: places
  have htext : d.text = String.ofList (if d.negative = true then '-' :: body else body) := rfl
  have hbody : whole ++ (Json.fractionChars (if d.scale = 0 then none else some places)
      ++ Json.exponentChars none) = body := by
    by_cases hscale : d.scale = 0 <;>
      simp [body, hscale, Json.fractionChars, Json.exponentChars]
  have hchars : d.literal.chars = (if d.negative = true then ['-'] else []) ++ body := by
    rw [← hbody]
    rfl
  rw [htext, String.toList_ofList, hchars]
  cases d.negative <;> rfl

theorem fraction_literal (d : Decimal) :
    d.literal.fraction.getD [] = d.digits.drop (d.digits.length - d.scale) := by
  unfold literal
  dsimp only
  split
  next hzero => rw [hzero, Nat.sub_zero, List.drop_length, Option.getD_none]
  next => rfl

theorem canonical_literal (d : Decimal) : d.literal.Canonical where
  whole := d.isDigits_digits.take (by have := d.length_digits; omega)
  zero := by
    intro hzero
    have hlength := d.length_digits
    show (d.digits.take (d.digits.length - d.scale)).length = 1
    rw [List.length_take]
    by_cases hpadded : (natDigits d.mantissa).length ≤ d.scale + 1
    · omega
    · -- more digits than places, and the first of them is no zero
      have hunpadded : d.digits = natDigits d.mantissa := by
        unfold digits paddedDigits
        simp only [Nat.sub_eq_zero_of_le (Nat.le_of_not_le hpadded), List.replicate_zero,
          List.nil_append]
      have hhead : (natDigits d.mantissa).head? = some '0' := by
        have : (d.digits.take (d.digits.length - d.scale)).head? = some '0' := hzero
        rwa [List.head?_take, if_neg (by omega), hunpadded] at this
      have hone : (natDigits d.mantissa).length = 1 := by
        rw [Text.head?_natDigits hhead]
        rfl
      omega
  fraction := by
    intro ds hds
    unfold literal at hds
    dsimp only at hds
    split at hds
    · cases hds
    · cases hds
      exact d.isDigits_digits.drop (by have := d.length_digits; omega)
  exponent := by
    intro e he
    cases he

theorem mantissa_literal (d : Decimal) : d.literal.mantissa = d.mantissa := by
  show natOfDigits (d.digits.take (d.digits.length - d.scale) ++ d.literal.fraction.getD []) = _
  rw [fraction_literal, List.take_append_drop]
  exact Text.natOfDigits_paddedDigits _ _

theorem places_literal (d : Decimal) : d.literal.places = d.scale := by
  have := d.length_digits
  rw [NumberLiteral.places, fraction_literal, List.length_drop]
  omega

theorem size_literal (d : Decimal) : d.literal.size = d.size := by
  rw [NumberLiteral.size, mantissa_literal, places_literal, size]

theorem value_literal (d : Decimal) : d.literal.value = d.value := by
  rw [NumberLiteral.value, size_literal, value]
  rfl

theorem length_whole_literal (d : Decimal) : d.literal.whole.length ≤ 30 := by
  have hdigits : (natDigits d.mantissa).length ≤ 29 :=
    (Text.length_natDigits_le_iff (by decide)).mpr (d.mantissa_lt.trans (by decide))
  have hlength := d.length_digits
  have hscale := d.scale_le
  show (d.digits.take (d.digits.length - d.scale)).length ≤ 30
  rw [List.length_take]
  omega

/-! ### The number of a record -/

/-- An integer of 64 bits, signed or not. -/
def IsWord (q : ℚ) : Prop :=
  ∃ k : Int, q = k ∧ -0x8000000000000000 ≤ k ∧ k < 0x10000000000000000

/-- A number with at most `count` digits, zeros at its ends aside. -/
def HasDigits (count : Nat) (q : ℚ) : Prop :=
  ∃ (c : Nat) (j : Int), |q| = c * 10 ^ j ∧ c < 10 ^ count

/-- The number is an integer if the decimal is one, and else a double near to it. -/
structure IsRead (q : ℚ) (n : JsonNumber) : Prop where
  near : |n.value - q| ≤ |q| / 2 ^ 51
  int : IsWord q → ∃ k hle hlt, n = .int k hle hlt ∧ q = k
  double : ¬IsWord q → ∃ x hx, n = .double x hx
  once : ∀ c s : Nat, |q| = c / 10 ^ s → c ≤ 2 ^ 53 → s ≤ 22 →
    ∀ x hx, n = .double x hx → x.IsRounded q

theorem IsStripped.exists_int {k : Int} (h : d.IsStripped) (hk : d.value = k)
    (hle : -0x8000000000000000 ≤ k) (hlt : k < 0x10000000000000000) :
    d.literal.toNumber? = some (.int k hle hlt) := by
  have hsize : d.size = (k.natAbs : Nat) / 10 ^ 0 := by
    rw [pow_zero, div_one, ← d.abs_value, hk, Nat.cast_natAbs, Int.cast_abs]
  obtain ⟨-, hscale⟩ := h.le hsize
  have hscale : d.scale = 0 := Nat.le_zero.mp hscale
  have hmantissa : d.mantissa = k.natAbs := by
    have : (d.mantissa : ℚ) = (k.natAbs : Nat) := by simpa [size, hscale] using hsize
    exact_mod_cast this
  have hwhole : natOfDigits d.literal.whole = k.natAbs := by
    have := d.mantissa_literal
    rw [NumberLiteral.mantissa, fraction_literal, hscale, Nat.sub_zero, List.drop_length,
      List.append_nil, hmantissa] at this
    exact this
  have hsign : d.literal.negative = decide (k < 0) := by
    have hneg := h.value_neg_iff
    rw [hk, Int.cast_lt_zero] at hneg
    show d.negative = _
    rw [Bool.eq_iff_iff, decide_eq_true_iff, hneg]
  have hfraction : d.literal.fraction = none := if_pos hscale
  have hint (m : Int) (hm : m = k) : JsonNumber.ofInt? m = some (.int k hle hlt) := by
    subst hm
    exact dif_pos ⟨hle, hlt⟩
  unfold NumberLiteral.toNumber?
  have hexponent : d.literal.exponent = none := rfl
  simp only [hwhole, hsign, hfraction, hexponent, Option.isNone_none, Bool.and_self, Bool.true_and,
    Bool.and_eq_true, decide_eq_true_eq]
  by_cases hneg : k < 0
  · rw [if_neg (by simp [hneg]), if_pos ⟨⟨hneg, by omega⟩, by omega⟩]
    exact hint _ (by omega)
  · rw [if_pos ⟨by simp [hneg], by omega⟩]
    exact hint _ (by omega)

/-- What is no integer of 64 bits is read as a double. -/
theorem toNumber?_of_not_isWord (h : ¬IsWord d.value) :
    d.literal.toNumber? = d.literal.toBinary64?.bind JsonNumber.ofBinary64? := by
  have hexponent : d.literal.exponent = none := rfl
  have hnegative : d.literal.negative = d.negative := rfl
  unfold NumberLiteral.toNumber?
  by_cases hscale : d.scale = 0
  · have hfraction : d.literal.fraction = none := if_pos hscale
    have hwhole : natOfDigits d.literal.whole = d.mantissa := by
      have := d.mantissa_literal
      rwa [NumberLiteral.mantissa, fraction_literal, hscale, Nat.sub_zero, List.drop_length,
        List.append_nil] at this
    have hvalue : d.value = if d.negative then -(d.mantissa : ℚ) else d.mantissa := by
      simp [value, size, hscale]
    simp only [hwhole, hfraction, hexponent, hnegative, Option.isNone_none, Bool.and_self,
      Bool.true_and, Bool.and_eq_true, Bool.not_eq_true', decide_eq_true_eq]
    rw [if_neg, if_neg]
    · rintro ⟨⟨hneg, hpos⟩, hle⟩
      refine h ⟨-d.mantissa, ?_, by omega, by omega⟩
      rw [hvalue, if_pos hneg]
      push_cast
      rfl
    · rintro ⟨hneg, hlt⟩
      refine h ⟨d.mantissa, ?_, by omega, by omega⟩
      rw [hvalue, hneg, if_neg Bool.false_ne_true]
      push_cast
      rfl
  · have hfraction : d.literal.fraction.isNone = false := by
      unfold literal
      rw [if_neg hscale]
      rfl
    simp only [hfraction, Bool.false_and, Bool.false_eq_true, if_false]

theorem exists_isRead (hd : d.IsStripped) :
    ∃ n, d.literal.toNumber? = some n ∧ IsRead d.value n := by
  by_cases hword : IsWord d.value
  · obtain ⟨k, hk, hle, hlt⟩ := hword
    refine ⟨_, hd.exists_int hk hle hlt, ?_, fun _ => ⟨k, hle, hlt, rfl, hk⟩,
      fun h => absurd ⟨k, hk, hle, hlt⟩ h, nofun⟩
    rw [JsonNumber.value, hk, sub_self, abs_zero]
    positivity
  · have hpos : 0 < d.literal.mantissa := by
      rw [mantissa_literal]
      refine Nat.pos_of_ne_zero fun hzero => hword ⟨0, ?_, by decide, by decide⟩
      rw [value_of_zero hzero, Int.cast_zero]
    have hcanonical := d.canonical_literal
    obtain ⟨x, hx, hfinite, hnear, honce⟩ := NumberLiteral.exists_toBinary64? (n := d.literal) rfl
      hcanonical.whole.2
      (by rw [fraction_literal]; exact fun c hc => d.isDigits_digits.2 c (List.mem_of_mem_drop hc))
      hpos d.length_whole_literal (by rw [places_literal]; have := d.scale_le; omega)
    rw [value_literal] at hnear honce
    rw [mantissa_literal, places_literal] at honce
    refine ⟨.double x hfinite, ?_, hnear, fun h => absurd h hword, fun _ => ⟨x, hfinite, rfl⟩, ?_⟩
    · rw [toNumber?_of_not_isWord hword, hx]
      exact dif_pos hfinite
    · rintro c s hq hc hs y hy hsame
      cases hsame
      obtain ⟨hmantissa, hscale⟩ := hd.le (d.abs_value ▸ hq)
      exact honce (hmantissa.trans hc) (hscale.trans hs)

/-- A decimal is a number in a record, and never a text. -/
theorem exists_toJson (d : Decimal) : ∃ n, d.toJson = .number n ∧ IsRead d.value n := by
  obtain ⟨n, hn, hread⟩ := exists_isRead d.isStripped_normalize
  have hparse : JsonNumber.parse? d.normalize.text = some n := by
    unfold JsonNumber.parse?
    rw [toList_text, Json.NumberLiteral.parse?_chars (canonical_literal _), Option.bind_some, hn]
  refine ⟨n, ?_, d.value_normalize ▸ hread⟩
  unfold toJson
  dsimp only
  rw [hparse]

/-! ### Two decimals -/

/-- Decimals of one number are the same in a record. -/
theorem toJson_eq_of_value_eq (h : d.value = e.value) : d.toJson = e.toJson := by
  have hnormal : d.normalize = e.normalize :=
    d.isStripped_normalize.eq e.isStripped_normalize (by rw [value_normalize, value_normalize, h])
  unfold toJson
  rw [hnormal]

/-- An integer up to its sign, as an integer. -/
theorem exists_int_of_abs {a : Nat} {unit : ℚ} (hunit : 0 ≤ unit) (h : |q| = a * unit) :
    ∃ k : Int, q = k * unit := by
  rcases (abs_eq (by positivity)).mp h with hq | hq
  · exact ⟨a, by rw [hq, Int.cast_natCast]⟩
  · exact ⟨-a, by rw [hq]; push_cast; ring⟩

/-- Numbers that are close to each other are the same if one of them has 15 digits at most and the
other as many places at most. -/
theorem eq_of_near {p : ℚ} {a b : Nat} {i j : Int} (hp : |p| = a * 10 ^ i) (ha : a < 10 ^ 15)
    (hq : |q| = b * 10 ^ j) (hij : i ≤ j) (hnear : |p - q| ≤ (|p| + |q|) / 2 ^ 51) : p = q := by
  have hunit : (0 : ℚ) < 10 ^ i := by positivity
  obtain ⟨k, hk⟩ := exists_int_of_abs hunit.le hp
  obtain ⟨l, hl⟩ : ∃ l : Int, q = l * 10 ^ i := by
    refine exists_int_of_abs (a := b * 10 ^ (j - i).toNat) hunit.le ?_
    have hsplit : (10 : ℚ) ^ j = 10 ^ (j - i).toNat * 10 ^ i := by
      rw [← zpow_natCast, ← zpow_add₀ (by decide)]
      congr 1
      omega
    rw [hq, hsplit]
    push_cast
    ring
  by_contra hne
  -- they differ by a unit at least, which is more than they can be apart
  have hdiffer : (1 : ℚ) ≤ |(k - l : Int)| := by
    have : k - l ≠ 0 := fun h => hne (by rw [hk, hl, sub_eq_zero.mp h])
    exact_mod_cast Int.one_le_abs this
  have happart : 10 ^ i ≤ |p - q| := by
    have hstep : p - q = (k - l : Int) * 10 ^ i := by
      rw [hk, hl]
      push_cast
      ring
    rw [hstep, abs_mul, abs_of_pos hunit]
    exact le_mul_of_one_le_left hunit.le (by exact_mod_cast hdiffer)
  have hdigits : |p| ≤ 10 ^ 15 * 10 ^ i := by
    have hcast : (a : ℚ) ≤ 10 ^ 15 := by exact_mod_cast ha.le
    rw [hp]
    exact mul_le_mul_of_nonneg_right hcast hunit.le
  have hother : |q| ≤ |p| + |p - q| := by
    have := abs_sub_abs_le_abs_sub q p
    rw [abs_sub_comm q p] at this
    linarith
  linarith

theorem value_eq_of_toJson_eq (hd : IsWord d.value ∨ HasDigits 15 d.value)
    (he : IsWord e.value ∨ HasDigits 15 e.value) (h : d.toJson = e.toJson) : d.value = e.value := by
  obtain ⟨n, hn, hread⟩ := d.exists_toJson
  obtain ⟨n', hn', hread'⟩ := e.exists_toJson
  obtain rfl : n = n' := by
    rw [hn, hn'] at h
    exact Json.number.inj h
  by_cases hword : IsWord d.value <;> by_cases hword' : IsWord e.value
  · obtain ⟨k, _, _, hk, hvalue⟩ := hread.int hword
    obtain ⟨l, _, _, hl, hvalue'⟩ := hread'.int hword'
    rw [hk] at hl
    cases hl
    rw [hvalue, hvalue']
  · obtain ⟨k, _, _, hk, -⟩ := hread.int hword
    obtain ⟨x, hx, hdouble⟩ := hread'.double hword'
    rw [hk] at hdouble
    cases hdouble
  · obtain ⟨x, hx, hdouble⟩ := hread.double hword
    obtain ⟨k, _, _, hk, -⟩ := hread'.int hword'
    rw [hk] at hdouble
    cases hdouble
  · obtain ⟨a, i, ha, ha15⟩ := hd.resolve_left hword
    obtain ⟨b, j, hb, hb15⟩ := he.resolve_left hword'
    have hnear : |d.value - e.value| ≤ (|d.value| + |e.value|) / 2 ^ 51 := by
      have hd' := hread.near
      rw [abs_sub_comm] at hd'
      have := abs_sub_le d.value n.value e.value
      have := hread'.near
      linarith
    rcases le_total i j with hij | hji
    · exact eq_of_near ha ha15 hb hij hnear
    · refine (eq_of_near hb hb15 ha hji ?_).symm
      rwa [abs_sub_comm, add_comm]

/-! ### What is kept -/

/-- **A decimal in a record** is a number, off by at most one part in 2^51.  It is the decimal where
that is an integer of 64 bits; a double is only where 53 binary digits are enough for the decimal,
and is then if the decimal has at most 53 bits and 22 places itself.  Decimals of the same number
are the same in a record, and up to 15 digits no others are. -/
theorem normalize_decimal_spec (d : Decimal) :
    (∃ n, (Value.decimal d).normalize = .number n ∧ |n.value - d.value| ≤ |d.value| / 2 ^ 51
      ∧ ((∃ k hle hlt, n = .int k hle hlt) ↔ IsWord d.value)
      ∧ (IsWord d.value → n.value = d.value)
      ∧ (n.value = d.value → IsWord d.value ∨ FitsDouble |d.value|)
      ∧ (FitsDouble |d.value| → (∃ c s : Nat, |d.value| = c / 10 ^ s ∧ c ≤ 2 ^ 53 ∧ s ≤ 22) →
          n.value = d.value))
    ∧ ∀ e : Decimal,
        (d.value = e.value → (Value.decimal d).normalize = (Value.decimal e).normalize)
        ∧ (IsWord d.value ∨ HasDigits 15 d.value → IsWord e.value ∨ HasDigits 15 e.value →
            (Value.decimal d).normalize = (Value.decimal e).normalize → d.value = e.value) := by
  refine ⟨?_, fun e => ⟨toJson_eq_of_value_eq, value_eq_of_toJson_eq⟩⟩
  obtain ⟨n, hn, hread⟩ := d.exists_toJson
  have hsame (h : IsWord d.value) : n.value = d.value := by
    obtain ⟨k, _, _, rfl, hk⟩ := hread.int h
    exact hk.symm
  refine ⟨n, hn, hread.near, ⟨?_, fun h => ?_⟩, hsame, fun h => ?_, fun hfits hfew => ?_⟩
  · rintro ⟨k, hle, hlt, rfl⟩
    by_contra hword
    obtain ⟨x, hx, hdouble⟩ := hread.double hword
    cases hdouble
  · obtain ⟨k, hle, hlt, hk, -⟩ := hread.int h
    exact ⟨k, hle, hlt, hk⟩
  · by_cases hword : IsWord d.value
    · exact .inl hword
    · obtain ⟨x, hx, rfl⟩ := hread.double hword
      refine .inr ?_
      rw [← h, JsonNumber.value, x.abs_value]
      exact x.fitsDouble_size
  · by_cases hword : IsWord d.value
    · exact hsame hword
    · obtain ⟨c, s, hq, hc, hs⟩ := hfew
      obtain ⟨x, hx, rfl⟩ := hread.double hword
      exact (hread.once c s hq hc hs x hx rfl).eq_iff.mpr hfits

/-- Two integers of 23 digits and two prices of 16 digits that are the same in a record. -/
theorem two_decimals_with_one_record :
    (∃ d e : Decimal, d.text = "12345678901234567890123" ∧ e.text = "12345678901234567890124"
        ∧ (Value.decimal d).normalize = (Value.decimal e).normalize ∧ d.value ≠ e.value)
      ∧ ∃ d e : Decimal, d.text = "9007199254740.992" ∧ e.text = "9007199254740.993"
        ∧ (Value.decimal d).normalize = (Value.decimal e).normalize ∧ d.value ≠ e.value := by
  refine ⟨⟨⟨false, 12345678901234567890123, 0, by decide, by decide⟩,
      ⟨false, 12345678901234567890124, 0, by decide, by decide⟩, ?_, ?_, ?_, ?_⟩,
    ⟨⟨false, 9007199254740992, 3, by decide, by decide⟩,
      ⟨false, 9007199254740993, 3, by decide, by decide⟩, ?_, ?_, ?_, ?_⟩⟩
  · decide +kernel
  · decide +kernel
  · decide +kernel
  · norm_num [value, size]
  · decide +kernel
  · decide +kernel
  · decide +kernel
  · norm_num [value, size]

end Decimal

end SqlSession
