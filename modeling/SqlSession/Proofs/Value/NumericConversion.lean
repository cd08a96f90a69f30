/-
A number as a decimal, bound and converted.

An integer or a text with a number becomes a decimal in two places: where it is sent to a server
that asks for one, and where it is converted under the type codes of decimals.  What is sent is
the number itself, and the server reads it so.  The conversion goes by way of a double, so it gives
the number where the double is the number.  It can also give it by chance, where the double is no
decimal and is rounded once more: `0.1000000000000000055511151231` is what is left of the double
next to `0.1`.

`numeric_conversion_exact_iff` says that there is no other way, and gives the condition on the
number itself: 53 binary digits are enough for it.  For an integer that is the whole of it, because
the double of an integer is always a decimal.
-/
import SqlSession.Proofs.Number.PlainNumber
import SqlSession.Proofs.Wire.Forms
import SqlSession.Value.Conversion
import SqlSession.Wire.Encoding

namespace SqlSession

open Wire (encode decode? numericBytes)

variable {code : TypeCode} {v : Value} {d : Decimal} {x : Binary64} {q : ℚ}

namespace Value

/-- The decimal that an integer or a text with a decimal is. -/
def asNumeric? : Value → Option Decimal
  | .int n => some (.ofInt64 n)
  | .text s | .clob s => Decimal.parse? (Text.trimmed s)
  | _ => none

/-- An integer, or a text with the digits of a number that a decimal has room for. -/
def IsPlainNumber : Value → Prop
  | .int _ => True
  | .text s | .clob s => ∃ p : PlainNumber, p.Fits ∧ Text.trimmed s = String.ofList p.chars
  | _ => False

/-- The value is a decimal of the number. -/
def IsDecimal (v : Value) (q : ℚ) : Prop :=
  ∃ e, v = .decimal e ∧ e.value = q

/-- The double of the value is no decimal, and the decimal that it is rounded to is the number. -/
def RoundsBack (v : Value) (q : ℚ) : Prop :=
  ∃ x e, v.asFloat? = some x ∧ ¬FitsDecimal x.size ∧ Decimal.ofBinary64? x = some e ∧ e.value = q

/-! ### Sent to a server -/

theorem encode_numeric (h : v.asNumeric? = some d) :
    encode .numeric v = .ok (some (numericBytes d)) := by
  cases v with
  | int n =>
      cases h
      rfl
  | text s | clob s =>
      have hparse : Decimal.parse? (Text.trimmed s) = some d := h
      show Wire.encodeText .numeric s = _
      unfold Wire.encodeText
      simp only [hparse]
      rfl
  | _ => cases h

/-- The server reads the number that was sent. -/
theorem exists_decode?_value (d : Decimal) :
    ∃ r, decode? .numeric (numericBytes d) = some (.decimal r) ∧ r.value = d.value := by
  by_cases hzero : d.mantissa = 0
  · refine ⟨Decimal.zero false, ?_, ?_⟩
    · show (Wire.numeric? (numericBytes d)).map _ = _
      rw [Wire.numeric?_of_zero hzero]
      rfl
    · rw [Decimal.value_of_zero hzero]
      exact Decimal.value_of_zero rfl
  · refine ⟨d, ?_, rfl⟩
    show (Wire.numeric? (numericBytes d)).map _ = _
    rw [Wire.numeric?_numericBytes hzero]
    rfl

/-! ### Converted -/

theorem kind?_of_mem (hcode : code ∈ [TypeCode.numeric, .decimal]) :
    code.kind? = some .decimal := by
  rcases List.mem_cons.mp hcode with rfl | hcode
  · rfl
  · rw [List.mem_singleton.mp hcode]
    rfl

/-- The conversion is by way of the double, and a value without one stays as it is. -/
theorem convertTo_of_asNumeric? (hcode : code ∈ [TypeCode.numeric, .decimal])
    (h : v.asNumeric? = some d) :
    v.convertTo code = ((v.asFloat?.bind Decimal.ofBinary64?).map .decimal).getD v := by
  unfold convertTo
  rw [kind?_of_mem hcode]
  cases v with
  | int n => rfl
  | text s | clob s => rfl
  | _ => cases h

theorem not_isDecimal_of_asNumeric? (h : v.asNumeric? = some d) : ¬v.IsDecimal q := by
  rintro ⟨e, rfl, -⟩
  cases h

theorem isDecimal_convertTo_iff (hcode : code ∈ [TypeCode.numeric, .decimal])
    (h : v.asNumeric? = some d) :
    (v.convertTo code).IsDecimal q ↔
      ∃ x e, v.asFloat? = some x ∧ Decimal.ofBinary64? x = some e ∧ e.value = q := by
  rw [convertTo_of_asNumeric? hcode h]
  rcases hx : v.asFloat? with _ | x
  · simp [not_isDecimal_of_asNumeric? h]
  rcases he : Decimal.ofBinary64? x with _ | e
  · simp [he, not_isDecimal_of_asNumeric? h]
  · simp [he, IsDecimal]

theorem isFinite_of_ofBinary64? {e : Decimal} (h : Decimal.ofBinary64? x = some e) :
    x.isFinite = true := by
  by_contra hinfinite
  unfold Decimal.ofBinary64? at h
  rw [if_pos (by simpa using hinfinite)] at h
  cases h

/-- A double that is a decimal keeps its number, so the conversion gives the number of the double
or has rounded once more. -/
theorem isDecimal_convertTo_iff_or (hcode : code ∈ [TypeCode.numeric, .decimal])
    (h : v.asNumeric? = some d) :
    (v.convertTo code).IsDecimal d.value ↔
      (∃ x, v.asFloat? = some x ∧ x.isFinite = true ∧ x.value = d.value)
        ∨ v.RoundsBack d.value := by
  rw [isDecimal_convertTo_iff hcode h]
  constructor
  · rintro ⟨x, e, hx, he, hvalue⟩
    by_cases hfits : FitsDecimal x.size
    · obtain ⟨e', he', hvalue'⟩ := Decimal.exists_ofBinary64? (isFinite_of_ofBinary64? he) hfits
      obtain rfl : e' = e := Option.some.inj (he'.symm.trans he)
      exact .inl ⟨x, hx, isFinite_of_ofBinary64? he, hvalue'.symm.trans hvalue⟩
    · exact .inr ⟨x, e, hx, hfits, he, hvalue⟩
  · rintro (⟨x, hx, hfinite, hvalue⟩ | ⟨x, e, hx, -, he, hvalue⟩)
    · have hfits : FitsDecimal x.size := by
        rw [← x.abs_value, hvalue, d.abs_value]
        exact d.fitsDecimal_size
      obtain ⟨e, he, hvalue'⟩ := Decimal.exists_ofBinary64? hfinite hfits
      exact ⟨x, e, hx, he, hvalue'.trans hvalue⟩
    · exact ⟨x, e, hx, he, hvalue⟩

/-! ### The double of a plain number -/

theorem natAbs_toInt_le (n : Int64) : n.toInt.natAbs ≤ 2 ^ 63 := by
  have := n.le_toInt
  have := n.toInt_lt
  omega

theorem isRounded_ofInt64 (n : Int64) : (Binary64.ofInt n.toInt).IsRounded n.toInt :=
  Binary64.isRounded_ofInt ((natAbs_toInt_le n).trans (by decide))

/-- A plain number has a double, which is the number rounded once. -/
theorem exists_asFloat? (h : v.asNumeric? = some d) (hplain : v.IsPlainNumber) :
    ∃ x, v.asFloat? = some x ∧ x.IsRounded d.value := by
  cases v with
  | int n =>
      cases h
      exact ⟨_, rfl, Decimal.value_ofInt64 n ▸ isRounded_ofInt64 n⟩
  | text s | clob s =>
      obtain ⟨p, hfits, htext⟩ := hplain
      have hparse : Decimal.parse? (Text.trimmed s) = some d := h
      obtain rfl : p.toDecimal hfits = d := by
        rw [htext, Decimal.parse?_chars p hfits] at hparse
        exact Option.some.inj hparse
      obtain ⟨x, hx, hrounded⟩ := Binary64.exists_parse?_chars p hfits
      refine ⟨x, ?_, hrounded⟩
      show Binary64.parse? (Text.trimmed s) = some x
      rw [htext, hx]
  | _ => cases h

/-- The double of a 64-bit integer is a decimal. -/
theorem fitsDecimal_ofInt (n : Int64) : FitsDecimal (Binary64.ofInt n.toInt).size := by
  have hbound := natAbs_toInt_le n
  have hrounded := isRounded_ofInt64 n
  obtain ⟨k, hk⟩ := Binary64.exists_size_ofInt (hbound.trans (by decide))
  refine ⟨k, 0, by rw [hk, pow_zero, div_one], ?_, by decide⟩
  have hn : |(n.toInt : ℚ)| ≤ 2 ^ 63 := by
    rw [← Int.cast_abs, Int.abs_eq_natAbs]
    exact_mod_cast hbound
  have hsize : (k : ℚ) ≤ 2 ^ 64 := by
    rw [← hk, ← Binary64.abs_value]
    calc |(Binary64.ofInt n.toInt).value|
        ≤ |(Binary64.ofInt n.toInt).value - n.toInt| + |(n.toInt : ℚ)| := by
          rw [← sub_le_iff_le_add]
          exact abs_sub_abs_le_abs_sub _ _
      _ ≤ |(n.toInt : ℚ)| / 2 ^ 53 + |(n.toInt : ℚ)| := by gcongr; exact hrounded.near
      _ ≤ 2 ^ 63 / 2 ^ 53 + 2 ^ 63 := by gcongr
      _ ≤ 2 ^ 64 := by norm_num
  have hnat : k ≤ 2 ^ 64 := by exact_mod_cast hsize
  exact Nat.lt_of_le_of_lt hnat (by decide)

/-- An integer is converted to the number of its double. -/
theorem isDecimal_convertTo_int (hcode : code ∈ [TypeCode.numeric, .decimal]) (n : Int64) :
    ((Value.int n).convertTo code).IsDecimal (Binary64.ofInt n.toInt).value := by
  obtain ⟨e, he, hvalue⟩ :=
    Decimal.exists_ofBinary64? (isRounded_ofInt64 n).finite (fitsDecimal_ofInt n)
  exact (isDecimal_convertTo_iff hcode rfl).mpr ⟨_, e, rfl, he, hvalue⟩

theorem not_roundsBack_int (n : Int64) : ¬(Value.int n).RoundsBack q := by
  rintro ⟨x, e, hx, hfits, -, -⟩
  cases hx
  exact hfits (fitsDecimal_ofInt n)

/-! ### The two compared -/

/-- **The number that is sent** is the number, and the conversion gives the same one exactly where
the double of the value is the number or rounds back to it.  For numbers in digits the double is
the number where 53 binary digits are enough for it, and for integers that alone decides. -/
theorem numeric_conversion_exact_iff (hcode : code ∈ [TypeCode.numeric, .decimal])
    (h : v.asNumeric? = some d) :
    (encode .numeric v = .ok (some (numericBytes d))
      ∧ ∃ r, decode? .numeric (numericBytes d) = some (.decimal r) ∧ r.value = d.value)
    ∧ ((v.convertTo code).IsDecimal d.value ↔
        (∃ x, v.asFloat? = some x ∧ x.isFinite = true ∧ x.value = d.value)
          ∨ v.RoundsBack d.value)
    ∧ (v.IsPlainNumber →
        ((v.convertTo code).IsDecimal d.value ↔ FitsDouble |d.value| ∨ v.RoundsBack d.value))
    ∧ ∀ n, v = .int n →
        ((v.convertTo code).IsDecimal d.value ↔
          ∃ c k : Nat, n.toInt.natAbs = c * 2 ^ k ∧ c < 2 ^ 53)
        ∧ ∃ q, (v.convertTo code).IsDecimal q ∧ |q - n.toInt| ≤ |(n.toInt : ℚ)| / 2 ^ 53 := by
  have hexact := isDecimal_convertTo_iff_or hcode h
  have hplain (hv : v.IsPlainNumber) :
      (v.convertTo code).IsDecimal d.value ↔ FitsDouble |d.value| ∨ v.RoundsBack d.value := by
    obtain ⟨x, hx, hrounded⟩ := exists_asFloat? h hv
    rw [hexact, ← hrounded.eq_iff]
    refine or_congr_left ⟨?_, fun hvalue => ⟨x, hx, hrounded.finite, hvalue⟩⟩
    rintro ⟨y, hy, -, hvalue⟩
    obtain rfl : y = x := Option.some.inj (hy.symm.trans hx)
    exact hvalue
  refine ⟨⟨encode_numeric h, exists_decode?_value d⟩, hexact, hplain, ?_⟩
  rintro n rfl
  cases h
  have habs : |(Decimal.ofInt64 n).value| = (n.toInt.natAbs : Nat) := by
    rw [Decimal.value_ofInt64, Nat.cast_natAbs, Int.cast_abs]
  refine ⟨?_, _, isDecimal_convertTo_int hcode n, (isRounded_ofInt64 n).near⟩
  rw [hplain trivial, or_iff_left (not_roundsBack_int n), habs, fitsDouble_natCast_iff]

/-- A half is a double, so a text with it is converted to it. -/
theorem half_converted :
    (Value.text " 0.5 ").asNumeric? = some ⟨false, 5, 1, by decide, by decide⟩
      ∧ ((Value.text " 0.5 ").convertTo .numeric).IsDecimal (5 / 10) := by
  have hread : (Value.text " 0.5 ").asNumeric? = some ⟨false, 5, 1, by decide, by decide⟩ := by
    decide +kernel
  have hplain : (Value.text " 0.5 ").IsPlainNumber :=
    ⟨⟨[], ['0'], true, ['5'], by decide, ⟨by decide, by simp⟩, nofun⟩,
      ⟨by decide, by decide⟩, by decide +kernel⟩
  have hvalue : (⟨false, 5, 1, by decide, by decide⟩ : Decimal).value = 5 / 10 := by
    simp [Decimal.value, Decimal.size]
  have hfits : FitsDouble |(⟨false, 5, 1, by decide, by decide⟩ : Decimal).value| := by
    refine ⟨1, -1, ?_, by decide, by decide⟩
    rw [hvalue]
    norm_num
  refine ⟨hread, ?_⟩
  rw [← hvalue]
  exact ((numeric_conversion_exact_iff (by decide) hread).2.2.1 hplain).mpr (.inl hfits)

/-- The odd integer above 2^53 is sent as itself and converted to its even neighbour, and a tenth is
converted to 28 places of the double next to it. -/
theorem odd_integer_and_tenth_converted :
    (∃ d, (Value.int 9007199254740993).asNumeric? = some d ∧ d.text = "9007199254740993"
        ∧ ¬((Value.int 9007199254740993).convertTo .numeric).IsDecimal d.value)
      ∧ ∃ d, (Value.text "0.1").asNumeric? = some d ∧ d.text = "0.1"
        ∧ ¬((Value.text "0.1").convertTo .decimal).IsDecimal d.value := by
  have hint : (Value.int 9007199254740993).convertTo .numeric
      = .decimal ⟨false, 9007199254740992, 0, by decide, by decide⟩ := by decide +kernel
  have htext : (Value.text "0.1").convertTo .decimal
      = .decimal ⟨false, 1000000000000000055511151231, 28, by decide, by decide⟩ := by
    decide +kernel
  refine ⟨⟨⟨false, 9007199254740993, 0, by decide, by decide⟩, ?_, ?_, ?_⟩,
    ⟨false, 1, 1, by decide, by decide⟩, ?_, ?_, ?_⟩
  · decide +kernel
  · decide +kernel
  · rintro ⟨e, he, hvalue⟩
    rw [hint] at he
    cases he
    norm_num [Decimal.value, Decimal.size] at hvalue
  · decide +kernel
  · decide +kernel
  · rintro ⟨e, he, hvalue⟩
    rw [htext] at he
    cases he
    norm_num [Decimal.value, Decimal.size] at hvalue

end Value

end SqlSession
