/-
Integers through an integer column.

Three conversions meet at a column of two, four or eight bytes: the integer view of a value,
the writing of a value as a parameter, and the reading of the column.  `integer_written_iff`
says that they agree on every value that has an integer view at all: it can be written exactly
where the view gives an integer that the column has room for, and that integer is read back.

Reading undoes two's complement wherever the bytes have room, which is `int?_signedBytes`;
every fixed-width form of the wire rests on it.
-/
import SqlSession.Wire.Decoding
import SqlSession.Wire.Encoding

namespace SqlSession

/-- The kinds of values that can denote an integer. -/
def Value.hasIntView : Value → Bool
  | .bool _ | .int _ | .float _ | .decimal _ | .text _ | .clob _ => true
  | _ => false

end SqlSession

namespace SqlSession.Wire

/-! ### Two's complement -/

/-- `width` bytes have room for the integer. -/
def FitsBytes (width : Nat) (n : Int) : Prop :=
  -(Nat.pow 2 (8 * width - 1) : Int) ≤ n ∧ n < Nat.pow 2 (8 * width - 1)

instance (width : Nat) (n : Int) : Decidable (FitsBytes width n) :=
  inferInstanceAs (Decidable (_ ∧ _))

variable {width : Nat} {n : Int}

@[simp] theorem length_signedBytes (width : Nat) (n : Int) :
    (signedBytes width n).length = width :=
  length_bigEndian _ _

/-- Half of the patterns of `width` bytes stand for negative integers. -/
theorem pow_256_eq (hwidth : 0 < width) :
    Nat.pow 256 width = 2 * Nat.pow 2 (8 * width - 1) := by
  have h256 : Nat.pow 256 width = 2 ^ (8 * width) := by
    show (2 ^ 8) ^ width = _
    rw [← Nat.pow_mul]
  rw [h256]
  show _ = 2 * 2 ^ (8 * width - 1)
  rw [← Nat.pow_succ', Nat.succ_eq_add_one]
  congr 1
  omega

theorem natOfBytes_signedBytes (width : Nat) (n : Int) :
    natOfBytes (signedBytes width n) = (n % Nat.pow 256 width).toNat := by
  have hpos : (0 : Int) < Nat.pow 256 width := by
    exact_mod_cast Nat.pow_pos (n := width) (by decide : 0 < 256)
  have := Int.emod_lt_of_pos n hpos
  rw [signedBytes, natOfBytes_bigEndian, Nat.mod_eq_of_lt (by omega)]

/-- What two's complement writes where there is room is read back. -/
theorem intOfBytes_signedBytes (hwidth : 0 < width) (h : FitsBytes width n) :
    intOfBytes (signedBytes width n) = n := by
  obtain ⟨hlow, hhigh⟩ := h
  have hpow := pow_256_eq hwidth
  simp only [intOfBytes, natOfBytes_signedBytes, length_signedBytes, hpow]
  -- the sign decides whether the remainder is the integer itself or lies a full turn above it
  rcases Int.lt_or_le n 0 with hneg | hpos
  · have hturn : n % ((2 * Nat.pow 2 (8 * width - 1) : Nat) : Int)
        = n + (2 * Nat.pow 2 (8 * width - 1) : Nat) := by
      rw [← Int.add_emod_right, Int.emod_eq_of_lt] <;> omega
    rw [hturn, if_neg (by omega)]
    omega
  · rw [Int.emod_eq_of_lt (by omega) (by omega), if_pos (by omega)]
    omega

theorem int?_signedBytes (hwidth : 0 < width) (h : FitsBytes width n) :
    int? width (signedBytes width n) = some n := by
  rw [int?, if_pos (length_signedBytes _ _), intOfBytes_signedBytes hwidth h]

/-- What stands in front is taken off. -/
theorem takeNat?_bigEndian (width : Nat) {m : Nat} (hm : m < Nat.pow 256 width) (rest : Bytes) :
    takeNat? width (bigEndian width m ++ rest) = some (m, rest) := by
  have hlength : (bigEndian width m).length = width := length_bigEndian width m
  have hvalue : natOfBytes (bigEndian width m) = m := by
    rw [natOfBytes_bigEndian]
    exact Nat.mod_eq_of_lt hm
  unfold takeNat?
  rw [if_pos (by rw [List.length_append, hlength]; omega), List.take_left' hlength,
    List.drop_left' hlength, hvalue]

theorem takeInt?_signedBytes (hwidth : 0 < width) (h : FitsBytes width n) (rest : Bytes) :
    takeInt? width (signedBytes width n ++ rest) = some (n, rest) := by
  have hlength : (signedBytes width n).length = width := length_signedBytes width n
  unfold takeInt?
  rw [if_pos (by rw [List.length_append, hlength]; omega), List.take_left' hlength,
    List.drop_left' hlength, intOfBytes_signedBytes hwidth h]

/-- A 64-bit integer fits eight bytes. -/
theorem fitsBytes_toInt (k : Int64) : FitsBytes 8 k.toInt :=
  ⟨k.le_toInt, k.toInt_lt⟩

/-- The first byte is the most significant. -/
theorem natOfBytes_cons (first : UInt8) (rest : Bytes) :
    natOfBytes (first :: rest) = first.toNat * Nat.pow 256 rest.length + natOfBytes rest := by
  have hfold : ∀ v, rest.foldl (fun n b => n * 256 + b.toNat) v
      = v * Nat.pow 256 rest.length + natOfBytes rest := by
    unfold natOfBytes
    induction rest with
    | nil => exact fun v => (Nat.mul_one v).symm
    | cons second rest ih =>
        intro v
        rw [List.foldl_cons, List.foldl_cons, ih, ih (0 * 256 + second.toNat)]
        have hpow : Nat.pow 256 (second :: rest).length = 256 * Nat.pow 256 rest.length :=
          Nat.mul_comm _ _
        rw [hpow, Nat.add_mul, Nat.add_mul, Nat.zero_mul, Nat.zero_add, Nat.mul_assoc,
          Nat.add_assoc]
  show rest.foldl _ (0 * 256 + first.toNat) = _
  rw [hfold, Nat.zero_mul, Nat.zero_add]

theorem natOfBytes_lt (b : Bytes) : natOfBytes b < Nat.pow 256 b.length := by
  induction b with
  | nil => exact Nat.zero_lt_one
  | cons first rest ih =>
      have hfirst := first.toNat_lt
      rw [natOfBytes_cons]
      calc first.toNat * Nat.pow 256 rest.length + natOfBytes rest
          < first.toNat * Nat.pow 256 rest.length + Nat.pow 256 rest.length :=
            Nat.add_lt_add_left ih _
        _ = (first.toNat + 1) * Nat.pow 256 rest.length := (Nat.succ_mul _ _).symm
        _ ≤ 256 * Nat.pow 256 rest.length := Nat.mul_le_mul_right _ (by omega)
        _ = Nat.pow 256 (first :: rest).length := Nat.mul_comm _ _

/-- What is read from some bytes fits as many. -/
theorem fitsBytes_of_int? {b : Bytes} (hwidth : 0 < width) (h : int? width b = some n) :
    FitsBytes width n := by
  unfold int? at h
  split at h
  next hlength =>
    have hlt := natOfBytes_lt b
    have hpow := pow_256_eq hwidth
    cases h
    unfold intOfBytes FitsBytes
    rw [hlength, hpow] at hlt ⊢
    dsimp only
    split <;> omega
  next => cases h

/-! ### Integer columns -/

/-- The width of an integer type. -/
def ServerType.intWidth? : ServerType → Option Nat
  | .int2 => some 2
  | .int4 => some 4
  | .int8 => some 8
  | _ => none

variable {t : ServerType} {v : Value} {k : Int64}

/-- Writing an integer in an integer type is writing it in as many bytes, if it has room. -/
theorem encodeInt_of_intWidth (ht : t.intWidth? = some width) (k : Int64) :
    encodeInt t k =
      if FitsBytes width k.toInt then .ok (some (signedBytes width k.toInt))
      else .error .malformed := by
  cases t <;> cases ht
  case int2 | int4 => rfl
  case int8 =>
    rw [if_pos (fitsBytes_toInt k)]
    rfl

/-- Reading an integer column is reading as many bytes. -/
theorem decode?_of_intWidth (ht : t.intWidth? = some width) (b : Bytes) :
    decode? t b = (int? width b).map fun n => .int (Int64.ofInt n) := by
  cases t <;> cases ht <;> rfl

theorem intWidth_pos (ht : t.intWidth? = some width) : 0 < width := by
  cases t <;> cases ht <;> decide

theorem intWidth_le (ht : t.intWidth? = some width) : width ≤ 8 := by
  cases t <;> cases ht <;> decide

/-- What fits up to eight bytes is a 64-bit integer. -/
theorem toInt_ofInt_of_fits (hwidth : width ≤ 8) (h : FitsBytes width n) :
    (Int64.ofInt n).toInt = n := by
  have hpow : Nat.pow 2 (8 * width - 1) ≤ Nat.pow 2 63 :=
    Nat.pow_le_pow_right (by decide) (by omega)
  have hlimit : Nat.pow 2 63 = 9223372036854775808 := rfl
  unfold FitsBytes at h
  exact Int64.toInt_ofInt_of_le (by show -9223372036854775808 ≤ n; omega)
    (by show n < 9223372036854775808; omega)

/-- A value with an integer view is written as the integer that it denotes. -/
theorem encode_of_asInt? (ht : t.intWidth? = some width) (hv : v.hasIntView = true)
    (hk : v.asInt? = some k) : encode t v = encodeInt t k := by
  cases v <;> cases hv
  case bool b =>
    cases hk
    cases t <;> cases ht <;> rfl
  case int n =>
    cases hk
    rfl
  case float x =>
    cases hk
    cases t <;> cases ht <;> rfl
  case decimal d =>
    have hd : d.toInt64? = some k := hk
    cases t <;> cases ht <;> simp only [encode, encodeDecimal, hd]
  case text s | clob s =>
    have hs : Text.readInt64 (Text.trimmed s) = .ok k := by
      rcases h : Text.readInt64 (Text.trimmed s) with e | n
      · simp only [Value.asInt?, h, Except.toOption] at hk
        cases hk
      · simp only [Value.asInt?, h, Except.toOption] at hk
        cases hk
        rfl
    cases t <;> cases ht <;> simp only [encode, encodeText, hs]

/-- A value that denotes no integer is refused by an integer column. -/
theorem encode_of_asInt?_none (ht : t.intWidth? = some width) (hv : v.hasIntView = true)
    (hk : v.asInt? = none) : (encode t v).isOk = false := by
  cases v <;> cases hv
  case bool | int | float => cases hk
  case decimal d =>
    have hd : d.toInt64? = none := hk
    cases t <;> cases ht <;> simp only [encode, encodeDecimal, hd] <;> rfl
  case text s | clob s =>
    obtain ⟨e, hs⟩ : ∃ e, Text.readInt64 (Text.trimmed s) = .error e := by
      rcases h : Text.readInt64 (Text.trimmed s) with e | n
      · exact ⟨e, rfl⟩
      · simp only [Value.asInt?, h, Except.toOption] at hk
        cases hk
    cases t <;> cases ht <;> simp only [encode, encodeText, hs] <;> rfl

/-- The integer view, the writing of parameters and the reading of columns agree: a value that
can denote an integer is written to an integer column exactly where it denotes one that the
column has room for, and what is then written is read back as that integer. -/
theorem integer_written_iff (ht : t.intWidth? = some width) (hv : v.hasIntView = true) :
    ((encode t v).isOk = true ↔ ∃ k, v.asInt? = some k ∧ FitsBytes width k.toInt) ∧
      ∀ k, v.asInt? = some k → FitsBytes width k.toInt →
        ∃ b, encode t v = .ok (some b) ∧ decode? t b = some (.int k) := by
  have hread : ∀ k, v.asInt? = some k → FitsBytes width k.toInt →
      ∃ b, encode t v = .ok (some b) ∧ decode? t b = some (.int k) := by
    intro k hk hfits
    refine ⟨signedBytes width k.toInt, ?_, ?_⟩
    · rw [encode_of_asInt? ht hv hk, encodeInt_of_intWidth ht, if_pos hfits]
    · rw [decode?_of_intWidth ht, int?_signedBytes (intWidth_pos ht) hfits, Option.map_some,
        Int64.ofInt_toInt]
  refine ⟨⟨fun hok => ?_, fun ⟨k, hk, hfits⟩ => ?_⟩, hread⟩
  · rcases hk : v.asInt? with _ | k
    · rw [encode_of_asInt?_none ht hv hk] at hok
      cases hok
    · refine ⟨k, rfl, ?_⟩
      refine Decidable.byContradiction fun hfits => ?_
      rw [encode_of_asInt? ht hv hk, encodeInt_of_intWidth ht, if_neg hfits] at hok
      cases hok
  · obtain ⟨b, hb, -⟩ := hread k hk hfits
    rw [hb]
    rfl

/-- The least integer of two bytes, written in text with blanks around it. -/
theorem least_int2_written :
    ServerType.intWidth? .int2 = some 2 ∧ Value.hasIntView (.text " -32768 ") = true ∧
      (Value.text " -32768 ").asInt? = some (-32768) ∧ FitsBytes 2 (-32768) ∧
      ∃ b, encode .int2 (.text " -32768 ") = .ok (some b) ∧
        decode? .int2 b = some (.int (-32768)) := by
  have hk : (Value.text " -32768 ").asInt? = some (-32768) := by decide +kernel
  have hfits : FitsBytes 2 (-32768 : Int64).toInt := by decide
  exact ⟨rfl, rfl, hk, hfits, (integer_written_iff rfl rfl).2 _ hk hfits⟩

end SqlSession.Wire
