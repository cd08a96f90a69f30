/-
Each form is read as a value of its type.

A value is written in the form of the type that the server asks for, and a column of that type is
read by the reader of the same form.  One lemma for each type says what the reader makes of the
form: the value itself, or as much of it as the type holds.  Decimals come back with the same
normal form, a zero without its sign and places, and JSON comes back as far as its text is read.
-/
import SqlSession.Proofs.Text.Utf8
import SqlSession.Proofs.Value.Rebinding
import SqlSession.Proofs.Wire.Identifiers
import SqlSession.Proofs.Wire.Moments
import SqlSession.Proofs.Wire.Numerics

namespace SqlSession.Wire

/-! ### Numbers -/

/-- A double is its bits. -/
@[simp] theorem decode?_floatBytes (x : Binary64) :
    decode? .float8 (floatBytes x) = some (.float x) := by
  have hlength : (floatBytes x).length = 8 := length_bigEndian 8 _
  have hvalue : natOfBytes (floatBytes x) = x.bits.toNat := by
    unfold floatBytes
    rw [natOfBytes_bigEndian]
    exact Nat.mod_eq_of_lt x.bits.toNat_lt
  show (nat? 8 (floatBytes x)).map (fun n => Value.float ⟨UInt64.ofNat n⟩) = _
  rw [nat?, if_pos hlength, hvalue, Option.map_some, UInt64.ofNat_toNat]

/-- Four bytes are a number of single precision. -/
theorem isSome_decode?_float4 {b : Bytes} (h : b.length = 4) : (decode? .float4 b).isSome := by
  show ((nat? 4 b).map _).isSome = true
  rw [nat?, if_pos h]
  rfl

/-- Eight bytes are too many for one. -/
theorem decode?_float4_of_length_ne {b : Bytes} (h : b.length ≠ 4) : decode? .float4 b = none := by
  show (nat? 4 b).map _ = none
  rw [nat?, if_neg h]
  rfl

/-- A decimal is read as one with the same normal form. -/
theorem exists_decode?_numericBytes (d : Decimal) :
    ∃ e, decode? .numeric (numericBytes d) = some (.decimal e) ∧ e.toJson = d.toJson := by
  by_cases hzero : d.mantissa = 0
  · refine ⟨Decimal.zero false, ?_, (Decimal.toJson_of_zero hzero).symm⟩
    show (numeric? (numericBytes d)).map _ = _
    rw [numeric?_of_zero hzero]
    rfl
  · refine ⟨d, ?_, rfl⟩
    show (numeric? (numericBytes d)).map _ = _
    rw [numeric?_numericBytes hzero]
    rfl

/-! ### Texts -/

@[simp] theorem decode?_text (s : String) :
    decode? .text (textBytes .text s) = some (.text s) := by
  show (Text.ofUtf8? (Text.utf8Bytes s)).map _ = _
  rw [Text.ofUtf8?_utf8Bytes]
  rfl

@[simp] theorem decode?_varchar (s : String) :
    decode? .varchar (textBytes .varchar s) = some (.text s) := by
  show (Text.ofUtf8? (Text.utf8Bytes s)).map _ = _
  rw [Text.ofUtf8?_utf8Bytes]
  rfl

/-- Sixteen bytes are an identifier. -/
theorem decode?_uuid {b : Bytes} (h : b.length = 16) :
    decode? .uuid b = some (.text (uuidText b)) :=
  if_pos h

/-- JSON is read as far as its text is. -/
@[simp] theorem decode?_json (j : Json) :
    decode? .json (jsonBytes .json j) = (Json.parse? j.compact).map .json := by
  show ((Text.ofUtf8? (Text.utf8Bytes j.compact)).bind Json.parse?).map Value.json = _
  rw [Text.ofUtf8?_utf8Bytes]
  rfl

theorem jsonOf?_jsonBytes (j : Json) :
    jsonOf? .jsonb (jsonBytes .jsonb j) = Json.parse? j.compact := by
  show (if (1 : UInt8) = 1 then (Text.ofUtf8? (Text.utf8Bytes j.compact)).bind Json.parse?
    else none) = _
  rw [if_pos rfl, Text.ofUtf8?_utf8Bytes]
  rfl

@[simp] theorem decode?_jsonb (j : Json) :
    decode? .jsonb (jsonBytes .jsonb j) = (Json.parse? j.compact).map .json :=
  congrArg (Option.map Value.json) (jsonOf?_jsonBytes j)

/-! ### Dates and times -/

@[simp] theorem decode?_dateBytes (d : Date) : decode? .date (dateBytes d) = some (.date d) := by
  show (dateOf? (dateBytes d)).map _ = _
  rw [dateOf?_dateBytes]
  rfl

end SqlSession.Wire
