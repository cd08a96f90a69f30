/-
Which encodings a type accepts.

The server asks for a type, and what is written for a value should be a value of that type: the
reader of the type should take it.  `accepted_iff` says for every value and the types that values
have forms in where this is so.  A kind of value that has a form in the type is written in it, and
the form is accepted but in a few misfits: a decimal or a text in single precision, which is sent
as the eight bytes of a double, a leap second behind which no day follows, and JSON that is nested
too deep or holds a number whose text is out of range.  Every other value is written as if the
server had asked for the value's own type, and is then accepted only as far as those bytes happen
to be of the type.
-/
import SqlSession.Proofs.Json.Rereading
import SqlSession.Proofs.Wire.Forms

namespace SqlSession

/-! ### Forms -/

namespace Wire.ServerType

/-- The types that a parameter can be written in. -/
def isBound : ServerType → Bool
  | .bool | .int2 | .int4 | .int8 | .float4 | .float8 | .numeric | .text | .varchar | .date | .time
  | .timestamp | .timestamptz | .uuid | .json | .jsonb => true
  | _ => false

def isNumeric : ServerType → Bool
  | .int2 | .int4 | .int8 | .float4 | .float8 | .numeric => true
  | _ => false

/-- The types of days and of points in time. -/
def isMoment : ServerType → Bool
  | .date | .timestamp | .timestamptz => true
  | _ => false

end Wire.ServerType

/-- The kind of value has a form in the type. -/
def Value.hasForm (t : Wire.ServerType) : Value → Bool
  | .bool _ | .int _ => t == .bool || t.isNumeric || t.isText
  | .float _ | .decimal _ => t.isNumeric
  | .text _ | .clob _ => t != .time
  | .date _ | .timestamp _ | .timestampTz _ => t.isMoment
  | .time _ => t == .time
  | .json _ => t.isText || t == .json || t == .jsonb
  | .null | .bytes _ => false

/-- The point in time that a value is written as. -/
def Value.moment? : Value → Option Timestamp
  | .date d => some (.ofDate d)
  | .timestamp s | .timestampTz s => some s
  | .text s | .clob s => Timestamp.parse? s
  | _ => none

/-- The JSON that a value is written as. -/
def Value.document? : Value → Option Json
  | .json j => some j
  | .text s | .clob s => Json.parse? s
  | _ => none

/-- The text of the value is read: it is not nested too deep, and its numbers are in range. -/
def Json.Readable (j : Json) : Prop :=
  j.depth ≤ 127 ∧ ∀ n ∈ j.numbers, (JsonNumber.parse? n.text).isSome

/-- The form of the value in the type is no value of the type. -/
def Value.Misfit : Wire.ServerType → Value → Prop
  | .float4, .decimal _ | .float4, .text _ | .float4, .clob _ => True
  | .timestamp, v | .timestamptz, v => ∃ s, v.moment? = some s ∧ s.OutOfDays
  | .json, v | .jsonb, v => ∃ j, v.document? = some j ∧ ¬j.Readable
  | _, _ => False

namespace Wire

/-- The encoding of a value in its own type. -/
def ownBytes : Value → Bytes
  | .null => []
  | .bool b => signedBytes 8 (if b then 1 else 0)
  | .int n => signedBytes 8 n.toInt
  | .float x => floatBytes x
  | .decimal d => numericBytes d
  | .text s | .clob s => Text.utf8Bytes s
  | .date d => dateBytes d
  | .time c => clockBytes c
  | .timestamp s | .timestampTz s => timestampBytes s
  | .bytes b => b
  | .json j => Text.utf8Bytes j.compact

/-- What is written for the value is a value of the type. -/
def Accepted (t : ServerType) (v : Value) : Prop :=
  if v.hasForm t then ¬v.Misfit t else (decode? t (ownBytes v)).isSome

variable {t : ServerType} {v : Value} {b : Bytes}

/-! ### Without a form -/

/-- A value that has no form in the type is sent in its own encoding. -/
theorem eq_ownBytes (ht : t.isBound = true) (hform : v.hasForm t = false)
    (h : encode t v = .ok (some b)) : b = ownBytes v := by
  -- for each kind of value the types are those it has a form in and those that fall through
  cases v with
  | null => cases h
  | bytes b => cases h; rfl
  | bool x =>
      cases x <;> cases t <;> first | cases ht; done | cases hform; done | cases h; rfl
  | _ => cases t <;> first | cases ht; done | cases hform; done | cases h; rfl

/-! ### Forms of one width -/

theorem length_bool (hform : v.hasForm .bool = true) (h : encode .bool v = .ok (some b)) :
    b.length = 1 := by
  cases v with
  | bool x => cases h; rfl
  | int n => cases h; rfl
  | text s | clob s =>
      have hs : encodeText .bool s = .ok (some b) := h
      unfold encodeText at hs
      dsimp only at hs
      split at hs <;> cases hs
      rfl
  | _ => cases hform

theorem isSome_int {width : Nat} (ht : t.intWidth? = some width) (hform : v.hasForm t = true)
    (h : encode t v = .ok (some b)) : (decode? t b).isSome := by
  have hview : v.hasIntView = true := by
    cases v <;> first | rfl | (cases t <;> first | cases ht; done | cases hform)
  rcases hk : v.asInt? with _ | k
  · have hrefused := encode_of_asInt?_none ht hview hk
    rw [h] at hrefused
    cases hrefused
  · rw [encode_of_asInt? ht hview hk, encodeInt_of_intWidth ht] at h
    split at h
    next hfits =>
      cases h
      rw [decode?_of_intWidth ht, int?_signedBytes (intWidth_pos ht) hfits]
      rfl
    next => cases h

/-- A text is written as a double, also where single precision is asked for. -/
theorem exists_of_encodeText_float {s : String} (ht : t = .float4 ∨ t = .float8)
    (h : encodeText t s = .ok (some b)) : ∃ x, b = floatBytes x := by
  unfold encodeText at h
  rcases ht with rfl | rfl
  all_goals
    rcases hread : Binary64.parse? (Text.trimmed s) with _ | x <;> simp only [hread] at h <;> cases h
    exact ⟨x, rfl⟩

theorem exists_floatBytes (hform : v.hasForm .float8 = true)
    (h : encode .float8 v = .ok (some b)) : ∃ x, b = floatBytes x := by
  cases v with
  | bool | int | float | decimal => cases h; exact ⟨_, rfl⟩
  | text s | clob s =>
      have hs : encodeText .float8 s = .ok (some b) := h
      exact exists_of_encodeText_float (.inr rfl) hs
  | _ => cases hform

/-- Whether single precision is four bytes or eight is decided by the kind of the value. -/
theorem isSome_float4_iff (hform : v.hasForm .float4 = true)
    (h : encode .float4 v = .ok (some b)) : (decode? .float4 b).isSome ↔ ¬v.Misfit .float4 := by
  have hrefused {x : Binary64} (hb : b = floatBytes x) : ¬(decode? .float4 b).isSome := by
    have hlength : b.length ≠ 4 := by
      rw [hb]
      exact ne_of_eq_of_ne (length_bigEndian 8 _) (by decide)
    rw [decode?_float4_of_length_ne hlength]
    exact nofun
  cases v with
  | bool | int | float =>
      cases h
      exact iff_of_true (isSome_decode?_float4 (length_bigEndian 4 _)) id
  | decimal d =>
      cases h
      exact iff_of_false (hrefused rfl) fun hfit => hfit trivial
  | text s | clob s =>
      have hs : encodeText .float4 s = .ok (some b) := h
      obtain ⟨x, hb⟩ := exists_of_encodeText_float (.inl rfl) hs
      exact iff_of_false (hrefused hb) fun hfit => hfit trivial
  | _ => cases hform

theorem exists_numericBytes (hform : v.hasForm .numeric = true)
    (h : encode .numeric v = .ok (some b)) : ∃ d, b = numericBytes d := by
  cases v with
  | bool | int | decimal => cases h; exact ⟨_, rfl⟩
  | float x =>
      have hx : encodeFloat .numeric x = .ok (some b) := h
      unfold encodeFloat at hx
      rcases hread : Decimal.ofBinary64? x with _ | d <;> simp only [hread] at hx <;> cases hx
      exact ⟨d, rfl⟩
  | text s | clob s =>
      have hs : encodeText .numeric s = .ok (some b) := h
      unfold encodeText at hs
      rcases hread : Decimal.parse? (Text.trimmed s) with _ | d <;> simp only [hread] at hs <;>
        cases hs
      exact ⟨d, rfl⟩
  | _ => cases hform

/-! ### Texts -/

theorem exists_utf8Bytes (ht : t = .text ∨ t = .varchar) (hform : v.hasForm t = true)
    (h : encode t v = .ok (some b)) : ∃ s, b = Text.utf8Bytes s := by
  rcases ht with rfl | rfl
  all_goals
    cases v with
    | bool | int | text | clob | json => cases h; exact ⟨_, rfl⟩
    | _ => cases hform

theorem length_uuid (hform : v.hasForm .uuid = true) (h : encode .uuid v = .ok (some b)) :
    b.length = 16 := by
  cases v with
  | text s | clob s =>
      have hs : encodeText .uuid s = .ok (some b) := h
      unfold encodeText at hs
      rcases hread : uuidBytes? (Text.trimmed s) with _ | bytes <;> simp only [hread] at hs <;>
        cases hs
      exact length_of_uuidBytes? hread
  | _ => cases hform

/-! ### Days and points in time -/

theorem isSome_time (hform : v.hasForm .time = true) (h : encode .time v = .ok (some b)) :
    (decode? .time b).isSome := by
  cases v with
  | time c =>
      cases h
      show ((clockOf? (clockBytes c)).map Value.time).isSome
      rw [Option.isSome_map]
      exact isSome_clockOf? (length_signedBytes 8 _)
  | _ => cases hform

theorem exists_dateBytes (hform : v.hasForm .date = true) (h : encode .date v = .ok (some b)) :
    ∃ d, b = dateBytes d := by
  cases v with
  | date | timestamp | timestampTz => cases h; exact ⟨_, rfl⟩
  | text s | clob s =>
      have hs : encodeText .date s = .ok (some b) := h
      unfold encodeText at hs
      rcases hread : Date.parse? (Text.trim s.toList) with _ | d <;> simp only [hread] at hs <;>
        cases hs
      exact ⟨d, rfl⟩
  | _ => cases hform

/-- What is written in a type of points in time is the point that the value denotes. -/
theorem exists_timestampBytes (ht : t = .timestamp ∨ t = .timestamptz)
    (hform : v.hasForm t = true) (h : encode t v = .ok (some b)) :
    ∃ s, v.moment? = some s ∧ b = timestampBytes s := by
  rcases ht with rfl | rfl
  all_goals
    cases v with
    | date | timestamp | timestampTz => cases h; exact ⟨_, rfl, rfl⟩
    | text s | clob s =>
        have hs : encodeText .timestamp s = .ok (some b) := h
        unfold encodeText at hs
        rcases hread : Timestamp.parse? s with _ | m <;> simp only [hread] at hs <;> cases hs
        exact ⟨m, hread, rfl⟩
    | _ => cases hform

theorem isSome_timestamp_iff (ht : t = .timestamp ∨ t = .timestamptz)
    (hform : v.hasForm t = true) (h : encode t v = .ok (some b)) :
    (decode? t b).isSome ↔ ¬v.Misfit t := by
  obtain ⟨s, hs, rfl⟩ := exists_timestampBytes ht hform h
  have hmisfit : v.Misfit t ↔ s.OutOfDays := by
    rcases ht with rfl | rfl
    all_goals
      show (∃ s', v.moment? = some s' ∧ s'.OutOfDays) ↔ _
      rw [hs]
      simp
  have hread : (decode? t (timestampBytes s)).isSome = (timestampOf? (timestampBytes s)).isSome := by
    rcases ht with rfl | rfl <;> exact Option.isSome_map
  rw [hmisfit, hread, isSome_timestampOf?_timestampBytes]

/-! ### JSON -/

/-- What is written in a type of JSON is the JSON that the value denotes. -/
theorem exists_jsonBytes (ht : t = .json ∨ t = .jsonb) (hform : v.hasForm t = true)
    (h : encode t v = .ok (some b)) : ∃ j, v.document? = some j ∧ b = jsonBytes t j := by
  have htext {s : String} (hs : encodeText t s = .ok (some b)) :
      ∃ j, Json.parse? s = some j ∧ b = jsonBytes t j := by
    unfold encodeText at hs
    rcases ht with rfl | rfl
    all_goals
      rcases hread : Json.parse? s with _ | j <;> simp only [hread] at hs <;> cases hs
      exact ⟨j, rfl, rfl⟩
  cases v with
  | json j => rcases ht with rfl | rfl <;> cases h <;> exact ⟨j, rfl, rfl⟩
  | text s | clob s => exact htext h
  | _ => rcases ht with rfl | rfl <;> cases hform

theorem isSome_json_iff (ht : t = .json ∨ t = .jsonb) (hform : v.hasForm t = true)
    (h : encode t v = .ok (some b)) : (decode? t b).isSome ↔ ¬v.Misfit t := by
  obtain ⟨j, hj, rfl⟩ := exists_jsonBytes ht hform h
  have hmisfit : v.Misfit t ↔ ¬j.Readable := by
    rcases ht with rfl | rfl
    all_goals
      show (∃ j', v.document? = some j' ∧ ¬j'.Readable) ↔ _
      rw [hj]
      simp
  have hread : (decode? t (jsonBytes t j)).isSome = (Json.parse? j.compact).isSome := by
    rcases ht with rfl | rfl
    · rw [decode?_json, Option.isSome_map]
    · rw [decode?_jsonb, Option.isSome_map]
  rw [hmisfit, not_not, hread]
  exact Json.isSome_parse?_compact j

/-! ### Every type -/

/-- **Which encodings are accepted**: a value is written in a form of the type, or in its own
encoding where it has none, and no other bytes are sent for it. -/
theorem accepted_iff (ht : t.isBound = true) (h : encode t v = .ok (some b)) :
    (decode? t b).isSome ↔ Accepted t v := by
  unfold Accepted
  split
  next hform =>
    cases t with
    | bool =>
        refine iff_of_true ?_ id
        obtain ⟨x, rfl⟩ := List.length_eq_one_iff.mp (length_bool hform h)
        rfl
    | int2 | int4 | int8 => exact iff_of_true (isSome_int rfl hform h) id
    | float4 => exact isSome_float4_iff hform h
    | float8 =>
        obtain ⟨x, rfl⟩ := exists_floatBytes hform h
        exact iff_of_true (Option.isSome_of_eq_some (decode?_floatBytes x)) id
    | numeric =>
        obtain ⟨d, rfl⟩ := exists_numericBytes hform h
        obtain ⟨e, hread, -⟩ := exists_decode?_numericBytes d
        exact iff_of_true (Option.isSome_of_eq_some hread) id
    | text =>
        obtain ⟨s, rfl⟩ := exists_utf8Bytes (.inl rfl) hform h
        exact iff_of_true (Option.isSome_of_eq_some (decode?_text s)) id
    | varchar =>
        obtain ⟨s, rfl⟩ := exists_utf8Bytes (.inr rfl) hform h
        exact iff_of_true (Option.isSome_of_eq_some (decode?_varchar s)) id
    | date =>
        obtain ⟨d, rfl⟩ := exists_dateBytes hform h
        exact iff_of_true (Option.isSome_of_eq_some (decode?_dateBytes d)) id
    | time => exact iff_of_true (isSome_time hform h) id
    | timestamp => exact isSome_timestamp_iff (.inl rfl) hform h
    | timestamptz => exact isSome_timestamp_iff (.inr rfl) hform h
    | uuid =>
        exact iff_of_true (Option.isSome_of_eq_some (decode?_uuid (length_uuid hform h))) id
    | json => exact isSome_json_iff (.inl rfl) hform h
    | jsonb => exact isSome_json_iff (.inr rfl) hform h
    | _ => cases ht
  next hform => rw [eq_ownBytes ht (by simpa using hform) h]

theorem int2_five_accepted :
    ServerType.isBound .int2 = true ∧ encode .int2 (.int 5) = .ok (some [0, 5])
      ∧ (decode? .int2 [0, 5]).isSome := by
  have hwritten : encode .int2 (.int 5) = .ok (some [0, 5]) := by rfl
  exact ⟨rfl, hwritten, (accepted_iff rfl hwritten).mpr id⟩

/-- In single precision 1.5 is four bytes as a double and eight as a decimal, which are refused. -/
theorem decimal_sent_as_double :
    ∃ d : Decimal, d.text = "1.5" ∧ ServerType.isBound .float4 = true
      ∧ encode .float4 (.float d.toBinary64) = .ok (some [0x3F, 0xC0, 0, 0])
      ∧ encode .float4 (.decimal d) = .ok (some [0x3F, 0xF8, 0, 0, 0, 0, 0, 0])
      ∧ decode? .float4 [0x3F, 0xF8, 0, 0, 0, 0, 0, 0] = none := by
  refine ⟨⟨false, 15, 1, by decide, by decide⟩, ?_, rfl, ?_, ?_, ?_⟩
  · decide +kernel
  · decide +kernel
  · decide +kernel
  · exact decode?_float4_of_length_ne (by decide)

end Wire

end SqlSession
