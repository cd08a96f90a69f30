/-
Writing a record back.

A record that was read can be bound as parameters again: each of its values is a normal form, the
value made of that form is written in the type of the column, and what was written is read once
more.  `written_back_iff` says for the types that values of their own kinds are read from which
values come back in the same normal form.

Truth values, integers, doubles, texts, identifiers and timestamps always do.  A date never does,
because its normal form has a time of day that the reader of dates does not take, and neither do a
time, which is sent as text, and bytes, whose normal form is an array that is sent as text.  A
decimal does where the number in the record still stands for it after it has been a double; the
integers of 64 bits do not have to be one.  Of JSON only `null`, arrays and objects come back, and
those only if their doubles are read back from their own texts: the other values leave JSON when
they are bound, and the server gets their own bytes.
-/
import SqlSession.Proofs.Calendar.CanonicalText
import SqlSession.Proofs.Json.Lengths
import SqlSession.Proofs.Json.Rereading
import SqlSession.Proofs.Wire.Forms

namespace SqlSession

/-! ### The values that come back -/

/-- The decimal that a number or a text of a record is written as.  An integer of 64 bits is
written as itself, any other number by way of a double. -/
def Decimal.ofRecord? : Json → Option Decimal
  | .number n =>
    match n.toInt64? with
    | some k => some (Decimal.ofInt64 k)
    | none => Decimal.ofBinary64? n.toBinary64
  | .text s => Decimal.parse? (Text.trimmed s)
  | _ => none

/-- The number in the record still stands for the decimal when it is a decimal again. -/
def Decimal.Survives (d : Decimal) : Prop :=
  ∃ e, Decimal.ofRecord? d.toJson = some e ∧ e.toJson = d.toJson

instance (d : Decimal) : Decidable d.Survives :=
  match h : Decimal.ofRecord? d.toJson with
  | some e =>
    decidable_of_iff (e.toJson = d.toJson) ⟨fun hsame => ⟨e, h, hsame⟩, fun ⟨e', he', hsame⟩ => by
      rw [h] at he'
      cases he'
      exact hsame⟩
  | none => isFalse fun ⟨e, he, _⟩ => by
    rw [h] at he
    cases he

/-- The value is still JSON when it is bound, and its numbers are read back.  A double is not, but
its eight bytes could happen to be its own text with the version of the format in front. -/
def Json.Survives : Json → Prop
  | .null => True
  | .bool _ | .text _ | .number (.int ..) => False
  | .number (.double x h) => Wire.jsonOf? .jsonb (Wire.floatBytes x) = some (.number (.double x h))
  | j => ∀ n ∈ j.numbers, n.ReadsBack

instance : DecidablePred Json.Survives
  | .null => isTrue trivial
  | .bool _ | .text _ | .number (.int ..) => isFalse id
  | .number (.double x h) =>
    inferInstanceAs
      (Decidable (Wire.jsonOf? .jsonb (Wire.floatBytes x) = some (.number (.double x h))))
  | .array elements =>
    inferInstanceAs (Decidable (∀ n ∈ (Json.array elements).numbers,
      JsonNumber.parse? n.text = some n))
  | .object members =>
    inferInstanceAs (Decidable (∀ n ∈ (Json.object members).numbers,
      JsonNumber.parse? n.text = some n))

/-- The value comes back from a record. -/
def Value.Survives : Value → Prop
  | .date _ | .time _ | .bytes _ => False
  | .decimal d => d.Survives
  | .json j => j.Survives
  | _ => True

instance : DecidablePred Value.Survives
  | .date _ | .time _ | .bytes _ => isFalse id
  | .decimal d => inferInstanceAs (Decidable d.Survives)
  | .json j => inferInstanceAs (Decidable j.Survives)
  | .null | .bool _ | .int _ | .float _ | .text _ | .clob _ | .timestamp _ | .timestampTz _ =>
    isTrue trivial

namespace Wire

/-- The types of columns whose values a record is written back with. -/
def recordTypes : List ServerType :=
  [.bool, .int2, .int4, .int8, .float8, .numeric, .text, .date, .time, .timestamp, .timestamptz,
    .bytea, .uuid, .jsonb]

/-- The value is bound from its normal form, and what is written is read as a value of the same
normal form. -/
def WrittenBack (t : ServerType) (v : Value) : Prop :=
  ∃ cell, encode t (Value.ofJson v.normalize) = .ok cell ∧
    ∃ v', decodeCell? t cell = some v' ∧ v'.normalize = v.normalize

variable {t : ServerType} {v : Value} {b : Bytes}

/-! ### One type after the other -/

theorem writtenBack_iff_of_encode (h : encode t (Value.ofJson v.normalize) = .ok (some b)) :
    WrittenBack t v ↔ ∃ v', decode? t b = some v' ∧ v'.normalize = v.normalize := by
  unfold WrittenBack
  rw [h]
  exact ⟨fun ⟨cell, hcell, hread⟩ => by cases hcell; exact hread, fun hread => ⟨_, rfl, hread⟩⟩

theorem not_writtenBack_of_error {e : EncodeError}
    (h : encode t (Value.ofJson v.normalize) = .error e) : ¬WrittenBack t v := by
  rintro ⟨cell, hcell, -⟩
  rw [h] at hcell
  cases hcell

theorem writtenBack_null (t : ServerType) : WrittenBack t .null :=
  ⟨none, rfl, .null, rfl, rfl⟩

theorem writtenBack_bool (h : decode? .bool b = some v) : WrittenBack .bool v ∧ v.Survives := by
  obtain ⟨x, -, rfl⟩ := Option.map_eq_some_iff.mp h
  refine ⟨(writtenBack_iff_of_encode (b := [if x then 1 else 0]) rfl).mpr ⟨.bool x, ?_, rfl⟩,
    trivial⟩
  cases x <;> rfl

theorem ofJson_int (k : Int64) : Value.ofJson (.number (JsonNumber.ofInt64 k)) = .int k := by
  have hread : (JsonNumber.ofInt64 k).toInt64? = some k := by
    show (if k.toInt < 0x8000000000000000 then some (Int64.ofInt k.toInt) else none) = some k
    rw [if_pos (show k.toInt < 0x8000000000000000 from k.toInt_lt), Int64.ofInt_toInt]
  show (match (JsonNumber.ofInt64 k).toInt64? with
    | some i => Value.int i
    | none => Value.float (JsonNumber.ofInt64 k).toBinary64) = .int k
  rw [hread]

theorem writtenBack_int {width : Nat} (ht : t.intWidth? = some width)
    (h : decode? t b = some v) : WrittenBack t v ∧ v.Survives := by
  have hwidth := intWidth_pos ht
  rw [decode?_of_intWidth ht] at h
  obtain ⟨n, hn, rfl⟩ := Option.map_eq_some_iff.mp h
  have hfits := fitsBytes_of_int? hwidth hn
  have hk : (Int64.ofInt n).toInt = n := toInt_ofInt_of_fits (intWidth_le ht) hfits
  have hwritten : encode t (Value.ofJson (Value.int (Int64.ofInt n)).normalize)
      = .ok (some (signedBytes width n)) := by
    show encode t (Value.ofJson (.number (JsonNumber.ofInt64 (Int64.ofInt n)))) = _
    rw [ofJson_int]
    show encodeInt t (Int64.ofInt n) = _
    rw [encodeInt_of_intWidth ht, hk, if_pos hfits]
  refine ⟨(writtenBack_iff_of_encode hwritten).mpr ⟨.int (Int64.ofInt n), ?_, rfl⟩, trivial⟩
  rw [decode?_of_intWidth ht, int?_signedBytes hwidth hfits]
  rfl

theorem writtenBack_float8 (h : decode? .float8 b = some v) :
    WrittenBack .float8 v ∧ v.Survives := by
  obtain ⟨n, -, rfl⟩ := Option.map_eq_some_iff.mp h
  generalize (⟨UInt64.ofNat n⟩ : Binary64) = x
  refine ⟨?_, trivial⟩
  by_cases hfinite : x.isFinite = true
  · have hnormal : (Value.float x).normalize = .number (.double x hfinite) :=
      Binary64.toJson_of_finite hfinite
    refine (writtenBack_iff_of_encode (b := floatBytes x) ?_).mpr ⟨.float x, decode?_floatBytes x, rfl⟩
    rw [hnormal]
    rfl
  · have hinfinite : x.isFinite = false := by simpa using hfinite
    have hnormal : (Value.float x).normalize = .text x.plainText :=
      Binary64.toJson_of_not_finite hinfinite
    obtain ⟨y, hy, hsame⟩ := Binary64.parse?_plainText hinfinite
    refine (writtenBack_iff_of_encode (b := floatBytes y) ?_).mpr
      ⟨.float y, decode?_floatBytes y, hsame.trans hnormal.symm⟩
    rw [hnormal]
    show encodeText .float8 x.plainText = _
    unfold encodeText
    simp only [hy]
    rfl

theorem writtenBack_text (h : decode? .text b = some v) : WrittenBack .text v ∧ v.Survives := by
  obtain ⟨s, -, rfl⟩ := Option.map_eq_some_iff.mp h
  exact ⟨(writtenBack_iff_of_encode (b := textBytes .text s) rfl).mpr ⟨.text s, decode?_text s, rfl⟩,
    trivial⟩

theorem writtenBack_uuid (h : decode? .uuid b = some v) : WrittenBack .uuid v ∧ v.Survives := by
  have hlength : b.length = 16 := by
    rw [decode?] at h
    split at h
    · assumption
    · cases h
  rw [decode?_uuid hlength] at h
  cases h
  refine ⟨(writtenBack_iff_of_encode (b := b) ?_).mpr ⟨_, decode?_uuid hlength, rfl⟩, trivial⟩
  show encodeText .uuid (uuidText b) = _
  unfold encodeText
  simp only [uuidBytes?_uuidText hlength]
  rfl

/-- The reader of dates does not take the normal form of one. -/
theorem encode_normalized_date (d : Date) :
    encode .date (Value.ofJson (Value.date d).normalize) = .error .malformed := by
  show encodeText .date (Timestamp.ofDate d).millisText = _
  unfold encodeText
  simp only [Date.parse?_millisText]
  rfl

theorem not_writtenBack_date (h : decode? .date b = some v) :
    ¬WrittenBack .date v ∧ ¬v.Survives := by
  obtain ⟨d, -, rfl⟩ := Option.map_eq_some_iff.mp h
  exact ⟨not_writtenBack_of_error (encode_normalized_date d), id⟩

/-- A time in its canonical text has twelve bytes. -/
theorem not_writtenBack_time (h : decode? .time b = some v) :
    ¬WrittenBack .time v ∧ ¬v.Survives := by
  obtain ⟨c, -, rfl⟩ := Option.map_eq_some_iff.mp h
  have htwelve : (Text.utf8Bytes (String.ofList c.millisChars)).length = 12 := by
    rw [Text.length_utf8Bytes_of_ascii fun d hd => by
      have := Timestamp.toNat_lt_of_mem_millisChars hd
      omega]
    exact c.length_millisChars
  refine ⟨fun hback => ?_, id⟩
  have hwritten : encode .time (Value.ofJson (Value.time c).normalize)
      = .ok (some (Text.utf8Bytes (String.ofList c.millisChars))) := rfl
  obtain ⟨v', hread, -⟩ := (writtenBack_iff_of_encode hwritten).mp hback
  obtain ⟨c', hc', -⟩ := Option.map_eq_some_iff.mp hread
  rw [clockOf?_of_length_ne (by rw [htwelve]; decide)] at hc'
  cases hc'

/-- Between the brackets of an array there is a comma for every element but one. -/
theorem length_le_compactElements (elements : List Json) :
    elements.length ≤ (Json.compactElements elements).length + 1 := by
  induction elements with
  | nil => exact Nat.zero_le _
  | cons e rest ih =>
      cases rest with
      | nil => exact Nat.le_add_left 1 _
      | cons e' rest =>
          have hcomma : Json.compactElements (e :: e' :: rest)
              = e.compactChars ++ ',' :: Json.compactElements (e' :: rest) := by
            rw [Json.compactElements]
            intro hnil
            cases hnil
          have hlength := congrArg List.length hcomma
          rw [List.length_append, List.length_cons] at hlength
          rw [List.length_cons]
          omega

/-- An array has more characters than elements. -/
theorem length_lt_compact (elements : List Json) :
    elements.length < (Text.utf8Bytes (Json.array elements).compact).length := by
  have helements := length_le_compactElements elements
  have hchars := Text.length_le_length_utf8Bytes (Json.array elements).compactChars
  rw [Json.compactChars, List.length_cons, List.length_append, List.length_singleton] at hchars
  exact Nat.lt_of_lt_of_le (by omega) hchars

theorem not_writtenBack_bytea (h : decode? .bytea b = some v) :
    ¬WrittenBack .bytea v ∧ ¬v.Survives := by
  cases h
  refine ⟨fun hback => ?_, id⟩
  have hwritten : encode .bytea (Value.ofJson (Value.bytes b).normalize)
      = .ok (some (Text.utf8Bytes (Value.bytes b).normalize.compact)) := rfl
  obtain ⟨v', hread, hsame⟩ := (writtenBack_iff_of_encode hwritten).mp hback
  cases hread
  have hlength := congrArg List.length (Json.array.inj hsame)
  have hlonger := length_lt_compact
    (b.map fun n => Json.number (JsonNumber.ofInt64 (Int64.ofInt n.toNat)))
  rw [List.length_map, List.length_map] at hlength
  rw [List.length_map] at hlonger
  exact Nat.lt_irrefl _ (Nat.lt_of_lt_of_eq hlonger hlength)

/-- Timestamps of both types come back, cut to milliseconds as they are in the record. -/
theorem writtenBack_ofTimestamp (wrap : Timestamp → Value) (h : decode? t b = some v)
    (hread : ∀ b, decode? t b = (timestampOf? b).map wrap)
    (hnormal : ∀ s, (wrap s).normalize = .text s.millisText) (hsurvives : ∀ s, (wrap s).Survives)
    (hwrite : ∀ s, encodeText t s = encodeText .timestamp s) :
    WrittenBack t v ∧ v.Survives := by
  rw [hread] at h
  obtain ⟨s, hs, rfl⟩ := Option.map_eq_some_iff.mp h
  have hplain := (nanos_of_timestampOf? hs).1
  have hreread : s.reread = s.toMillis :=
    Timestamp.reread_of_not_stray fun hstray => absurd hstray.1 (Nat.not_le.mpr hplain)
  have hcut : timestampOf? (timestampBytes s.toMillis) = some s.toMillis := by
    refine timestampOf?_timestampBytes ?_ ?_
    · show s.clock.nanos / 1000000 * 1000000 < 1000000000
      omega
    · show s.clock.nanos / 1000000 * 1000000 % 1000 = 0
      omega
  have hwritten : encode t (Value.ofJson (wrap s).normalize)
      = .ok (some (timestampBytes s.toMillis)) := by
    rw [hnormal]
    show encodeText t s.millisText = _
    rw [hwrite]
    unfold encodeText
    simp only [Timestamp.parse?_millisText, hreread]
    rfl
  refine ⟨(writtenBack_iff_of_encode hwritten).mpr ⟨wrap s.toMillis, ?_, ?_⟩, hsurvives s⟩
  · rw [hread, hcut]
    rfl
  · rw [hnormal, hnormal, ← hreread, s.millisText_reread]

/-! ### Decimals -/

theorem ofJson_of_toInt64?_none {n : JsonNumber} (h : n.toInt64? = none) :
    Value.ofJson (.number n) = .float n.toBinary64 := by
  show (match n.toInt64? with
    | some i => Value.int i
    | none => Value.float n.toBinary64) = _
  rw [h]

theorem eq_ofInt64_of_toInt64? {n : JsonNumber} {k : Int64} (h : n.toInt64? = some k) :
    n = JsonNumber.ofInt64 k := by
  cases n with
  | double => cases h
  | int n hle hlt =>
      unfold JsonNumber.toInt64? at h
      dsimp only at h
      split at h
      next hsmall =>
        have htoInt : (Int64.ofInt n).toInt = n := Int64.toInt_ofInt_of_le hle hsmall
        cases h
        unfold JsonNumber.ofInt64
        simp only [htoInt]
      next => cases h

theorem ofRecord?_of_toInt64? {n : JsonNumber} {k : Int64} (h : n.toInt64? = some k) :
    Decimal.ofRecord? (.number n) = some (Decimal.ofInt64 k) := by
  simp only [Decimal.ofRecord?, h]

theorem ofRecord?_of_toInt64?_none {n : JsonNumber} (h : n.toInt64? = none) :
    Decimal.ofRecord? (.number n) = Decimal.ofBinary64? n.toBinary64 := by
  simp only [Decimal.ofRecord?, h]

/-- A number of a record is written as the decimal that it is read as, if it is one. -/
theorem encode_number (n : JsonNumber) :
    (encode .numeric (Value.ofJson (.number n))).toOption
      = (Decimal.ofRecord? (.number n)).map fun e => some (numericBytes e) := by
  rcases hk : n.toInt64? with _ | k
  · rw [ofRecord?_of_toInt64?_none hk, ofJson_of_toInt64?_none hk]
    show (encodeFloat .numeric n.toBinary64).toOption = _
    unfold encodeFloat
    cases Decimal.ofBinary64? n.toBinary64 <;> rfl
  · rw [ofRecord?_of_toInt64? hk, eq_ofInt64_of_toInt64? hk, ofJson_int]
    rfl

/-- So is a text. -/
theorem encode_numericText (s : String) :
    (encode .numeric (Value.ofJson (.text s))).toOption
      = (Decimal.ofRecord? (.text s)).map fun e => some (numericBytes e) := by
  show (encodeText .numeric s).toOption = (Decimal.parse? (Text.trimmed s)).map _
  unfold encodeText
  cases Decimal.parse? (Text.trimmed s) <;> rfl

theorem encode_toJson (d : Decimal) :
    (encode .numeric (Value.ofJson (Value.decimal d).normalize)).toOption
      = (Decimal.ofRecord? d.toJson).map fun e => some (numericBytes e) := by
  show (encode .numeric (Value.ofJson d.toJson)).toOption = _
  rcases hn : JsonNumber.parse? d.normalize.text with _ | n
  · have htext : d.toJson = .text d.normalize.text := by simp only [Decimal.toJson, hn]
    rw [htext, encode_numericText]
  · have hnumber : d.toJson = .number n := by simp only [Decimal.toJson, hn]
    rw [hnumber, encode_number]

/-- **A decimal comes back** where the number in the record still stands for it. -/
theorem writtenBack_numeric_iff (h : decode? .numeric b = some v) :
    WrittenBack .numeric v ↔ v.Survives := by
  obtain ⟨d, -, rfl⟩ := Option.map_eq_some_iff.mp h
  show _ ↔ d.Survives
  unfold Decimal.Survives
  have hwrites := encode_toJson d
  rcases hencoded : encode .numeric (Value.ofJson (Value.decimal d).normalize) with err | cell
  · rw [hencoded] at hwrites
    have hnone : Decimal.ofRecord? d.toJson = none := Option.map_eq_none_iff.mp hwrites.symm
    rw [hnone]
    exact iff_of_false (not_writtenBack_of_error hencoded) nofun
  · rw [hencoded] at hwrites
    obtain ⟨e, hread, rfl⟩ := Option.map_eq_some_iff.mp hwrites.symm
    obtain ⟨e', hread', hsame⟩ := exists_decode?_numericBytes e
    rw [writtenBack_iff_of_encode hencoded, hread, hread']
    constructor
    · rintro ⟨v', hv', hnormal⟩
      cases hv'
      exact ⟨e, rfl, hsame.symm.trans hnormal⟩
    · rintro ⟨e₁, he₁, hnormal⟩
      cases he₁
      exact ⟨_, rfl, hsame.trans hnormal⟩

-- a tenth does; the largest decimal is read as a double that is too large for a decimal
example : Decimal.Survives ⟨false, 1, 1, by decide, by decide⟩ ∧
    ¬Decimal.Survives ⟨false, 79228162514264337593543950335, 0, by decide, by decide⟩ := by
  decide +kernel

/-! ### JSON -/

theorem exists_of_jsonOf? {j : Json} (h : jsonOf? .jsonb b = some j) :
    ∃ rest s, b = 1 :: rest ∧ Text.ofUtf8? rest = some s ∧ Json.parse? s = some j := by
  cases b with
  | nil => cases h
  | cons version rest =>
      unfold jsonOf? at h
      dsimp only at h
      split at h
      next hversion =>
        obtain ⟨s, hs, hparse⟩ := Option.bind_eq_some_iff.mp h
        exact ⟨rest, s, by rw [hversion], hs, hparse⟩
      next => cases h

/-- Eight bytes that are read as an integer have a first byte of their own and at most seven
digits. -/
theorem natAbs_of_jsonOf? {n : Int} {hle : -0x8000000000000000 ≤ n}
    {hlt : n < 0x10000000000000000} (hlength : b.length = 8)
    (h : jsonOf? .jsonb b = some (.number (.int n hle hlt))) :
    n.natAbs < 10000000 ∧ 256 ^ 7 ≤ natOfBytes b ∧ natOfBytes b < 2 * 256 ^ 7 := by
  obtain ⟨rest, s, rfl, hs, hparse⟩ := exists_of_jsonOf? h
  have hrest : rest.length = 7 := Nat.succ.inj hlength
  have hchars := Text.length_le_of_ofUtf8? hs
  have hlow := natOfBytes_lt rest
  have hfirst : natOfBytes (1 :: rest) = 1 * Nat.pow 256 7 + natOfBytes rest := by
    rw [natOfBytes_cons, hrest]
    rfl
  rw [hrest] at hchars hlow
  have hdigits : n.natAbs < 10 ^ 7 :=
    Nat.lt_of_lt_of_le (Json.natAbs_of_parse?_int hparse) (Nat.pow_le_pow_right (by decide) hchars)
  have hpow : Nat.pow 256 7 = 256 ^ 7 := rfl
  omega

theorem writtenBack_json_iff {j : Json} (h : encode .jsonb (Value.ofJson j) = .ok (some b)) :
    WrittenBack .jsonb (.json j) ↔ jsonOf? .jsonb b = some j := by
  rw [writtenBack_iff_of_encode (v := .json j) h]
  refine ⟨fun ⟨v', hread, hsame⟩ => ?_, fun hread => ⟨.json j, ?_, rfl⟩⟩
  · obtain ⟨j', hj', rfl⟩ := Option.map_eq_some_iff.mp hread
    rw [hj']
    exact congrArg some hsame
  · show (jsonOf? .jsonb b).map Value.json = _
    rw [hread]
    rfl

/-- An integer is bound as one, or as a double. -/
theorem not_writtenBack_json_int (n : Int) (hle : -0x8000000000000000 ≤ n)
    (hlt : n < 0x10000000000000000) :
    ¬WrittenBack .jsonb (.json (.number (.int n hle hlt))) := by
  intro hback
  rcases hk : (JsonNumber.int n hle hlt).toInt64? with _ | k
  · have hwritten : encode .jsonb (Value.ofJson (.number (.int n hle hlt)))
        = .ok (some (floatBytes (Binary64.ofInt n))) := by
      rw [ofJson_of_toInt64?_none hk]
      rfl
    have hread := (writtenBack_json_iff hwritten).mp hback
    have hdigits := (natAbs_of_jsonOf? (length_bigEndian 8 _) hread).1
    unfold JsonNumber.toInt64? at hk
    dsimp only at hk
    split at hk
    · cases hk
    · omega
  · have hwritten : encode .jsonb (Value.ofJson (.number (.int n hle hlt)))
        = .ok (some (signedBytes 8 k.toInt)) := by
      rw [eq_ofInt64_of_toInt64? hk, ofJson_int]
      rfl
    have hread := (writtenBack_json_iff hwritten).mp hback
    obtain ⟨hdigits, hfirst, hsecond⟩ := natAbs_of_jsonOf? (length_signedBytes 8 _) hread
    have hn : n = k.toInt := (JsonNumber.int.inj (eq_ofInt64_of_toInt64? hk))
    rw [natOfBytes_signedBytes, ← hn] at hfirst hsecond
    have hpow : Nat.pow 256 8 = 18446744073709551616 := rfl
    rw [hpow] at hfirst hsecond
    omega

/-- Only a text's own text is read as one. -/
theorem eq_text_of_parse?_compact {j : Json} {s : String}
    (h : Json.parse? j.compact = some (.text s)) : j = .text s := by
  unfold Json.parse? at h
  rw [Json.Document.parse?_compact, Option.bind_some] at h
  obtain ⟨pieces, htree, hs⟩ := Json.text_of_ofDocument? h
  cases j with
  | text t =>
      cases htree
      rw [Json.textOfPieces?_pieces] at hs
      rw [Option.some.inj hs]
  | _ => cases htree

/-- A text is bound as one, and its own text has quotes around it. -/
theorem not_writtenBack_json_text (s : String) : ¬WrittenBack .jsonb (.json (.text s)) := by
  intro hback
  rcases hj : Json.parse? s with _ | j
  · refine not_writtenBack_of_error (e := .malformed) ?_ hback
    show encodeText .jsonb s = _
    unfold encodeText
    simp only [hj]
    rfl
  · have hwritten : encode .jsonb (Value.ofJson (.text s)) = .ok (some (jsonBytes .jsonb j)) := by
      show encodeText .jsonb s = _
      unfold encodeText
      simp only [hj]
      rfl
    have hread := (writtenBack_json_iff hwritten).mp hback
    rw [jsonOf?_jsonBytes] at hread
    rw [eq_text_of_parse?_compact hread] at hj
    have := Json.length_of_parse?_text hj
    omega

/-- **JSON comes back** where it is still JSON when it is bound. -/
theorem writtenBack_jsonb_iff (h : decode? .jsonb b = some v) :
    WrittenBack .jsonb v ↔ v.Survives := by
  obtain ⟨j, hj, rfl⟩ := Option.map_eq_some_iff.mp h
  show _ ↔ j.Survives
  obtain ⟨rest, s, -, -, hs⟩ := exists_of_jsonOf? hj
  cases j with
  | null => exact iff_of_true ⟨none, rfl, .null, rfl, rfl⟩ trivial
  | bool x =>
      have hwritten : encode .jsonb (Value.ofJson (.bool x))
          = .ok (some (signedBytes 8 (if x then 1 else 0 : Int64).toInt)) := rfl
      refine iff_of_false (fun hback => ?_) id
      have hread := (writtenBack_json_iff hwritten).mp hback
      cases x <;> cases hread
  | number n =>
      cases n with
      | int n hle hlt => exact iff_of_false (not_writtenBack_json_int n hle hlt) id
      | double x hfinite => exact writtenBack_json_iff (b := floatBytes x) rfl
  | text t => exact iff_of_false (not_writtenBack_json_text t) id
  | array elements =>
      rw [writtenBack_json_iff (b := jsonBytes .jsonb (.array elements)) rfl, jsonOf?_jsonBytes]
      exact Json.parse?_compact_iff hs
  | object members =>
      rw [writtenBack_json_iff (b := jsonBytes .jsonb (.object members)) rfl, jsonOf?_jsonBytes]
      exact Json.parse?_compact_iff hs

/-! ### Every type -/

/-- **Writing a record back**: of the values read from a column, exactly those that survive are
written from their normal form as values of the same normal form. -/
theorem written_back_iff (ht : t ∈ recordTypes) {cell : Option Bytes}
    (h : decodeCell? t cell = some v) : WrittenBack t v ↔ v.Survives := by
  rcases cell with _ | b
  · cases h
    exact iff_of_true (writtenBack_null t) trivial
  · have hread : decode? t b = some v := h
    cases t with
    | bool => exact (writtenBack_bool hread).elim iff_of_true
    | int2 | int4 | int8 => exact (writtenBack_int rfl hread).elim iff_of_true
    | float8 => exact (writtenBack_float8 hread).elim iff_of_true
    | numeric => exact writtenBack_numeric_iff hread
    | text => exact (writtenBack_text hread).elim iff_of_true
    | date => exact (not_writtenBack_date hread).elim iff_of_false
    | time => exact (not_writtenBack_time hread).elim iff_of_false
    | timestamp =>
        exact (writtenBack_ofTimestamp .timestamp hread (fun _ => rfl) (fun _ => rfl)
          (fun _ => trivial) fun _ => rfl).elim iff_of_true
    | timestamptz =>
        exact (writtenBack_ofTimestamp .timestampTz hread (fun _ => rfl) (fun _ => rfl)
          (fun _ => trivial) fun _ => rfl).elim iff_of_true
    | bytea => exact (not_writtenBack_bytea hread).elim iff_of_false
    | uuid => exact (writtenBack_uuid hread).elim iff_of_true
    | jsonb => exact writtenBack_jsonb_iff hread
    | _ => simp [recordTypes] at ht

theorem int4_five_written_back :
    .int4 ∈ recordTypes ∧ decodeCell? .int4 (some [0, 0, 0, 5]) = some (.int 5)
      ∧ WrittenBack .int4 (.int 5) := by
  have ht : .int4 ∈ recordTypes := by decide
  have hint : int? 4 [0, 0, 0, 5] = some 5 := by decide
  have hread : decodeCell? .int4 (some [0, 0, 0, 5]) = some (.int 5) := by
    show decode? .int4 [0, 0, 0, 5] = _
    rw [decode?_of_intWidth rfl, hint]
    rfl
  exact ⟨ht, hread, (written_back_iff ht hread).mpr trivial⟩

/-- The fourteenth of August 2020 is bound with its time of day, which is no date. -/
theorem date_not_written_back :
    .date ∈ recordTypes ∧
      ∃ v, decodeCell? .date (some [0, 0, 0x1D, 0x6B]) = some v
        ∧ v.normalize = .text "2020-08-14 00:00:00.000"
        ∧ encode .date (Value.ofJson v.normalize) = .error .malformed
        ∧ ¬WrittenBack .date v := by
  let d : Date := ⟨2020, 8, 14, by decide, by decide, by decide, by decide, by decide, by decide⟩
  have hbytes : dateBytes d = [0, 0, 0x1D, 0x6B] := by decide
  have hread : decode? .date [0, 0, 0x1D, 0x6B] = some (.date d) := by
    rw [← hbytes, decode?_dateBytes]
  refine ⟨by decide, .date d, hread, ?_, encode_normalized_date d, (not_writtenBack_date hread).1⟩
  show Json.text (Timestamp.ofDate d).millisText = _
  decide

end Wire

end SqlSession
