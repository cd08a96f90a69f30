/-
Text through its bytes.

The bytes of a text are those of its characters one after the other, and the reader of bytes is
between two characters again behind each of them: `decodeFrom_encoded`.  There is a case for each
length that a character has in bytes, and in each the second byte lies in the range that the
first one leaves it, because the character is neither shorter than its bytes nor half of a pair.
So every text is read back from its bytes, `ofUtf8?_utf8Bytes`.
-/
import SqlSession.Text.Utf8

namespace SqlSession.Text

variable {c : Char} {rest : List UInt8}

/-! ### The bytes of a text -/

theorem toList_loop (b : ByteArray) (i : Nat) (read : List UInt8) :
    ByteArray.toList.loop b i read = read.reverse ++ b.data.toList.drop i := by
  rw [ByteArray.toList.loop]
  split
  next h =>
    have hlt : i < b.data.toList.length := by
      rw [Array.length_toList]
      exact h
    have hget : b.get! i = b.data.toList[i] := by
      show b.data[i]! = _
      rw [getElem!_pos b.data i h]
      rfl
    rw [toList_loop b (i + 1), List.drop_eq_getElem_cons hlt, hget, List.reverse_cons,
      List.append_assoc]
    rfl
  next h =>
    rw [List.drop_eq_nil_of_le, List.append_nil]
    rw [Array.length_toList]
    exact Nat.le_of_not_lt h
termination_by b.size - i

theorem utf8Bytes_ofList (cs : List Char) :
    utf8Bytes (String.ofList cs) = cs.flatMap String.utf8EncodeChar := by
  have hdata : ∀ l : List UInt8, l.toByteArray.toList = l := by
    intro l
    rw [ByteArray.toList, toList_loop, List.reverse_nil, List.nil_append, List.drop_zero,
      List.data_toByteArray]
  unfold utf8Bytes
  rw [String.toUTF8_eq_toByteArray, String.toByteArray_ofList, List.utf8Encode, hdata]

/-! ### Reading a character -/

theorem decodeFrom_char {b : UInt8} (h : firstByte b.toNat = .char c) :
    decodeFrom none (b :: rest) = some c :: decodeFrom none rest := by
  rw [decodeFrom, h]

theorem decodeFrom_lead {b : UInt8} {p : PartialChar} (h : firstByte b.toNat = .lead p) :
    decodeFrom none (b :: rest) = decodeFrom (some p) rest := by
  rw [decodeFrom, h]

/-- The last byte of a character. -/
theorem decodeFrom_last {b : UInt8} {p : PartialChar} {n : Nat} (hb : b.toNat = n)
    (hrange : p.low ≤ n ∧ n ≤ p.high) (hmissing : p.missing = 1) :
    decodeFrom (some p) (b :: rest) =
      some (Char.ofNat (p.code * 64 + (n - 0x80))) :: decodeFrom none rest := by
  subst hb
  rw [decodeFrom]
  simp only [if_pos hrange, if_pos hmissing]

/-- A byte inside of a character. -/
theorem decodeFrom_inside {b : UInt8} {p : PartialChar} {n : Nat} (hb : b.toNat = n)
    (hrange : p.low ≤ n ∧ n ≤ p.high) (hmissing : p.missing ≠ 1) :
    decodeFrom (some p) (b :: rest) =
      decodeFrom (some ⟨p.code * 64 + (n - 0x80), p.missing - 1, 0x80, 0xBF⟩) rest := by
  subst hb
  rw [decodeFrom]
  simp only [if_pos hrange, if_neg hmissing]

/-- A code point is no half of a pair. -/
theorem code_valid (c : Char) :
    c.toNat < 0xD800 ∨ 0xDFFF < c.toNat ∧ c.toNat < 0x110000 :=
  c.valid

theorem decodeFrom_encoded_two (h : 0x7F < c.toNat) (h' : c.toNat ≤ 0x7FF) :
    decodeFrom none (UInt8.ofNat (c.toNat / 64 % 32 + 192) :: UInt8.ofNat (c.toNat % 64 + 128) ::
      rest) = some c :: decodeFrom none rest := by
  have hfirst : firstByte (UInt8.ofNat (c.toNat / 64 % 32 + 192)).toNat =
      .lead ⟨c.toNat / 64, 1, 0x80, 0xBF⟩ := by
    have hcode : (c.toNat / 64 % 32 + 192) % 2 ^ 8 - 0xC0 = c.toNat / 64 := by omega
    rw [UInt8.toNat_ofNat', firstByte, if_neg (by omega), if_pos (by omega), hcode]
  rw [decodeFrom_lead hfirst,
    decodeFrom_last (n := c.toNat % 64 + 128) (by rw [UInt8.toNat_ofNat']; omega) (by
      show 0x80 ≤ _ ∧ _ ≤ 0xBF
      omega) rfl]
  have hcode : c.toNat / 64 * 64 + (c.toNat % 64 + 128 - 0x80) = c.toNat := by omega
  show some (Char.ofNat (c.toNat / 64 * 64 + (c.toNat % 64 + 128 - 0x80))) :: _ = _
  rw [hcode, Char.ofNat_toNat]

/-- The first of three bytes, with the range that it leaves the second. -/
theorem exists_lead_three (h : 0x7FF < c.toNat) (h' : c.toNat ≤ 0xFFFF) :
    ∃ p, firstByte (UInt8.ofNat (c.toNat / 4096 % 16 + 224)).toNat = .lead p ∧
      p.code = c.toNat / 4096 ∧ p.missing = 2 ∧
        p.low ≤ c.toNat / 64 % 64 + 128 ∧ c.toNat / 64 % 64 + 128 ≤ p.high := by
  have hvalid := code_valid c
  rw [UInt8.toNat_ofNat', firstByte, if_neg (by omega), if_neg (by omega)]
  by_cases hE0 : c.toNat / 4096 = 0
  · rw [if_pos (by omega)]
    refine ⟨_, rfl, hE0.symm, rfl, ?_⟩
    show 0xA0 ≤ _ ∧ _ ≤ 0xBF
    omega
  rw [if_neg (by omega)]
  by_cases hED : c.toNat / 4096 = 13
  · rw [if_pos (by omega)]
    refine ⟨_, rfl, hED.symm, rfl, ?_⟩
    show 0x80 ≤ _ ∧ _ ≤ 0x9F
    omega
  rw [if_neg (by omega), if_pos (by omega)]
  refine ⟨_, rfl, ?_, rfl, ?_⟩
  · show (c.toNat / 4096 % 16 + 224) % 256 - 0xE0 = _
    omega
  · show 0x80 ≤ _ ∧ _ ≤ 0xBF
    omega

theorem decodeFrom_encoded_three (h : 0x7FF < c.toNat) (h' : c.toNat ≤ 0xFFFF) :
    decodeFrom none (UInt8.ofNat (c.toNat / 4096 % 16 + 224) ::
      UInt8.ofNat (c.toNat / 64 % 64 + 128) :: UInt8.ofNat (c.toNat % 64 + 128) :: rest) =
        some c :: decodeFrom none rest := by
  obtain ⟨p, hp, hcode, hmissing, hrange⟩ := exists_lead_three h h'
  rw [decodeFrom_lead hp,
    decodeFrom_inside (n := c.toNat / 64 % 64 + 128) (by rw [UInt8.toNat_ofNat']; omega) hrange
      (by omega), hcode, hmissing,
    decodeFrom_last (n := c.toNat % 64 + 128) (by rw [UInt8.toNat_ofNat']; omega) (by
      show 0x80 ≤ _ ∧ _ ≤ 0xBF
      omega) rfl]
  have hvalue : (c.toNat / 4096 * 64 + (c.toNat / 64 % 64 + 128 - 0x80)) * 64 +
      (c.toNat % 64 + 128 - 0x80) = c.toNat := by omega
  show some (Char.ofNat ((c.toNat / 4096 * 64 + (c.toNat / 64 % 64 + 128 - 0x80)) * 64 +
    (c.toNat % 64 + 128 - 0x80))) :: _ = _
  rw [hvalue, Char.ofNat_toNat]

/-- The first of four bytes, with the range that it leaves the second. -/
theorem exists_lead_four (h : 0xFFFF < c.toNat) :
    ∃ p, firstByte (UInt8.ofNat (c.toNat / 262144 % 8 + 240)).toNat = .lead p ∧
      p.code = c.toNat / 262144 ∧ p.missing = 3 ∧
        p.low ≤ c.toNat / 4096 % 64 + 128 ∧ c.toNat / 4096 % 64 + 128 ≤ p.high := by
  have hvalid := code_valid c
  rw [UInt8.toNat_ofNat', firstByte, if_neg (by omega), if_neg (by omega), if_neg (by omega),
    if_neg (by omega), if_neg (by omega)]
  by_cases hF0 : c.toNat / 262144 = 0
  · rw [if_pos (by omega)]
    refine ⟨_, rfl, hF0.symm, rfl, ?_⟩
    show 0x90 ≤ _ ∧ _ ≤ 0xBF
    omega
  rw [if_neg (by omega)]
  by_cases hF4 : c.toNat / 262144 = 4
  · rw [if_pos (by omega)]
    refine ⟨_, rfl, hF4.symm, rfl, ?_⟩
    show 0x80 ≤ _ ∧ _ ≤ 0x8F
    omega
  rw [if_neg (by omega), if_pos (by omega)]
  refine ⟨_, rfl, ?_, rfl, ?_⟩
  · show (c.toNat / 262144 % 8 + 240) % 256 - 0xF0 = _
    omega
  · show 0x80 ≤ _ ∧ _ ≤ 0xBF
    omega

theorem decodeFrom_encoded_four (h : 0xFFFF < c.toNat) :
    decodeFrom none (UInt8.ofNat (c.toNat / 262144 % 8 + 240) ::
      UInt8.ofNat (c.toNat / 4096 % 64 + 128) :: UInt8.ofNat (c.toNat / 64 % 64 + 128) ::
        UInt8.ofNat (c.toNat % 64 + 128) :: rest) = some c :: decodeFrom none rest := by
  obtain ⟨p, hp, hcode, hmissing, hrange⟩ := exists_lead_four h
  have hvalid := code_valid c
  rw [decodeFrom_lead hp,
    decodeFrom_inside (n := c.toNat / 4096 % 64 + 128) (by rw [UInt8.toNat_ofNat']; omega)
      hrange (by omega), hcode, hmissing,
    decodeFrom_inside (n := c.toNat / 64 % 64 + 128) (by rw [UInt8.toNat_ofNat']; omega) (by
      show 0x80 ≤ _ ∧ _ ≤ 0xBF
      omega) (show 3 - 1 ≠ 1 by decide),
    decodeFrom_last (n := c.toNat % 64 + 128) (by rw [UInt8.toNat_ofNat']; omega) (by
      show 0x80 ≤ _ ∧ _ ≤ 0xBF
      omega) rfl]
  have hvalue : ((c.toNat / 262144 * 64 + (c.toNat / 4096 % 64 + 128 - 0x80)) * 64 +
      (c.toNat / 64 % 64 + 128 - 0x80)) * 64 + (c.toNat % 64 + 128 - 0x80) = c.toNat := by omega
  show some (Char.ofNat (((c.toNat / 262144 * 64 + (c.toNat / 4096 % 64 + 128 - 0x80)) * 64 +
    (c.toNat / 64 % 64 + 128 - 0x80)) * 64 + (c.toNat % 64 + 128 - 0x80))) :: _ = _
  rw [hvalue, Char.ofNat_toNat]

/-- Behind the bytes of a character the reader is between two characters again. -/
theorem decodeFrom_encoded (c : Char) (rest : List UInt8) :
    decodeFrom none (String.utf8EncodeChar c ++ rest) = some c :: decodeFrom none rest := by
  rw [String.utf8EncodeChar.eq_1]
  show decodeFrom none ((if c.toNat ≤ 127 then _ else if c.toNat ≤ 2047 then _ else
    if c.toNat ≤ 65535 then _ else _) ++ rest) = _
  by_cases hone : c.toNat ≤ 0x7F
  · rw [if_pos hone]
    refine decodeFrom_char ?_
    rw [UInt8.toNat_ofNat']
    show firstByte (c.toNat % 2 ^ 8) = _
    rw [Nat.mod_eq_of_lt (by omega), firstByte, if_pos (by omega), Char.ofNat_toNat]
  rw [if_neg hone]
  by_cases htwo : c.toNat ≤ 0x7FF
  · rw [if_pos htwo]
    exact decodeFrom_encoded_two (by omega) htwo
  rw [if_neg htwo]
  by_cases hthree : c.toNat ≤ 0xFFFF
  · rw [if_pos hthree]
    exact decodeFrom_encoded_three (by omega) hthree
  · rw [if_neg hthree]
    exact decodeFrom_encoded_four (by omega)

/-- Every text is read back from its bytes. -/
@[simp] theorem ofUtf8?_utf8Bytes (s : String) : ofUtf8? (utf8Bytes s) = some s := by
  have hdecode : ∀ cs : List Char,
      decodeFrom none (cs.flatMap String.utf8EncodeChar) = cs.map some := by
    intro cs
    induction cs with
    | nil => rfl
    | cons c cs ih => rw [List.flatMap_cons, decodeFrom_encoded, ih, List.map_cons]
  have hall : ∀ cs : List Char, (cs.map some).mapM id = some cs := by
    intro cs
    induction cs with
    | nil => rfl
    | cons c cs ih =>
        rw [List.map_cons, List.mapM_cons, ih]
        rfl
  rw [← String.ofList_toList (s := s), utf8Bytes_ofList, ofUtf8?, hdecode, hall]
  rfl

/-! ### Lengths -/

theorem length_utf8Bytes_cons (c : Char) (cs : List Char) :
    (utf8Bytes (String.ofList (c :: cs))).length
      = c.utf8Size + (utf8Bytes (String.ofList cs)).length := by
  rw [utf8Bytes_ofList, utf8Bytes_ofList, List.flatMap_cons, List.length_append,
    String.length_utf8EncodeChar]

/-- Every character has a byte of its own. -/
theorem length_le_length_utf8Bytes (cs : List Char) :
    cs.length ≤ (utf8Bytes (String.ofList cs)).length := by
  induction cs with
  | nil => exact Nat.zero_le _
  | cons c cs ih =>
      have := c.utf8Size_pos
      rw [List.length_cons, length_utf8Bytes_cons]
      omega

/-- The characters of the first half of the bytes have no more than that. -/
theorem length_utf8Bytes_of_ascii {cs : List Char} (h : ∀ c ∈ cs, c.toNat < 128) :
    (utf8Bytes (String.ofList cs)).length = cs.length := by
  induction cs with
  | nil =>
      rw [utf8Bytes_ofList]
      rfl
  | cons c cs ih =>
      have hc : c.toNat < 128 := h c (List.mem_cons_self ..)
      have hone : c.utf8Size = 1 := Char.utf8Size_eq_one_iff.mpr (Nat.le_of_lt_succ hc)
      rw [length_utf8Bytes_cons, hone, ih fun c hc => h c (List.mem_cons_of_mem _ hc),
        List.length_cons, Nat.add_comm]

/-- A byte completes or breaks at most one character, and begins at most one. -/
theorem length_decodeFrom_le (p : Option PartialChar) (bytes : List UInt8) :
    (decodeFrom p bytes).length ≤ bytes.length + (if p.isSome then 1 else 0) := by
  fun_induction decodeFrom p bytes
  all_goals
    simp only [List.length_cons, List.length_nil, Option.isSome_none, Option.isSome_some,
      Bool.false_eq_true, if_true, if_false] at *
    omega

theorem length_of_mapM_id {α : Type} {as : List (Option α)} {bs : List α}
    (h : as.mapM id = some bs) : bs.length = as.length := by
  induction as generalizing bs with
  | nil =>
      cases h
      rfl
  | cons a as ih =>
      rw [List.mapM_cons] at h
      obtain ⟨b, -, hrest⟩ := Option.bind_eq_some_iff.mp h
      obtain ⟨bs', hbs', heq⟩ := Option.bind_eq_some_iff.mp hrest
      cases heq
      rw [List.length_cons, List.length_cons, ih hbs']

/-- A text is read from at least as many bytes as it has characters. -/
theorem length_le_of_ofUtf8? {bytes : List UInt8} {s : String} (h : ofUtf8? bytes = some s) :
    s.toList.length ≤ bytes.length := by
  obtain ⟨cs, hcs, rfl⟩ := Option.map_eq_some_iff.mp h
  rw [String.toList_ofList, length_of_mapM_id hcs]
  exact length_decodeFrom_le none bytes

end SqlSession.Text
