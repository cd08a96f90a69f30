/-
Identifiers there and back.

The sixteen bytes of an identifier are shown as hexadecimal digits with hyphens between, and the
text is read as the same bytes: `uuidBytes?_uuidText`.  Reading pairs of digits undoes writing them
for bytes of any number; that there are sixteen is what puts the hyphens where they belong.
-/
import SqlSession.Text.Blank
import SqlSession.Wire.Uuid

namespace SqlSession.Wire

/-! ### Hexadecimal digits -/

theorem value?_digitChar {n : Nat} (h : n < 16) :
    bytesOfHex?.value? (Nat.digitChar n) = some n := by
  have hall : ∀ n < 16, bytesOfHex?.value? (Nat.digitChar n) = some n := by decide
  exact hall n h

theorem isBlank_digitChar {n : Nat} (h : n < 16) : Text.isBlank (Nat.digitChar n) = false := by
  have hall : ∀ n < 16, Text.isBlank (Nat.digitChar n) = false := by decide
  exact hall n h

theorem isBlank_of_mem_hexOfBytes {bytes : Bytes} {c : Char} (h : c ∈ hexOfBytes bytes) :
    Text.isBlank c = false := by
  obtain ⟨b, -, hc⟩ := List.mem_flatMap.mp h
  have hb := b.toNat_lt
  rcases List.mem_cons.mp hc with hhigh | hlow
  · rw [hhigh]
    exact isBlank_digitChar (by omega)
  · rw [List.mem_singleton.mp hlow]
    exact isBlank_digitChar (by omega)

@[simp] theorem length_hexOfBytes (bytes : Bytes) :
    (hexOfBytes bytes).length = 2 * bytes.length := by
  induction bytes with
  | nil => rfl
  | cons b bytes ih =>
      rw [hexOfBytes, List.flatMap_cons, List.length_append, ← hexOfBytes, ih]
      simp only [List.length_cons, List.length_nil]
      omega

/-- The digits of bytes are read as the bytes. -/
@[simp] theorem bytesOfHex?_hexOfBytes (bytes : Bytes) :
    bytesOfHex? (hexOfBytes bytes) = some bytes := by
  induction bytes with
  | nil => rfl
  | cons b bytes ih =>
      have hb := b.toNat_lt
      have hsplit : b.toNat / 16 * 16 + b.toNat % 16 = b.toNat := by omega
      rw [hexOfBytes, List.flatMap_cons, ← hexOfBytes, List.cons_append, List.cons_append,
        List.nil_append, bytesOfHex?]
      simp only [Option.bind_eq_bind, Option.pure_def, Option.bind_some,
        value?_digitChar (show b.toNat / 16 < 16 by omega),
        value?_digitChar (show b.toNat % 16 < 16 by omega), ih, hsplit, UInt8.ofNat_toNat]

/-! ### Hyphens -/

theorem drop_group {group rest : List Char} {n : Nat} (h : group.length = n) :
    (group ++ '-' :: rest).drop (n + 1) = rest := by
  rw [← h, ← List.drop_drop, List.drop_left]
  rfl

theorem getElem?_group {group rest : List Char} {n : Nat} (h : group.length = n) :
    (group ++ '-' :: rest)[n]? = some '-' := by
  rw [← h, List.getElem?_append_right (Nat.le_refl _), Nat.sub_self]
  rfl

/-- Five groups of digits with hyphens between are read as the digits. -/
theorem withoutHyphens?_of_groups {a b c d e : List Char} (ha : a.length = 8) (hb : b.length = 4)
    (hc : c.length = 4) (hd : d.length = 4) (he : e.length = 12) :
    withoutHyphens? (a ++ '-' :: (b ++ '-' :: (c ++ '-' :: (d ++ '-' :: e))))
      = some (a ++ b ++ c ++ d ++ e) := by
  generalize hcs : a ++ '-' :: (b ++ '-' :: (c ++ '-' :: (d ++ '-' :: e))) = cs
  have h9 : cs.drop 9 = b ++ '-' :: (c ++ '-' :: (d ++ '-' :: e)) := hcs ▸ drop_group ha
  have h14 : cs.drop 14 = c ++ '-' :: (d ++ '-' :: e) := by
    rw [← List.drop_drop (i := 5) (j := 9), h9, drop_group hb]
  have h19 : cs.drop 19 = d ++ '-' :: e := by
    rw [← List.drop_drop (i := 5) (j := 14), h14, drop_group hc]
  have h24 : cs.drop 24 = e := by
    rw [← List.drop_drop (i := 5) (j := 19), h19, drop_group hd]
  have hlength : cs.length = 36 := by
    rw [← hcs]
    simp only [List.length_append, List.length_cons, ha, hb, hc, hd, he]
  have hhyphens : ([8, 13, 18, 23].all fun i => cs[i]? == some '-') = true := by
    have h8 : cs[8]? = some '-' := hcs ▸ getElem?_group ha
    have h13 : cs[13]? = some '-' := by
      rw [← List.getElem?_drop (i := 9) (j := 4), h9, getElem?_group hb]
    have h18 : cs[18]? = some '-' := by
      rw [← List.getElem?_drop (i := 14) (j := 4), h14, getElem?_group hc]
    have h23 : cs[23]? = some '-' := by
      rw [← List.getElem?_drop (i := 19) (j := 4), h19, getElem?_group hd]
    simp only [List.all_cons, h8, h13, h18, h23]
    rfl
  have h0 : cs.take 8 = a := hcs ▸ List.take_left' ha
  unfold withoutHyphens?
  rw [if_pos ⟨hlength, hhyphens⟩, h0, h9, h14, h19, h24, List.take_left' hb, List.take_left' hc,
    List.take_left' hd]

/-! ### Texts -/

theorem length_of_bytesOfHex? {cs : List Char} {bytes : Bytes} (h : bytesOfHex? cs = some bytes) :
    2 * bytes.length = cs.length := by
  fun_induction bytesOfHex? cs generalizing bytes with
  | case1 => cases h; rfl
  | case2 => cases h
  | case3 a b rest ih =>
      obtain ⟨high, -, h⟩ := Option.bind_eq_some_iff.mp h
      obtain ⟨low, -, h⟩ := Option.bind_eq_some_iff.mp h
      obtain ⟨later, hlater, h⟩ := Option.bind_eq_some_iff.mp h
      cases h
      rw [List.length_cons, List.length_cons, List.length_cons, ← ih hlater]
      omega

theorem length_of_withoutHyphens? {cs digits : List Char} (h : withoutHyphens? cs = some digits) :
    digits.length = 32 := by
  unfold withoutHyphens? at h
  split at h
  next hshape =>
    cases h
    simp only [List.length_append, List.length_take, List.length_drop, hshape.1]
    omega
  next => cases h

/-- Whatever text is read as an identifier, it has sixteen bytes. -/
theorem length_of_uuidBytes? {s : String} {bytes : Bytes} (h : uuidBytes? s = some bytes) :
    bytes.length = 16 := by
  obtain ⟨digits, hdigits, hbytes⟩ := Option.bind_eq_some_iff.mp h
  have hlength : digits.length = 32 := by
    split at hdigits
    next hplain =>
      cases hdigits
      exact hplain
    next =>
      split at hdigits
      · exact length_of_withoutHyphens? hdigits
      · split at hdigits <;> exact length_of_withoutHyphens? hdigits
  have := length_of_bytesOfHex? hbytes
  omega

/-- **The text of sixteen bytes** is read as the bytes. -/
theorem uuidBytes?_uuidText {bytes : Bytes} (h : bytes.length = 16) :
    uuidBytes? (Text.trimmed (uuidText bytes)) = some bytes := by
  have hlength := length_hexOfBytes bytes
  rw [h] at hlength
  have htext : (uuidText bytes).toList = (hexOfBytes bytes).take 8
      ++ '-' :: (((hexOfBytes bytes).drop 8).take 4 ++ '-' :: (((hexOfBytes bytes).drop 12).take 4
      ++ '-' :: (((hexOfBytes bytes).drop 16).take 4 ++ '-' :: (hexOfBytes bytes).drop 20))) := by
    simp only [uuidText, String.toList_ofList, List.append_assoc, List.cons_append]
  have hdigits : withoutHyphens? (uuidText bytes).toList = some (hexOfBytes bytes) := by
    rw [htext, withoutHyphens?_of_groups (by rw [List.length_take]; omega)
      (by rw [List.length_take, List.length_drop]; omega)
      (by rw [List.length_take, List.length_drop]; omega)
      (by rw [List.length_take, List.length_drop]; omega)
      (by rw [List.length_drop]; omega)]
    have hjoin (n : Nat) : ((hexOfBytes bytes).drop n).take 4 ++ (hexOfBytes bytes).drop (n + 4)
        = (hexOfBytes bytes).drop n := by
      rw [← List.drop_drop, List.take_append_drop]
    rw [List.append_assoc, hjoin, List.append_assoc, hjoin, List.append_assoc, hjoin,
      List.take_append_drop]
  have hblank : ∀ c ∈ (uuidText bytes).toList, Text.isBlank c = false := by
    intro c hc
    simp only [htext, List.mem_append, List.mem_cons] at hc
    rcases hc with hc | rfl | hc | rfl | hc | rfl | hc | rfl | hc
    case inr.inr.inr.inr.inr.inr.inr.inr => exact isBlank_of_mem_hexOfBytes (List.mem_of_mem_drop hc)
    case inl => exact isBlank_of_mem_hexOfBytes (List.mem_of_mem_take hc)
    all_goals first
      | decide
      | exact isBlank_of_mem_hexOfBytes (List.mem_of_mem_drop (List.mem_of_mem_take hc))
  have h36 : (uuidText bytes).toList.length = 36 := by
    rw [htext]
    simp only [List.length_append, List.length_cons, List.length_take, List.length_drop]
    omega
  unfold uuidBytes? Text.trimmed
  rw [Text.trim_of_forall hblank, String.ofList_toList]
  simp only [h36, hdigits]
  simp

end SqlSession.Wire
