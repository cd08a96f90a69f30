/-
JSON that is bound and materialized.

A value of JSON is bound as a value of its own kind, and the normal form of that value is what a
record holds.  Arrays and objects stay JSON with all that is in them, and so nothing happens to
them.  Of the numbers, the integers of a signed word and the doubles have kinds of their own.  An
integer between 2^63 and 2^64 has none, and is bound as a double: `normalize_ofJson_iff` says that
these are the only values that do not come back, and what becomes of them.
-/
import SqlSession.Proofs.Number.DoubleValue
import SqlSession.Proofs.Wire.WriteBack

namespace SqlSession

open Wire (ofJson_int ofJson_of_toInt64?_none eq_ofInt64_of_toInt64?)

variable {n : JsonNumber} {k : Int} {j : Json}

/-- An integer that a signed word has no room for, not as part of an array or an object. -/
def Json.IsLargeInteger : Json → Prop
  | .number (.int n _ _) => 0x8000000000000000 ≤ n
  | _ => False

namespace Value

/-- An integer of a signed word comes back. -/
theorem normalize_ofJson_of_toInt64? {i : Int64} (h : n.toInt64? = some i) :
    (ofJson (.number n)).normalize = .number n := by
  rw [eq_ofInt64_of_toInt64? h, ofJson_int]
  rfl

/-- A double comes back. -/
theorem normalize_ofJson_double (x : Binary64) (hx : x.isFinite = true) :
    (ofJson (.number (.double x hx))).normalize = .number (.double x hx) := by
  rw [ofJson_of_toInt64?_none rfl]
  exact Binary64.toJson_of_finite hx

/-- A larger integer becomes the double next to it. -/
theorem normalize_ofJson_large (hk : 0x8000000000000000 ≤ k) (hle : -0x8000000000000000 ≤ k)
    (hlt : k < 0x10000000000000000) :
    ∃ hx, (ofJson (.number (.int k hle hlt))).normalize = .number (.double (Binary64.ofInt k) hx)
      ∧ (Binary64.ofInt k).IsRounded k := by
  have hrounded : (Binary64.ofInt k).IsRounded k := Binary64.isRounded_ofInt (by omega)
  have hnone : (JsonNumber.int k hle hlt).toInt64? = none := if_neg (not_lt.mpr hk)
  refine ⟨hrounded.finite, ?_, hrounded⟩
  rw [ofJson_of_toInt64?_none hnone]
  exact Binary64.toJson_of_finite hrounded.finite

theorem normalize_ofJson_eq_iff (j : Json) : (ofJson j).normalize = j ↔ ¬j.IsLargeInteger := by
  cases j with
  | number n =>
      cases n with
      | double x hx => exact iff_of_true (normalize_ofJson_double x hx) not_false
      | int k hle hlt =>
          rcases Int.lt_or_le k 0x8000000000000000 with hsmall | hlarge
          · have hword : (JsonNumber.int k hle hlt).toInt64? = some (Int64.ofInt k) := if_pos hsmall
            exact iff_of_true (normalize_ofJson_of_toInt64? hword) (not_le.mpr hsmall)
          · obtain ⟨hx, hdouble, -⟩ := normalize_ofJson_large hlarge hle hlt
            refine iff_of_false ?_ (not_not.mpr hlarge)
            rw [hdouble]
            nofun
  | _ => exact iff_of_true rfl not_false

/-- **A value of JSON comes back** from being bound unless it is an integer of 2^63 or more.  That
one comes back as a double, off by at most one part in 2^53, and as the same number exactly where
53 binary digits are enough for it.  Being bound once more changes nothing. -/
theorem normalize_ofJson_iff (j : Json) :
    ((ofJson j).normalize = j ↔ ¬j.IsLargeInteger)
    ∧ (∀ k hle hlt, j = .number (.int k hle hlt) → j.IsLargeInteger →
        ∃ x hx, (ofJson j).normalize = .number (.double x hx)
          ∧ |x.value - k| ≤ |(k : ℚ)| / 2 ^ 53
          ∧ (x.value = k ↔ ∃ c e : Nat, k.natAbs = c * 2 ^ e ∧ c < 2 ^ 53))
    ∧ (ofJson (ofJson j).normalize).normalize = (ofJson j).normalize := by
  refine ⟨normalize_ofJson_eq_iff j, ?_, ?_⟩
  · rintro k hle hlt rfl hlarge
    obtain ⟨hx, hdouble, hrounded⟩ := normalize_ofJson_large hlarge hle hlt
    have habs : |(k : ℚ)| = (k.natAbs : Nat) := by rw [Nat.cast_natAbs, Int.cast_abs]
    refine ⟨_, hx, hdouble, hrounded.near, ?_⟩
    rw [hrounded.eq_iff, habs, fitsDouble_natCast_iff]
  · by_cases hlarge : j.IsLargeInteger
    · cases j with
      | number n =>
          cases n with
          | double => exact hlarge.elim
          | int k hle hlt =>
              obtain ⟨hx, hdouble, -⟩ := normalize_ofJson_large hlarge hle hlt
              rw [hdouble, normalize_ofJson_double]
      | _ => exact hlarge.elim
    · rw [(normalize_ofJson_eq_iff j).mpr hlarge, (normalize_ofJson_eq_iff j).mpr hlarge]

/-- The greatest unsigned word comes back as the double above it. -/
theorem greatest_word_comes_back_as_double :
    (ofJson (.number (.int 18446744073709551615 (by decide) (by decide)))).normalize
        = .number (.double ⟨0x43F0000000000000⟩ (by decide))
      ∧ (⟨0x43F0000000000000⟩ : Binary64).value = 18446744073709551616 := by
  refine ⟨by decide +kernel, ?_⟩
  have hword : (⟨0x43F0000000000000⟩ : Binary64).magnitude = 0x43F0000000000000 := by decide
  have hsign : (⟨0x43F0000000000000⟩ : Binary64).isNegative = false := by decide
  have hsignificand : BinaryFormat.double.significand 0x43F0000000000000 = 2 ^ 52 := by decide
  have hscale : BinaryFormat.double.scale 0x43F0000000000000 = 12 := by decide
  rw [Binary64.value, hsign, if_neg Bool.false_ne_true, Binary64.size, hword, BinaryFormat.value,
    hsignificand, hscale]
  norm_num

end Value

end SqlSession
