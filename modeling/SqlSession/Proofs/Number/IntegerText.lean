/-
Reading integers of a signed word.

The reader takes a sign and digits, checks every digit against the limit as it goes, and reports
the first that is too much.  Which of the two limits counts is decided by the sign, and what has
been read when the digits end is their number.  So an integer is read exactly where one is written,
without a point, and a signed word has room for it: `readInt64_eq_ok_iff`.
-/
import SqlSession.Proofs.Number.PlainNumber
import SqlSession.Proofs.Number.Truncation

namespace SqlSession

open DecimalLiteral (natOfDigits)
open Text (IsDigits IntegerError readDigits readInt64)

variable {acc limit n : Nat} {past : IntegerError} {negative : Bool} {k : Int64} {ds : List Char}

/-- The number that is written. -/
def PlainNumber.value (p : PlainNumber) : ℚ :=
  if p.negative then -(p.mantissa / (10 ^ p.places : Nat) : ℚ)
  else p.mantissa / (10 ^ p.places : Nat)

/-- Without a point an integer is written. -/
theorem PlainNumber.value_of_point_false {p : PlainNumber} (h : p.point = false) :
    p.value = (if p.negative then -(natOfDigits p.whole : Int) else natOfDigits p.whole : Int) := by
  have hnone := p.fraction_nil h
  rw [value, mantissa, places, hnone, List.append_nil, List.length_nil, pow_zero, Nat.cast_one,
    div_one]
  split
  · push_cast
    rfl
  · push_cast
    rfl

namespace Text

/-- The digits are read if the number that they continue stays within the limit. -/
theorem readDigits_eq_ok_iff (hacc : acc ≤ limit) :
    readDigits limit past acc ds = .ok n ↔
      (∀ c ∈ ds, c.isDigit = true) ∧ n = acc * 10 ^ ds.length + natOfDigits ds ∧ n ≤ limit := by
  induction ds generalizing acc with
  | nil =>
      rw [readDigits, Except.ok.injEq]
      simp only [List.not_mem_nil, false_implies, implies_true, true_and, List.length_nil, pow_zero,
        Nat.mul_one]
      show acc = n ↔ n = acc + 0 ∧ n ≤ limit
      omega
  | cons c ds ih =>
      rw [readDigits, behind_cons, List.forall_mem_cons]
      unfold digitValue?
      by_cases hc : c.isDigit = true
      · rw [if_pos hc]
        dsimp only
        by_cases hnext : acc * 10 + (c.toNat - 48) ≤ limit
        · rw [if_pos hnext, ih hnext, and_iff_right hc]
        · rw [if_neg hnext]
          refine iff_of_false nofun ?_
          rintro ⟨-, rfl, hle⟩
          exact hnext ((le_behind _ ds).trans hle)
      · rw [if_neg hc]
        exact iff_of_false nofun fun h => hc h.1.1

theorem map_eq_ok_iff {ε α β : Type} {e : Except ε α} {f : α → β} {b : β} :
    e.map f = .ok b ↔ ∃ a, e = .ok a ∧ f a = b := by
  cases e with
  | error => exact iff_of_false nofun nofun
  | ok a => simp [Except.map]

theorem map_bind_cast {β : Type} (e : Except IntegerError Nat) (f : Int → β) :
    (e >>= fun n => pure (n : Int)).map f = e.map fun n : Nat => f n := by
  cases e <;> rfl

/-- Digits are an integer of a signed word if the limit is the one at which the room ends. -/
theorem readDigits_map_eq_ok_iff {f : Nat → Int} (hlimit : ∀ n, FitsWord (f n) ↔ n ≤ limit) :
    (readDigits limit past 0 ds).map (fun n => Int64.ofInt (f n)) = .ok k ↔
      (∀ c ∈ ds, c.isDigit = true) ∧ f (natOfDigits ds) = k.toInt := by
  rw [map_eq_ok_iff]
  simp only [readDigits_eq_ok_iff (Nat.zero_le limit), Nat.zero_mul, Nat.zero_add]
  constructor
  · rintro ⟨n, ⟨hds, rfl, hn⟩, hk⟩
    exact ⟨hds, (ofInt_eq_iff_of_fitsWord ((hlimit _).mpr hn)).mp hk⟩
  · rintro ⟨hds, hk⟩
    have hfits : FitsWord (f (natOfDigits ds)) := hk ▸ fitsWord_toInt k
    exact ⟨_, ⟨hds, rfl, (hlimit _).mp hfits⟩, (ofInt_eq_iff_of_fitsWord hfits).mpr hk⟩

/-- Read on behind the sign. -/
def readMagnitude (negative : Bool) (ds : List Char) : Except IntegerError Int64 :=
  if negative then
    (readDigits 0x8000000000000000 .tooSmall 0 ds).map fun n : Nat => Int64.ofInt (-n)
  else (readDigits 0x7FFFFFFFFFFFFFFF .tooLarge 0 ds).map fun n : Nat => Int64.ofInt n

theorem readMagnitude_eq_ok_iff :
    readMagnitude negative ds = .ok k ↔
      (∀ c ∈ ds, c.isDigit = true)
        ∧ (if negative then -(natOfDigits ds : Int) else natOfDigits ds) = k.toInt := by
  unfold readMagnitude
  cases negative
  · rw [if_neg Bool.false_ne_true, if_neg Bool.false_ne_true]
    refine readDigits_map_eq_ok_iff (f := fun n => (n : Int)) fun n => ?_
    unfold FitsWord
    omega
  · rw [if_pos rfl, if_pos rfl]
    refine readDigits_map_eq_ok_iff (f := fun n => -(n : Int)) fun n => ?_
    unfold FitsWord
    omega

/-- The sign is taken off in front of the digits. -/
theorem readInt64_eq_ok_iff_sign {s : String} :
    readInt64 s = .ok k ↔
      ∃ sign ds, sign ∈ [[], ['-'], ['+']] ∧ s.toList = sign ++ ds ∧ ds ≠ []
        ∧ readMagnitude (sign == ['-']) ds = .ok k := by
  unfold readInt64
  simp only [map_bind_cast]
  constructor
  · intro h
    split at h
    next => cases h
    next => cases h
    next => cases h
    next ds hne hs => exact ⟨['-'], ds, by decide, hs, hne, h⟩
    next ds hne hs => exact ⟨['+'], ds, by decide, hs, hne, h⟩
    next hne _ _ _ _ => exact ⟨[], s.toList, by decide, rfl, hne, h⟩
  · rintro ⟨sign, ds, hsign, hs, hne, h⟩
    obtain ⟨c, ds, rfl⟩ := List.exists_cons_of_ne_nil hne
    have hc : c.isDigit = true := (readMagnitude_eq_ok_iff.mp h).1 c (List.mem_cons_self ..)
    rw [hs]
    rcases List.mem_cons.mp hsign with rfl | hsign
    · split
      next hnil => cases hnil
      next hplus => cases hplus; cases hc
      next hminus => cases hminus; cases hc
      next hminus => cases hminus; cases hc
      next hplus => cases hplus; cases hc
      next => exact h
    rcases List.mem_cons.mp hsign with rfl | hsign
    · exact h
    · rw [List.mem_singleton.mp hsign] at h ⊢
      exact h

/-- **An integer is read** where one is written that a signed word has room for. -/
theorem readInt64_eq_ok_iff {s : String} :
    readInt64 s = .ok k ↔
      ∃ p : PlainNumber, s.toList = p.chars ∧ p.point = false ∧ p.value = k.toInt := by
  rw [readInt64_eq_ok_iff_sign]
  constructor
  · rintro ⟨sign, ds, hsign, hs, hne, h⟩
    obtain ⟨hdigits, hk⟩ := readMagnitude_eq_ok_iff.mp h
    let p : PlainNumber :=
      ⟨sign, ds, false, [], hsign, ⟨by simpa using hne, by simpa using hdigits⟩, fun _ => rfl⟩
    have hchars : p.chars = sign ++ (ds ++ []) := rfl
    refine ⟨p, by rw [hs, hchars, List.append_nil], rfl, ?_⟩
    rw [PlainNumber.value_of_point_false rfl, ← hk]
    rfl
  · rintro ⟨p, hs, hpoint, hk⟩
    have hbody : p.body = p.whole := by
      rw [PlainNumber.body, hpoint, if_neg Bool.false_ne_true, List.append_nil]
    have hdigits : IsDigits p.whole := by
      have := p.isDigits
      rwa [p.fraction_nil hpoint, List.append_nil] at this
    refine ⟨p.sign, p.whole, p.sign_mem, by rw [hs, PlainNumber.chars, hbody], hdigits.1,
      readMagnitude_eq_ok_iff.mpr ⟨hdigits.2, ?_⟩⟩
    rw [PlainNumber.value_of_point_false hpoint] at hk
    exact_mod_cast hk

end Text

end SqlSession
