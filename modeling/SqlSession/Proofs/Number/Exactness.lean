/-
When decimals are exact.

Fitting a number into a decimal rounds it, and so does changing the number of places, but neither
does where there is nothing to round.  `Decimal.Holds d v places` says that `d` is the number
`v / 10^places`, without sign, and that `v` counts places as fine as those of `d`.  A number that is
`Writable` fits a decimal that holds it, and two decimals that hold the same number differ only in
their places, so that rescaling turns one into the other.

Zero is left out of the last: its places say nothing about its mantissa.
-/
import Mathlib.Data.Nat.Digits.Defs
import SqlSession.Number.Decimal

namespace SqlSession.Decimal

variable {d e : Decimal} {v places : Nat}

/-- The decimal has no sign and is `v / 10^places`. -/
def Holds (d : Decimal) (v places : Nat) : Prop :=
  d.negative = false ∧ d.scale ≤ places ∧ d.mantissa * 10 ^ (places - d.scale) = v

/-- `v / 10^places` is a decimal once zeros at its end are left out. -/
def Writable (v places : Nat) : Prop :=
  ∃ mantissa zeros, v = mantissa * 10 ^ zeros ∧ mantissa < mantissaLimit ∧ zeros ≤ places

/-- The same number in finer places. -/
theorem Holds.finer (h : d.Holds v places) (k : Nat) : d.Holds (v * 10 ^ k) (places + k) := by
  obtain ⟨hsign, hscale, hvalue⟩ := h
  refine ⟨hsign, by omega, ?_⟩
  rw [← hvalue, Nat.mul_assoc, ← Nat.pow_add]
  congr 2
  omega

theorem holds_self (hsign : d.negative = false) : d.Holds d.mantissa d.scale :=
  ⟨hsign, Nat.le_refl _, by rw [Nat.sub_self, Nat.pow_zero, Nat.mul_one]⟩

/-! ### Fitting -/

/-- The first result of a search is good if every result up to one that exists is. -/
theorem exists_findSome?_range' {α : Type} {f : Nat → Option α} {good : α → Prop} {k : Nat}
    (hfound : (f k).isSome) (hgood : ∀ i ≤ k, ∀ a, f i = some a → good a) (n s : Nat) (hs : s ≤ k)
    (hn : k < s + n) : ∃ a, (List.range' s n).findSome? f = some a ∧ good a := by
  induction n generalizing s with
  | zero => omega
  | succ n ih =>
      rw [List.range'_succ, List.findSome?_cons]
      rcases hf : f s with _ | a
      · have hne : s ≠ k := fun h => by rw [h] at hf; rw [hf] at hfound; cases hfound
        exact ih (s + 1) (by omega) (by omega)
      · exact ⟨a, rfl, hgood s hs a hf⟩

/-- Nothing is rounded when a writable number is fitted. -/
theorem exists_fit? (h : Writable v places) (hplaces : places ≤ 28) :
    ∃ d, fit? false v places = some d ∧ d.Holds v places := by
  obtain ⟨mantissa, zeros, hv, hlt, hzeros⟩ := h
  -- up to the zeros at the end, dropping places only takes zeros away
  have hdrop : ∀ i ≤ zeros, divHalfEven v (Nat.pow 10 i) = mantissa * 10 ^ (zeros - i) := by
    intro i hi
    have hsplit : v = mantissa * 10 ^ (zeros - i) * Nat.pow 10 i := by
      rw [hv, Nat.mul_assoc]
      show _ = mantissa * (10 ^ (zeros - i) * 10 ^ i)
      rw [← Nat.pow_add, Nat.sub_add_cancel hi]
    rw [hsplit]
    exact divHalfEven_mul _ _ (Nat.pow_pos (by decide))
  unfold fit?
  rw [List.range_eq_range']
  refine exists_findSome?_range' (k := zeros) ?_ ?_ _ _ (Nat.zero_le _) (by omega)
  · rw [hdrop zeros (Nat.le_refl _), Nat.sub_self, Nat.pow_zero, Nat.mul_one]
    unfold ofParts?
    rw [dif_pos ⟨hlt, by omega⟩]
    rfl
  · intro i hi e he
    rw [hdrop i hi] at he
    unfold ofParts? at he
    split at he
    · cases he
      refine ⟨rfl, Nat.sub_le .., ?_⟩
      show mantissa * 10 ^ (zeros - i) * 10 ^ (places - (places - i)) = v
      rw [hv, Nat.mul_assoc, ← Nat.pow_add]
      congr 2
      omega
    · cases he

/-! ### Changing the places -/

theorem roomFor_eq {mantissa times : Nat} (h : mantissa * 10 ^ times < mantissaLimit) :
    roomFor mantissa times = times := by
  induction times generalizing mantissa with
  | zero => rfl
  | succ times ih =>
      have hten : mantissa * 10 * 10 ^ times < mantissaLimit := by
        rwa [Nat.mul_assoc, Nat.mul_comm 10, ← Nat.pow_succ]
      have hone : mantissa * 10 < mantissaLimit :=
        Nat.lt_of_le_of_lt (Nat.le_mul_of_pos_right _ (Nat.pow_pos (by decide))) hten
      rw [roomFor, if_pos hone, ih hten]

theorem ofParts?_self (d : Decimal) : ofParts? d.negative d.mantissa d.scale = some d :=
  dif_pos ⟨d.mantissa_lt, d.scale_le⟩

/-- Decimals of one number other than zero become each other when they are rescaled. -/
theorem rescale_of_holds (he : e.Holds v places) (hd : d.Holds v places) (hv : v ≠ 0) :
    e.rescale d.scale = d := by
  obtain ⟨hesign, hescale, hevalue⟩ := he
  obtain ⟨hdsign, hdscale, hdvalue⟩ := hd
  have hself := d.ofParts?_self
  have hpos : 0 < 10 ^ (places - d.scale) := Nat.pow_pos (by decide)
  have hpos' : 0 < 10 ^ (places - e.scale) := Nat.pow_pos (by decide)
  unfold rescale
  by_cases hle : e.scale ≤ d.scale
  · have hgrown : e.mantissa * 10 ^ (d.scale - e.scale) = d.mantissa := by
      refine Nat.eq_of_mul_eq_mul_right hpos ?_
      rw [hdvalue, ← hevalue, Nat.mul_assoc, ← Nat.pow_add]
      congr 2
      omega
    have hzero : e.mantissa ≠ 0 := fun h => hv (by rw [← hevalue, h, Nat.zero_mul])
    have hroom : roomFor e.mantissa (d.scale - e.scale) = d.scale - e.scale :=
      roomFor_eq (by rw [hgrown]; exact d.mantissa_lt)
    have hplaces : e.scale + (d.scale - e.scale) = d.scale := by omega
    simp only [if_pos hle, if_neg hzero, hroom, Nat.pow_eq, hgrown, hplaces, hesign]
    rw [hdsign] at hself
    rw [hself]
    rfl
  · have hcut : e.mantissa = d.mantissa * 10 ^ (e.scale - d.scale) := by
      refine Nat.eq_of_mul_eq_mul_right hpos' ?_
      rw [hevalue, ← hdvalue, Nat.mul_assoc, ← Nat.pow_add]
      congr 2
      omega
    have hdropped : e.mantissa / Nat.pow 10 (e.scale - d.scale) = d.mantissa := by
      rw [hcut]
      exact Nat.mul_div_cancel _ (Nat.pow_pos (by decide))
    have hfirst : e.mantissa / Nat.pow 10 (e.scale - d.scale - 1) % 10 = 0 := by
      have hten : e.mantissa = d.mantissa * 10 * Nat.pow 10 (e.scale - d.scale - 1) := by
        rw [hcut, Nat.mul_assoc]
        show _ = d.mantissa * (10 * 10 ^ (e.scale - d.scale - 1))
        rw [Nat.mul_comm 10, ← Nat.pow_succ]
        congr 2
        omega
      have hpow : 0 < Nat.pow 10 (e.scale - d.scale - 1) := Nat.pow_pos (by decide)
      rw [hten, Nat.mul_div_cancel _ hpow, Nat.mul_mod_left]
    simp only [if_neg hle, hdropped, hfirst, hesign]
    rw [hdsign] at hself
    rw [if_neg (by decide), Nat.add_zero, hself]
    rfl

end SqlSession.Decimal
