/-
Digits and the number they stand for.

Every text form of a number is made of the decimal digits of natural numbers, with or without
zeros in front.  What the readers need of them is little: they are digits and at least one, the
first is no zero unless it is the only one, and their value is the number again, which is
`natOfDigits_natDigits` and, for a fixed width, `natOfDigits_paddedDigits`.
-/
import Mathlib.Data.Nat.Digits.Defs
import SqlSession.Number.Binary64.Reading

namespace SqlSession.Text

open DecimalLiteral (natOfDigits)

variable {c : Char} {cs ds rest : List Char} {n width : Nat}

/-! ### Digits as characters -/

theorem bounds_of_isDigit (h : c.isDigit = true) : '0'.val ≤ c.val ∧ c.val ≤ '9'.val := by
  simpa only [Char.isDigit, Bool.and_eq_true, decide_eq_true_eq] using h

theorem digit_le_nine (h : c.isDigit = true) : c.toNat - 48 ≤ 9 := by
  have : c.toNat ≤ 57 := UInt32.le_iff_toNat_le.mp (bounds_of_isDigit h).2
  omega

/-- A digit has no case. -/
theorem toLower_of_isDigit (h : c.isDigit = true) : c.toLower = c := by
  refine dif_neg fun hupper => ?_
  have hle := UInt32.le_iff_toNat_le.mp (UInt32.le_trans hupper.1 (bounds_of_isDigit h).2)
  exact absurd hle (by decide)

/-! ### The value of digits -/

theorem natOfDigits_eq (cs : List Char) : natOfDigits cs = Nat.ofDigitChars 10 cs 0 := by
  unfold natOfDigits
  rw [Nat.ofDigitChars_eq_foldl]
  congr 1
  funext n c
  rw [Nat.mul_comm]
  rfl

theorem natOfDigits_append (cs ds : List Char) :
    natOfDigits (cs ++ ds) = natOfDigits cs * 10 ^ ds.length + natOfDigits ds := by
  simp only [natOfDigits_eq]
  rw [Nat.ofDigitChars_append, Nat.ofDigitChars_eq_ofDigitChars_zero, Nat.mul_comm]

theorem natOfDigits_cons (c : Char) (cs : List Char) :
    natOfDigits (c :: cs) = (c.toNat - 48) * 10 ^ cs.length + natOfDigits cs := by
  rw [← List.singleton_append, natOfDigits_append]
  simp [natOfDigits]

/-- A reader that moves a number up by one place for each digit has the number and the digits
behind it. -/
theorem behind_cons (k : Nat) (c : Char) (cs : List Char) :
    k * 10 ^ (c :: cs).length + natOfDigits (c :: cs)
      = (k * 10 + (c.toNat - 48)) * 10 ^ cs.length + natOfDigits cs := by
  rw [natOfDigits_cons, List.length_cons, Nat.pow_succ', Nat.add_mul, Nat.mul_assoc, Nat.add_assoc]

theorem le_behind (k : Nat) (cs : List Char) : k ≤ k * 10 ^ cs.length + natOfDigits cs :=
  (Nat.le_mul_of_pos_right k (Nat.pow_pos (by decide))).trans (Nat.le_add_right _ _)

theorem natOfDigits_lt (h : ∀ c ∈ cs, c.isDigit = true) : natOfDigits cs < 10 ^ cs.length := by
  induction cs with
  | nil => exact Nat.one_pos
  | cons c cs ih =>
      have hrest := ih fun c' hc' => h c' (List.mem_cons_of_mem _ hc')
      have hdigit :=
        Nat.mul_le_mul_right (10 ^ cs.length) (digit_le_nine (h c (List.mem_cons_self ..)))
      rw [natOfDigits_cons, List.length_cons, Nat.pow_succ]
      omega

@[simp] theorem natOfDigits_natDigits (n : Nat) : natOfDigits (natDigits n) = n := by
  rw [natOfDigits_eq]
  exact Nat.ofDigitChars_ten_toDigits

@[simp] theorem natOfDigits_replicate_zero (k : Nat) :
    natOfDigits (List.replicate k '0') = 0 := by
  rw [natOfDigits_eq, Nat.ofDigitChars_replicate_zero, Nat.mul_zero]

/-! ### Without zeros in front -/

theorem natDigits_ne_nil (n : Nat) : natDigits n ≠ [] :=
  Nat.toDigits_ne_nil

theorem isDigit_of_mem_natDigits (h : c ∈ natDigits n) : c.isDigit = true :=
  Nat.isDigit_of_mem_toDigits (by decide) (by decide) h

/-- The first digit is zero for zero only. -/
theorem head?_natDigits (h : (natDigits n).head? = some '0') : n = 0 := by
  induction n using Nat.strongRecOn with
  | _ n ih =>
      by_cases hlt : n < 10
      · rw [natDigits, Nat.toDigits_of_lt_base hlt, List.head?_cons] at h
        exact Nat.digitChar_eq_zero.mp (Option.some.inj h)
      · rw [natDigits, Nat.toDigits_of_base_le (by decide) (by omega), List.head?_append] at h
        have hhead : (natDigits (n / 10)).head? = some '0' := by
          rcases hd : natDigits (n / 10) with _ | ⟨d, ds⟩
          · exact absurd hd (natDigits_ne_nil _)
          · rw [natDigits] at hd
            rw [hd] at h
            exact h
        have := ih (n / 10) (by omega) hhead
        omega

/-- The digits of a number other than zero do not begin with a zero. -/
theorem head?_natDigits_ne {k : Nat} (hk : k ≠ 0) : (natDigits k).head? ≠ some '0' :=
  fun h => hk (head?_natDigits h)

theorem length_natDigits_le_iff (hwidth : 0 < width) :
    (natDigits n).length ≤ width ↔ n < 10 ^ width :=
  Nat.length_toDigits_le_iff (by decide) hwidth

/-! ### With zeros in front -/

theorem isDigit_of_mem_paddedDigits (h : c ∈ paddedDigits width n) : c.isDigit = true := by
  unfold paddedDigits at h
  rcases List.mem_append.mp h with hz | hd
  · rw [(List.mem_replicate.mp hz).2]
    decide
  · exact isDigit_of_mem_natDigits hd

theorem length_paddedDigits (width n : Nat) :
    (paddedDigits width n).length = max width (natDigits n).length := by
  unfold paddedDigits
  simp only [List.length_append, List.length_replicate]
  omega

theorem length_paddedDigits_of_lt (hwidth : 0 < width) (h : n < 10 ^ width) :
    (paddedDigits width n).length = width := by
  have := (length_natDigits_le_iff hwidth).mpr h
  rw [length_paddedDigits]
  omega

theorem paddedDigits_ne_nil (width n : Nat) : paddedDigits width n ≠ [] := by
  unfold paddedDigits
  exact List.append_ne_nil_of_right_ne_nil _ (natDigits_ne_nil n)

@[simp] theorem natOfDigits_paddedDigits (width n : Nat) :
    natOfDigits (paddedDigits width n) = n := by
  unfold paddedDigits
  rw [natOfDigits_append, natOfDigits_replicate_zero, natOfDigits_natDigits]
  omega

/-! ### Digits in front of something else -/

/-- Digits, at least one. -/
def IsDigits (cs : List Char) : Prop :=
  cs ≠ [] ∧ ∀ c ∈ cs, c.isDigit = true

theorem isDigits_natDigits (k : Nat) : IsDigits (natDigits k) :=
  ⟨natDigits_ne_nil k, fun _ hc => isDigit_of_mem_natDigits hc⟩

theorem IsDigits.append_right (h : IsDigits cs) (hds : ∀ c ∈ ds, c.isDigit = true) :
    IsDigits (cs ++ ds) :=
  ⟨List.append_ne_nil_of_left_ne_nil h.1 _,
    fun c hc => (List.mem_append.mp hc).elim (h.2 c) (hds c)⟩

theorem IsDigits.append_left (h : IsDigits ds) (hcs : ∀ c ∈ cs, c.isDigit = true) :
    IsDigits (cs ++ ds) :=
  ⟨List.append_ne_nil_of_right_ne_nil _ h.1,
    fun c hc => (List.mem_append.mp hc).elim (hcs c) (h.2 c)⟩

theorem IsDigits.take {k : Nat} (h : IsDigits cs) (hk : 0 < k) : IsDigits (cs.take k) := by
  refine ⟨fun hnil => ?_, fun c hc => h.2 c (List.mem_of_mem_take hc)⟩
  rcases List.take_eq_nil_iff.mp hnil with hzero | hempty
  · omega
  · exact h.1 hempty

theorem IsDigits.drop {k : Nat} (h : IsDigits cs) (hk : k < cs.length) : IsDigits (cs.drop k) := by
  refine ⟨fun hnil => ?_, fun c hc => h.2 c (List.mem_of_mem_drop hc)⟩
  have := List.drop_eq_nil_iff.mp hnil
  omega

/-- No digit stands at the beginning. -/
def Undigited (rest : List Char) : Prop :=
  ∀ c ∈ rest.head?, c.isDigit = false

theorem takeWhile_isDigit (hds : ∀ c ∈ ds, c.isDigit = true) (hrest : Undigited rest) :
    (ds ++ rest).takeWhile Char.isDigit = ds := by
  rw [List.takeWhile_append_of_pos hds]
  rcases rest with _ | ⟨c, rest⟩
  · exact List.append_nil ds
  · rw [List.takeWhile_cons_of_neg (by rw [hrest c rfl]; decide), List.append_nil]

theorem dropWhile_isDigit (hds : ∀ c ∈ ds, c.isDigit = true) (hrest : Undigited rest) :
    (ds ++ rest).dropWhile Char.isDigit = rest := by
  rw [List.dropWhile_append_of_pos hds]
  rcases rest with _ | ⟨c, rest⟩
  · rfl
  · exact List.dropWhile_cons_of_neg (by rw [hrest c rfl]; decide)

theorem isDigits_zero : IsDigits ['0'] :=
  isDigits_natDigits 0

theorem isDigit_of_mem_replicate {c : Char} {k : Nat} (h : c ∈ List.replicate k '0') :
    c.isDigit = true := by
  rw [(List.mem_replicate.mp h).2]
  decide

theorem isDigits_paddedDigits (width n : Nat) : IsDigits (paddedDigits width n) :=
  ⟨paddedDigits_ne_nil width n, fun _ => isDigit_of_mem_paddedDigits⟩

end SqlSession.Text
