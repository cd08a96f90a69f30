/-
Decimals on the wire, there and back.

A decimal is written in groups of four digits, zeros at the end left out, and read by adding the
groups up, each sum rounded to 96 bits.  Nothing is rounded on the way: the sum up to a place is the
decimal cut at that place, which has no more digits than the decimal, and only the last group can
reach past the places there are, by zeros.  So a decimal other than zero comes back with its sign
and its places, `numeric?_numericBytes`, and zero comes back as plain zero, `numeric?_of_zero`.

The groups are looked at as one number: `groupsFrom v groups` is `v` with the groups written behind
it.  What is written of the groups of a number is `Kept`: some of them from the front, with only
zeros left out.
-/
import Mathlib.Data.List.TakeWhile
import SqlSession.Proofs.Number.Exactness
import SqlSession.Proofs.Wire.Integers

namespace SqlSession.Wire

open Decimal (Holds Writable mantissaLimit)

variable {d e : Decimal} {v p n : Nat} {groups : List Nat}

/-! ### Groups as a number -/

/-- The number with groups of four digits written behind it. -/
def groupsFrom (v : Nat) (groups : List Nat) : Nat :=
  groups.foldl (fun v g => v * 10000 + g) v

@[simp] theorem groupsFrom_nil (v : Nat) : groupsFrom v [] = v := rfl

@[simp] theorem groupsFrom_cons (v g : Nat) (groups : List Nat) :
    groupsFrom v (g :: groups) = groupsFrom (v * 10000 + g) groups := rfl

theorem groupsFrom_append (v : Nat) (groups groups' : List Nat) :
    groupsFrom v (groups ++ groups') = groupsFrom (groupsFrom v groups) groups' :=
  List.foldl_append

theorem groupsFrom_eq (v : Nat) (groups : List Nat) :
    groupsFrom v groups = v * 10000 ^ groups.length + groupsFrom 0 groups := by
  induction groups generalizing v with
  | nil => simp
  | cons g groups ih =>
      rw [groupsFrom_cons, groupsFrom_cons, ih, ih (0 * 10000 + g), List.length_cons, Nat.pow_succ]
      rw [Nat.zero_mul, Nat.zero_add, Nat.add_mul, Nat.mul_assoc, Nat.mul_comm 10000, Nat.add_assoc]

theorem le_groupsFrom (v : Nat) (groups : List Nat) : v ≤ groupsFrom v groups := by
  rw [groupsFrom_eq]
  exact Nat.le_trans (Nat.le_mul_of_pos_right v (Nat.pow_pos (by decide))) (Nat.le_add_right _ _)

theorem groupsFrom_zeros (h : ∀ g ∈ groups, g = 0) : groupsFrom 0 groups = 0 := by
  induction groups with
  | nil => rfl
  | cons g groups ih =>
      rw [groupsFrom_cons, h g (List.mem_cons_self ..)]
      exact ih fun g hg => h g (List.mem_cons_of_mem _ hg)

/-! ### The groups of a number -/

theorem groupsOf_go_append (k n : Nat) (groups : List Nat) :
    groupsOf.go k n groups = groupsOf.go k n [] ++ groups := by
  induction k generalizing n groups with
  | zero => rfl
  | succ k ih =>
      unfold groupsOf.go
      split
      · rfl
      · rw [ih (n / 10000) (n % 10000 :: groups), ih (n / 10000) [n % 10000], List.append_assoc]
        rfl

theorem groupsOf_go_succ (k : Nat) (hn : n ≠ 0) :
    groupsOf.go (k + 1) n [] = groupsOf.go k (n / 10000) [] ++ [n % 10000] := by
  rw [groupsOf.go, if_neg hn, groupsOf_go_append]

theorem groupsFrom_go (k : Nat) (h : n < 10000 ^ k) : groupsFrom 0 (groupsOf.go k n []) = n := by
  induction k generalizing n with
  | zero =>
      rw [Nat.pow_zero, Nat.lt_one_iff] at h
      rw [h]
      rfl
  | succ k ih =>
      by_cases hn : n = 0
      · rw [hn]
        rfl
      · rw [Nat.pow_succ] at h
        rw [groupsOf_go_succ k hn, groupsFrom_append, ih (Nat.div_lt_of_lt_mul (by omega)),
          groupsFrom_cons, groupsFrom_nil]
        omega

theorem lt_of_mem_go {k g : Nat} (h : g ∈ groupsOf.go k n []) : g < 10000 := by
  induction k generalizing n with
  | zero => cases h
  | succ k ih =>
      by_cases hn : n = 0
      · rw [groupsOf.go, if_pos hn] at h
        cases h
      · rw [groupsOf_go_succ k hn, List.mem_append, List.mem_singleton] at h
        rcases h with h | h
        · exact ih h
        · omega

theorem length_go_le (k n : Nat) : (groupsOf.go k n []).length ≤ k := by
  induction k generalizing n with
  | zero => exact Nat.le_refl 0
  | succ k ih =>
      by_cases hn : n = 0
      · rw [groupsOf.go, if_pos hn]
        exact Nat.zero_le _
      · rw [groupsOf_go_succ k hn, List.length_append]
        exact Nat.succ_le_succ (ih _)

/-! ### The bytes of a decimal -/

/-- The places that a decimal is written with, a multiple of four. -/
def writtenPlaces (d : Decimal) : Nat :=
  4 * ((d.scale + 3) / 4)

/-- The decimal as a whole number of the last place that is written. -/
def writtenNumber (d : Decimal) : Nat :=
  d.mantissa * 10 ^ (writtenPlaces d - d.scale)

/-- All groups of a decimal. -/
def groupsOfDecimal (d : Decimal) : List Nat :=
  groupsOf (writtenNumber d)

theorem writtenPlaces_bounds (d : Decimal) :
    d.scale ≤ writtenPlaces d ∧ writtenPlaces d ≤ d.scale + 3 ∧ writtenPlaces d ≤ 28 := by
  have := d.scale_le
  unfold writtenPlaces
  omega

theorem groupsFrom_groupsOfDecimal (d : Decimal) :
    groupsFrom 0 (groupsOfDecimal d) = writtenNumber d := by
  have hpow : 10 ^ (writtenPlaces d - d.scale) ≤ 10 ^ 3 :=
    Nat.pow_le_pow_right (by decide) (by have := writtenPlaces_bounds d; omega)
  have hlt : writtenNumber d < 10000 ^ 16 := by
    calc writtenNumber d
        ≤ mantissaLimit * 10 ^ 3 := Nat.mul_le_mul (Nat.le_of_lt d.mantissa_lt) hpow
      _ < 10000 ^ 16 := by decide
  exact groupsFrom_go 16 hlt

/-- The groups that are written: some from the front, with only zeros left out behind them. -/
structure Kept (whole : Nat) (groups kept : List Nat) : Prop where
  isPrefix : ∃ zeros, groups = kept ++ zeros ∧ ∀ g ∈ zeros, g = 0
  le_length : min whole groups.length ≤ kept.length

theorem kept_self (whole : Nat) (groups : List Nat) : Kept whole groups groups :=
  ⟨⟨[], (List.append_nil _).symm, nofun⟩, Nat.min_le_right _ _⟩

/-- Zeros are left out from the end of the places. -/
theorem kept_trimmed (whole : Nat) (groups : List Nat) :
    Kept whole groups
      (groups.take whole ++ ((groups.drop whole).reverse.dropWhile (· == 0)).reverse) := by
  refine ⟨⟨((groups.drop whole).reverse.takeWhile (· == 0)).reverse, ?_, ?_⟩, ?_⟩
  · rw [List.append_assoc, ← List.reverse_append, List.takeWhile_append_dropWhile,
      List.reverse_reverse, List.take_append_drop]
  · intro g hg
    rw [List.mem_reverse] at hg
    simpa using List.mem_takeWhile_imp hg
  · rw [List.length_append, List.length_take]
    omega

/-- What a decimal other than zero is written as. -/
theorem numericBytes_eq (hd : d.mantissa ≠ 0) :
    ∃ kept, Kept ((groupsOfDecimal d).length - (d.scale + 3) / 4) (groupsOfDecimal d) kept ∧
      numericBytes d =
        bigEndian 2 kept.length
          ++ signedBytes 2 (((groupsOfDecimal d).length : Int) - ((d.scale + 3) / 4 : Nat) - 1)
          ++ bigEndian 2 (if d.negative then 0x4000 else 0) ++ bigEndian 2 d.scale
          ++ kept.flatMap (bigEndian 2) := by
  have hgroups : groupsOf (d.mantissa * Nat.pow 10 (4 * ((d.scale + 3) / 4) - d.scale))
      = groupsOfDecimal d := rfl
  unfold numericBytes
  simp only [if_neg hd, hgroups]
  split
  next hweight =>
    have hwhole : (((groupsOfDecimal d).length : Int) - ((d.scale + 3) / 4 : Nat) - 1 + 1).toNat
        = (groupsOfDecimal d).length - (d.scale + 3) / 4 := by omega
    rw [hwhole]
    exact ⟨_, kept_trimmed _ _, rfl⟩
  next => exact ⟨_, kept_self _ _, rfl⟩

/-! ### Taking the bytes apart -/

theorem takeGroups?_flatMap (h : ∀ g ∈ groups, g < 10000) :
    takeGroups? groups.length (groups.flatMap (bigEndian 2)) = some groups := by
  induction groups with
  | nil => rfl
  | cons g groups ih =>
      have hg : g < 65536 := by have := h g (List.mem_cons_self ..); omega
      have hrest := ih fun g hg => h g (List.mem_cons_of_mem _ hg)
      rw [List.length_cons, List.flatMap_cons, takeGroups?, takeNat?_bigEndian 2 hg]
      simp only [Option.bind_some, hrest, Option.map_some]

/-! ### Adding up -/

/-- The groups before the point add up to a whole number. -/
theorem foldlM_whole (groups : List Nat) (hsign : d.negative = false) (hscale : d.scale = 0)
    (h : groupsFrom d.mantissa groups < mantissaLimit) :
    ∃ e, groups.foldlM (fun (d : Decimal) g => Decimal.ofParts? false (d.mantissa * 10000 + g) 0) d
        = some e ∧ e.negative = false ∧ e.scale = 0 ∧ e.mantissa = groupsFrom d.mantissa groups := by
  induction groups generalizing d with
  | nil => exact ⟨d, rfl, hsign, hscale, rfl⟩
  | cons g groups ih =>
      rw [groupsFrom_cons] at h
      have hlt := Nat.lt_of_le_of_lt (le_groupsFrom _ _) h
      obtain ⟨e, he, hrest⟩ := ih (d := ⟨false, d.mantissa * 10000 + g, 0, hlt, by decide⟩) rfl rfl h
      refine ⟨e, ?_, hrest⟩
      rw [List.foldlM_cons, Decimal.ofParts?, dif_pos ⟨hlt, by decide⟩]
      exact he

theorem exists_wholeOf? (h : groupsFrom 0 groups < mantissaLimit) :
    ∃ e, wholeOf? groups 0 = some e ∧ e.Holds (groupsFrom 0 groups) 0 := by
  obtain ⟨e, he, hsign, hscale, hmantissa⟩ :=
    foldlM_whole groups (d := Decimal.zero false) rfl rfl h
  have hholds : e.Holds (groupsFrom 0 groups) 0 := by
    have := Decimal.holds_self hsign
    rwa [hscale, hmantissa] at this
  refine ⟨e, ?_, hholds⟩
  unfold wholeOf?
  rw [he, Option.bind_some]
  by_cases hzero : e.mantissa = 0
  · rw [if_pos hzero]
  · have hself := e.ofParts?_self
    rw [hsign, hscale] at hself
    rw [if_neg hzero]
    show Decimal.ofParts? false (e.mantissa * 1) 0 = some e
    rw [Nat.mul_one, hself]

/-- One more group is added without rounding where the sum is writable. -/
theorem exists_addPlaces? {g : Nat} (he : e.Holds v p) (hp : p + 4 ≤ 28)
    (hw : Writable (v * 10000 + g) (p + 4)) :
    ∃ e', addPlaces? e g (p + 4) = some e' ∧ e'.Holds (v * 10000 + g) (p + 4) := by
  obtain ⟨-, hscale, hvalue⟩ := he.finer 4
  have hmax : max e.scale (p + 4) = p + 4 := Nat.max_eq_right hscale
  have hsum : e.mantissa * Nat.pow 10 (p + 4 - e.scale) + g * Nat.pow 10 (p + 4 - (p + 4))
      = v * 10000 + g := by
    rw [Nat.sub_self]
    show e.mantissa * 10 ^ (p + 4 - e.scale) + g * 1 = _
    rw [hvalue, Nat.mul_one]
    rfl
  unfold addPlaces?
  simp only [hmax, hsum]
  exact Decimal.exists_fit? hw hp

/-- All groups behind the point are, where every sum on the way is writable. -/
theorem exists_addFraction? (groups : List Nat) (he : e.Holds v p) (hp : p + 4 * groups.length ≤ 28)
    (hw : ∀ i < groups.length, Writable (groupsFrom v (groups.take (i + 1))) (p + 4 * (i + 1))) :
    ∃ e', addFraction? e (p + 4) groups = some e' ∧
      e'.Holds (groupsFrom v groups) (p + 4 * groups.length) := by
  induction groups generalizing e v p with
  | nil => exact ⟨e, rfl, he⟩
  | cons g groups ih =>
      rw [List.length_cons] at hp hw
      have hnext : Writable (v * 10000 + g) (p + 4) := hw 0 (Nat.succ_pos _)
      obtain ⟨e₁, hsum, hholds⟩ := exists_addPlaces? he (by omega) hnext
      obtain ⟨e₂, hrest, hfinal⟩ := ih hholds (by omega) fun i hi => by
        have := hw (i + 1) (by omega)
        rwa [Nat.mul_add 4 (i + 1), Nat.add_comm (4 * (i + 1)), ← Nat.add_assoc] at this
      refine ⟨e₂, ?_, ?_⟩
      · rw [addFraction?]
        simp only [if_pos (show p + 4 ≤ 28 by omega), hsum, Option.bind_some]
        exact hrest
      · rw [groupsFrom_cons, List.length_cons, Nat.mul_add, Nat.add_comm (4 * groups.length),
          ← Nat.add_assoc]
        exact hfinal

/-! ### There and back -/

/-- The decimal up to some group is no longer than the decimal. -/
theorem writable_take {i : Nat} (hi : i ≤ (groupsOfDecimal d).length)
    (hp : p + 4 * ((groupsOfDecimal d).length - i) = writtenPlaces d) :
    Writable (groupsFrom 0 ((groupsOfDecimal d).take i)) p := by
  obtain ⟨hscale, hscale', -⟩ := writtenPlaces_bounds d
  have hall := groupsFrom_groupsOfDecimal d
  by_cases hcut : p ≤ d.scale
  · refine ⟨_, 0, (Nat.mul_one _).symm, Nat.lt_of_le_of_lt ?_ d.mantissa_lt, Nat.zero_le _⟩
    have hpow : 10000 ^ ((groupsOfDecimal d).length - i) = 10 ^ (writtenPlaces d - p) := by
      show (10 ^ 4) ^ _ = _
      rw [← Nat.pow_mul]
      congr 1
      omega
    have hpos : 0 < 10 ^ (writtenPlaces d - p) := Nat.pow_pos (by decide)
    refine Nat.le_of_mul_le_mul_right ?_ hpos
    calc groupsFrom 0 ((groupsOfDecimal d).take i) * 10 ^ (writtenPlaces d - p)
        ≤ groupsFrom 0 (groupsOfDecimal d) := by
          rw [← hpow, ← List.length_drop]
          have hsplit := groupsFrom_append 0 ((groupsOfDecimal d).take i)
            ((groupsOfDecimal d).drop i)
          rw [List.take_append_drop, groupsFrom_eq (groupsFrom 0 _)] at hsplit
          omega
      _ = d.mantissa * 10 ^ (writtenPlaces d - d.scale) := hall
      _ ≤ d.mantissa * 10 ^ (writtenPlaces d - p) :=
          Nat.mul_le_mul_left _ (Nat.pow_le_pow_right (by decide) (by omega))
  · have hend : i = (groupsOfDecimal d).length := by omega
    rw [hend, List.take_length, hall]
    exact ⟨d.mantissa, writtenPlaces d - d.scale, rfl, d.mantissa_lt, by omega⟩

/-- So is every front part of the groups that are written. -/
theorem writable_of_kept {whole i : Nat} {kept : List Nat}
    (h : Kept whole (groupsOfDecimal d) kept) (hi : i ≤ kept.length)
    (hp : p + 4 * ((groupsOfDecimal d).length - i) = writtenPlaces d) :
    Writable (groupsFrom 0 (kept.take i)) p := by
  obtain ⟨zeros, hkept, -⟩ := h.isPrefix
  have hlength := congrArg List.length hkept
  rw [List.length_append] at hlength
  have hw := writable_take (d := d) (i := i) (p := p) (by omega) hp
  rwa [hkept, List.take_append_of_le_length hi] at hw

/-- The groups before the point add up; there are none where the places outnumber the groups. -/
theorem exists_whole_of_kept {whole gap : Nat} {kept : List Nat}
    (hgap : writtenPlaces d = 4 * gap) (hwhole : whole = (groupsOfDecimal d).length - gap)
    (h : Kept whole (groupsOfDecimal d) kept) (hle : whole ≤ kept.length) :
    ∃ e, wholeOf? (kept.take whole) 0 = some e ∧
      e.Holds (groupsFrom 0 (kept.take whole)) (4 * (gap - (groupsOfDecimal d).length)) := by
  by_cases hnone : whole = 0
  · rw [hnone, List.take_zero]
    have hnil : groupsFrom 0 [] < mantissaLimit := by decide
    obtain ⟨e, he, hholds⟩ := exists_wholeOf? hnil
    have hfiner := hholds.finer (4 * (gap - (groupsOfDecimal d).length))
    rw [groupsFrom_nil, Nat.zero_mul, Nat.zero_add] at hfiner
    exact ⟨e, he, hfiner⟩
  · obtain ⟨m, k, hm, hlt, hk⟩ := writable_of_kept h (p := 0) hle (by omega)
    rw [Nat.sub_eq_zero_of_le (by omega), Nat.mul_zero]
    refine exists_wholeOf? ?_
    rw [hm, Nat.le_zero.mp hk, Nat.pow_zero, Nat.mul_one]
    exact hlt

/-- The groups that are written add up to the decimal again. -/
theorem exists_sum_of_kept {whole gap : Nat} {kept : List Nat}
    (hgap : writtenPlaces d = 4 * gap) (hwhole : whole = (groupsOfDecimal d).length - gap)
    (h : Kept whole (groupsOfDecimal d) kept) :
    ∃ e e', wholeOf? (kept.take whole) (whole - kept.length) = some e ∧
      addFraction? e (4 * (gap - (groupsOfDecimal d).length + 1)) (kept.drop whole) = some e' ∧
      e'.Holds (writtenNumber d) (writtenPlaces d) := by
  obtain ⟨⟨zeros, hkept, hzeros⟩, hlength⟩ := id h
  have h28 := (writtenPlaces_bounds d).2.2
  have hsum : (groupsOfDecimal d).length = kept.length + zeros.length := by
    rw [hkept, List.length_append]
  have hle : whole ≤ kept.length := by omega
  obtain ⟨e, he, hholds⟩ := exists_whole_of_kept hgap hwhole h hle
  have hstep (i : Nat) : groupsFrom (groupsFrom 0 (kept.take whole)) ((kept.drop whole).take i)
      = groupsFrom 0 (kept.take (whole + i)) := by
    rw [← groupsFrom_append, List.take_add]
  obtain ⟨e', he', hholds'⟩ := exists_addFraction? (kept.drop whole) hholds
    (by rw [List.length_drop]; omega) fun i hi => by
      rw [List.length_drop] at hi
      rw [hstep]
      exact writable_of_kept h (by omega) (by omega)
  refine ⟨e, e', by rwa [Nat.sub_eq_zero_of_le hle], he', ?_⟩
  -- the zeros that were left out only make the places finer
  have hend := hholds'.finer (4 * zeros.length)
  rw [← groupsFrom_append, List.take_append_drop, List.length_drop] at hend
  have hnumber : groupsFrom 0 kept * 10 ^ (4 * zeros.length) = writtenNumber d := by
    rw [← groupsFrom_groupsOfDecimal d, hkept, groupsFrom_append,
      groupsFrom_eq (groupsFrom 0 kept), groupsFrom_zeros hzeros, Nat.pow_mul, Nat.add_zero]
  rw [hnumber] at hend
  have hplaces : 4 * (gap - (groupsOfDecimal d).length) + 4 * (kept.length - whole)
      + 4 * zeros.length = writtenPlaces d := by omega
  rwa [hplaces] at hend

/-- What reading makes of the parts of a decimal that is written. -/
theorem numeric?_of_parts {kept : List Nat} {weight : Int} {sign scale : Nat}
    (hkept : ∀ g ∈ kept, g < 10000) (hcount : kept.length < 65536) (hweight : FitsBytes 2 weight)
    (hsign : sign < 0xC000) (hscale : scale < 65536) :
    numeric? (bigEndian 2 kept.length ++ signedBytes 2 weight ++ bigEndian 2 sign
        ++ bigEndian 2 scale ++ kept.flatMap (bigEndian 2)) =
      (wholeOf? (kept.take (weight + 1).toNat) ((weight + 1).toNat - kept.length)).bind fun e =>
        (addFraction? e (4 * ((-weight - 1).toNat + 1)) (kept.drop (weight + 1).toNat)).map fun e =>
          { Decimal.rescale e (min scale 28) with negative := sign == 0x4000 } := by
  unfold numeric?
  simp only [List.append_assoc, Option.bind_eq_bind, Option.pure_def, Option.bind_some,
    takeNat?_bigEndian 2 hcount, takeInt?_signedBytes (by decide) hweight,
    takeNat?_bigEndian 2 (show sign < 65536 by omega), takeNat?_bigEndian 2 hscale,
    takeGroups?_flatMap hkept, if_neg (show ¬0xC000 ≤ sign by omega), Option.map_eq_bind,
    Function.comp_def]

/-- **A decimal other than zero** is read as it was written, with its sign and its places. -/
theorem numeric?_numericBytes (hd : d.mantissa ≠ 0) : numeric? (numericBytes d) = some d := by
  obtain ⟨kept, hkept, hbytes⟩ := numericBytes_eq hd
  have hsixteen : (groupsOfDecimal d).length ≤ 16 := length_go_le 16 _
  have h28 := d.scale_le
  obtain ⟨e, e', he, he', hholds⟩ := exists_sum_of_kept rfl rfl hkept
  obtain ⟨zeros, hall, -⟩ := hkept.isPrefix
  have hlength : kept.length ≤ (groupsOfDecimal d).length := by
    rw [hall, List.length_append]
    exact Nat.le_add_right _ _
  have hsmall : ∀ g ∈ kept, g < 10000 := fun g hg =>
    lt_of_mem_go (hall ▸ List.mem_append_left zeros hg)
  have hweight : FitsBytes 2
      (((groupsOfDecimal d).length : Int) - ((d.scale + 3) / 4 : Nat) - 1) := by
    show -(32768 : Int) ≤ _ ∧ _ < (32768 : Int)
    omega
  have hwhole : (((groupsOfDecimal d).length : Int) - ((d.scale + 3) / 4 : Nat) - 1 + 1).toNat
      = (groupsOfDecimal d).length - (d.scale + 3) / 4 := by omega
  have hstart : (-(((groupsOfDecimal d).length : Int) - ((d.scale + 3) / 4 : Nat) - 1) - 1).toNat
      = (d.scale + 3) / 4 - (groupsOfDecimal d).length := by omega
  -- the decimal without its sign is what the sum is brought to
  have hunsigned : e'.rescale d.scale = { d with negative := false } :=
    Decimal.rescale_of_holds (d := { d with negative := false }) hholds
      ⟨rfl, (writtenPlaces_bounds d).1, rfl⟩
      (Nat.mul_ne_zero hd (Nat.pow_pos (by decide)).ne')
  rw [hbytes, numeric?_of_parts hsmall (by omega) hweight (by split <;> decide) (by omega), hwhole,
    hstart, he, Option.bind_some, he', Option.map_some, Nat.min_eq_left h28]
  simp only [hunsigned]
  rcases d with ⟨negative, mantissa, scale⟩
  cases negative <;> rfl

/-- Zero is read as plain zero. -/
theorem numeric?_of_zero (hd : d.mantissa = 0) :
    numeric? (numericBytes d) = some (Decimal.zero false) := by
  unfold numericBytes
  rw [if_pos hd]
  decide

end SqlSession.Wire
