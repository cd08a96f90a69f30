/-
Intervals as the server shows them.

The server shows the years, months and days of an interval that are not zero and then the clock,
and gives each of them a sign of its own: a minus if it is negative, and a plus if it is positive
and stands directly behind a negative one.  `Interval.serverText` is this rule, one part after the
other, with every part cut toward zero from the interval.

`Interval.text` knows no plus.  It shows the same parts with the same digits, so it is the text of
the server with the plus signs taken out, and the text of the server itself exactly where no
positive part stands directly behind a negative one: `interval_text_server_iff`.
-/
import Mathlib.Data.List.Chain
import SqlSession.Proofs.Wire.IntervalText

namespace SqlSession.Wire

open Text

namespace Interval

/-! ### The style of the server -/

/-- A part of an interval that is shown: its sign, and how it reads without one. -/
structure Part where
  negative : Bool
  body : List Char

/-- The sign of a part that stands behind a negative one or not. -/
def Part.sign (behindNegative : Bool) (p : Part) : List Char :=
  if p.negative then ['-'] else if behindNegative then ['+'] else []

/-- The parts with their signs, where the part in front of them is negative or not. -/
def signed : Bool → List Part → List (List Char)
  | _, [] => []
  | behindNegative, p :: rest => (p.sign behindNegative ++ p.body) :: signed p.negative rest

/-- A number of units, if it is not zero; only 1 itself is singular. -/
def shownUnit (n : Int) (unit : String) : List Part :=
  if n = 0 then []
  else
    [⟨decide (n < 0),
      natDigits n.natAbs ++ ' ' :: (unit.toList ++ if n = 1 then [] else ['s'])⟩]

/-- The decimals of a number that counts the last of so many places: as few as there can be. -/
def decimals : Nat → Nat → List Char
  | 0, _ => []
  | places + 1, n => if n % 10 = 0 then decimals places (n / 10) else paddedDigits (places + 1) n

/-- The clock: hours, minutes, seconds and decimals, each cut toward zero, with one sign in front
of them. -/
def shownClock (micros : Int) : Part :=
  let hours := micros.tdiv 3600000000
  let minutes := (micros.tmod 3600000000).tdiv 60000000
  let seconds := (micros.tmod 60000000).tdiv 1000000
  let fraction := micros.tmod 1000000
  ⟨decide (hours < 0 ∨ minutes < 0 ∨ seconds < 0 ∨ fraction < 0),
    paddedDigits 2 hours.natAbs ++ ':' ::
      (paddedDigits 2 minutes.natAbs ++ ':' ::
        (paddedDigits 2 seconds.natAbs ++
          if fraction = 0 then [] else '.' :: decimals 6 fraction.natAbs))⟩

/-- The numbers of years, months and days that are shown. -/
def shownUnits (i : Interval) : List Part :=
  shownUnit (i.months.tdiv 12) "year" ++ shownUnit (i.months.tmod 12) "mon"
    ++ shownUnit i.days "day"

/-- All that is shown; a clock of zero is shown only by itself. -/
def shown (i : Interval) : List Part :=
  i.shownUnits ++ if i.micros = 0 ∧ i.shownUnits ≠ [] then [] else [shownClock i.micros]

/-- The interval in words, as the server shows it. -/
def serverText (i : Interval) : String :=
  String.ofList ([' '].intercalate (signed false i.shown))

-- all parts with the same sign, and a day that goes forward behind months that go back
example : serverText ⟨14706500000, 3, 14⟩ = "1 year 2 mons 3 days 04:05:06.5" ∧
    serverText ⟨-1, 1, -13⟩ = "-1 years -1 mons +1 day -00:00:00.000001" := by
  decide +kernel

/-- The parts of an interval that are not zero: years, months, days and microseconds. -/
def amounts (i : Interval) : List Int :=
  [i.months.tdiv 12, i.months.tmod 12, i.days, i.micros].filter (· ≠ 0)

/-- No positive part stands directly behind a negative one. -/
def KeepsDirection (i : Interval) : Prop :=
  i.amounts.IsChain fun a b => a < 0 → b < 0

instance : DecidablePred KeepsDirection :=
  fun i => inferInstanceAs (Decidable (i.amounts.IsChain _))

/-! ### The same parts -/

/-- A part as it is written where no plus is known. -/
def Part.chars (p : Part) : List Char :=
  (if p.negative then ['-'] else []) ++ p.body

theorem toList_unitPart (n : Int) {unit units : String}
    (hunits : units.toList = unit.toList ++ ['s']) :
    (unitPart n unit units).map String.toList = (shownUnit n unit).map Part.chars := by
  unfold unitPart shownUnit
  split
  · rfl
  · have hword : (if n = 1 then unit else units).toList
        = unit.toList ++ if n = 1 then [] else ['s'] := by
      split
      · exact (List.append_nil _).symm
      · exact hunits
    have hblank : " ".toList = [' '] := rfl
    simp only [List.map_cons, List.map_nil, String.toList_append, toList_intText, hword, hblank,
      Part.chars, decide_eq_true_eq, List.append_assoc, List.singleton_append]

theorem paddedDigits_succ {width : Nat} (hwidth : 0 < width) (n : Nat) :
    paddedDigits (width + 1) n = paddedDigits width (n / 10) ++ [Nat.digitChar (n % 10)] := by
  unfold paddedDigits natDigits
  by_cases hlt : n < 10
  · have hzeros : List.replicate width '0'
        = List.replicate (width - 1) '0' ++ List.replicate 1 '0' := by
      rw [List.replicate_append_replicate, Nat.sub_add_cancel hwidth]
    rw [Nat.toDigits_of_lt_base hlt, Nat.div_eq_of_lt hlt, Nat.mod_eq_of_lt hlt]
    show List.replicate width '0' ++ _ = _
    rw [hzeros]
    rfl
  · rw [Nat.toDigits_of_base_le (by decide) (by omega)]
    simp only [List.length_append, List.length_singleton, Nat.add_sub_add_right, List.append_assoc]

/-- Cutting off the zeros at the end leaves the decimals that are needed. -/
theorem withoutZeros_paddedDigits {width n : Nat} (hn : n ≠ 0) (hlt : n < 10 ^ width) :
    withoutZeros (paddedDigits width n) = decimals width n := by
  induction width generalizing n with
  | zero => omega
  | succ width ih =>
      unfold decimals
      by_cases hten : n % 10 = 0
      · have hwidth : 0 < width := by
          refine Nat.pos_of_ne_zero fun h => ?_
          rw [h] at hlt
          omega
        have hcut := ih (n := n / 10) (by omega) (by rw [Nat.pow_succ] at hlt; omega)
        rw [if_pos hten, paddedDigits_succ hwidth, hten, ← hcut]
        unfold withoutZeros
        rw [List.reverse_append]
        exact congrArg List.reverse (List.dropWhile_cons_of_pos rfl)
      · have hlast : ∃ ds, paddedDigits (width + 1) n = ds ++ [Nat.digitChar (n % 10)] := by
          rcases Nat.eq_zero_or_pos width with rfl | hwidth
          · refine ⟨[], ?_⟩
            have hdigit : n < 10 := by omega
            unfold paddedDigits natDigits
            rw [Nat.toDigits_of_lt_base hdigit, Nat.mod_eq_of_lt hdigit]
            rfl
          · exact ⟨_, paddedDigits_succ hwidth n⟩
        obtain ⟨ds, hds⟩ := hlast
        have hne : ¬(Nat.digitChar (n % 10) == '0') = true := by
          intro h
          exact hten (Nat.digitChar_eq_zero.mp (beq_iff_eq.mp h))
        rw [if_neg hten, hds]
        unfold withoutZeros
        rw [List.reverse_append, List.reverse_singleton, List.singleton_append,
          List.dropWhile_cons_of_neg (p := (· == '0')) hne, List.reverse_cons, List.reverse_reverse]

/-- Some part of the clock is negative exactly where the whole is. -/
theorem negative_shownClock (micros : Int) :
    (shownClock micros).negative = decide (micros < 0) := by
  refine decide_eq_decide.mpr ?_
  obtain ⟨k, rfl | rfl⟩ := micros.eq_nat_or_neg
  all_goals
    have hk : 0 ≤ (k : Int) := Int.natCast_nonneg k
    have hminute : 0 ≤ (k : Int) % 3600000000 := Int.emod_nonneg _ (by decide)
    have hsecond : 0 ≤ (k : Int) % 60000000 := Int.emod_nonneg _ (by decide)
    simp only [Int.neg_tmod, Int.neg_tdiv, Int.tmod_eq_emod_of_nonneg hk,
      Int.tdiv_eq_ediv_of_nonneg hk, Int.tdiv_eq_ediv_of_nonneg hminute,
      Int.tdiv_eq_ediv_of_nonneg hsecond]
    omega

/-- Cutting the parts of the clock from the number itself or from its size is the same. -/
theorem toList_clockText_eq (micros : Int) :
    (clockText micros).toList = (shownClock micros).chars := by
  have hhours : (micros.tdiv 3600000000).natAbs = micros.natAbs / 1000000 / 3600 := by
    rw [Int.natAbs_tdiv, Nat.div_div_eq_div_mul]
    rfl
  have hminutes : ((micros.tmod 3600000000).tdiv 60000000).natAbs
      = micros.natAbs / 1000000 / 60 % 60 := by
    rw [Int.natAbs_tdiv, Int.natAbs_tmod]
    show micros.natAbs % 3600000000 / 60000000 = _
    omega
  have hseconds : ((micros.tmod 60000000).tdiv 1000000).natAbs = micros.natAbs / 1000000 % 60 := by
    rw [Int.natAbs_tdiv, Int.natAbs_tmod]
    show micros.natAbs % 60000000 / 1000000 = _
    omega
  have hfraction : (micros.tmod 1000000).natAbs = micros.natAbs % 1000000 :=
    Int.natAbs_tmod _ _
  have hbody : (shownClock micros).body = clockChars micros.natAbs := by
    unfold shownClock clockChars secondsChars
    simp only [hhours, hminutes, hseconds, hfraction, ← Int.natAbs_eq_zero (a := micros.tmod _)]
    split
    next => rfl
    next hne =>
      rw [withoutZeros_paddedDigits hne (Nat.mod_lt _ (by decide))]
  unfold Part.chars
  rw [toList_clockText, negative_shownClock, hbody]
  simp only [decide_eq_true_eq]

/-- The text shows the same parts, with a minus or without a sign. -/
theorem toList_text (i : Interval) :
    i.text.toList = [' '].intercalate (i.shown.map Part.chars) := by
  let units := unitPart (i.months.tdiv 12) "year" "years"
    ++ unitPart (i.months.tmod 12) "mon" "mons" ++ unitPart i.days "day" "days"
  have hunits : units.map String.toList = i.shownUnits.map Part.chars := by
    simp only [units, shownUnits, List.map_append]
    rw [toList_unitPart _ rfl, toList_unitPart _ rfl, toList_unitPart _ rfl]
  have hempty : units.isEmpty = true ↔ i.shownUnits = [] := by
    rw [List.isEmpty_iff, ← List.map_eq_nil_iff (f := String.toList), hunits, List.map_eq_nil_iff]
  let clock := if i.micros ≠ 0 ∨ units.isEmpty then [clockText i.micros] else []
  have hclock : clock.map String.toList
      = (if i.micros = 0 ∧ i.shownUnits ≠ [] then [] else [shownClock i.micros]).map
          Part.chars := by
    unfold clock
    by_cases hshown : i.micros = 0 ∧ i.shownUnits ≠ []
    · rw [if_pos hshown, if_neg (by rw [hempty]; tauto)]
      rfl
    · rw [if_neg hshown, if_pos (by rw [hempty]; tauto)]
      exact congrArg (· :: []) (toList_clockText_eq i.micros)
  have htext : i.text = " ".intercalate (units ++ clock) := rfl
  have hblank : " ".toList = [' '] := rfl
  rw [htext, String.toList_intercalate, hblank, List.map_append, hunits, hclock, shown,
    List.map_append]

/-! ### Where the plus signs are -/

theorem notMem_plus_decimals (places n : Nat) : '+' ∉ decimals places n := by
  induction places generalizing n with
  | zero => exact List.not_mem_nil
  | succ places ih =>
      unfold decimals
      split
      · exact ih _
      · exact notMem_paddedDigits rfl _ _

theorem notMem_plus_body {i : Interval} {p : Part} (h : p ∈ i.shown) : '+' ∉ p.body := by
  have hunit {n : Int} {unit : String} (hplain : '+' ∉ unit.toList) (hp : p ∈ shownUnit n unit) :
      '+' ∉ p.body := by
    unfold shownUnit at hp
    split at hp
    · cases hp
    · have hdigits : '+' ∉ natDigits n.natAbs :=
        notMem_of_isDigit (fun _ => isDigit_of_mem_natDigits) rfl
      cases List.mem_singleton.mp hp
      split <;> simp [hdigits, hplain]
  have hclock (hp : p ∈ [shownClock i.micros]) : '+' ∉ p.body := by
    have hpadded (n : Nat) : '+' ∉ paddedDigits 2 n := notMem_paddedDigits rfl 2 n
    cases List.mem_singleton.mp hp
    unfold shownClock
    dsimp only
    split <;> simp [hpadded, notMem_plus_decimals]
  unfold shown shownUnits at h
  simp only [List.mem_append] at h
  rcases h with ((h | h) | h) | h
  · exact hunit (by decide) h
  · exact hunit (by decide) h
  · exact hunit (by decide) h
  · split at h
    · cases h
    · exact hclock h

/-- Without its plus signs a text shows the same parts. -/
theorem filter_signed {parts : List Part} (hparts : ∀ p ∈ parts, '+' ∉ p.body)
    (behindNegative : Bool) :
    ([' '].intercalate (signed behindNegative parts)).filter (· ≠ '+')
      = [' '].intercalate (parts.map Part.chars) := by
  induction parts generalizing behindNegative with
  | nil => rfl
  | cons p rest ih =>
      have hbody : p.body.filter (· ≠ '+') = p.body := by
        refine List.filter_eq_self.mpr fun c hc => decide_eq_true fun hplus => ?_
        exact hparts p (List.mem_cons_self ..) (hplus ▸ hc)
      have hpart : (p.sign behindNegative ++ p.body).filter (· ≠ '+') = p.chars := by
        have hsign : (p.sign behindNegative).filter (· ≠ '+')
            = if p.negative then ['-'] else [] := by
          unfold Part.sign
          cases p.negative <;> cases behindNegative <;> rfl
        rw [List.filter_append, hsign, hbody, Part.chars]
      have hrest := ih (fun q hq => hparts q (List.mem_cons_of_mem _ hq)) p.negative
      cases rest with
      | nil =>
          rw [signed, signed, List.intercalate_singleton, hpart]
          exact List.intercalate_singleton.symm
      | cons q rest =>
          rw [signed, signed] at *
          rw [List.intercalate_cons_cons, List.map_cons, List.map_cons, List.intercalate_cons_cons,
            List.filter_append, List.filter_append, hpart, hrest]
          rfl

/-- There is a plus where a part that is not negative stands behind one that is. -/
theorem notMem_plus_signed_iff {parts : List Part} (hparts : ∀ p ∈ parts, '+' ∉ p.body)
    (behindNegative : Bool) :
    '+' ∉ [' '].intercalate (signed behindNegative parts) ↔
      (behindNegative :: parts.map Part.negative).IsChain fun a b => a = true → b = true := by
  induction parts generalizing behindNegative with
  | nil => simp [signed]
  | cons p rest ih =>
      have hbody := hparts p (List.mem_cons_self ..)
      have hpart : '+' ∉ p.sign behindNegative ++ p.body
          ↔ (behindNegative = true → p.negative = true) := by
        unfold Part.sign
        cases p.negative <;> cases behindNegative <;> simp [hbody]
      have hrest := ih (fun q hq => hparts q (List.mem_cons_of_mem _ hq)) p.negative
      rw [List.map_cons, List.isChain_cons_cons, ← hpart, ← hrest]
      cases rest with
      | nil => simp [signed]
      | cons q rest =>
          rw [signed, signed, List.intercalate_cons_cons]
          simp only [List.mem_append, List.mem_singleton, not_or]
          exact and_congr (and_iff_left (by decide)) Iff.rfl

theorem map_negative_shownUnits (i : Interval) :
    i.shownUnits.map Part.negative
      = ([i.months.tdiv 12, i.months.tmod 12, i.days].filter (· ≠ 0)).map
          fun n => decide (n < 0) := by
  have hunit (n : Int) (unit : String) :
      (shownUnit n unit).map Part.negative = ([n].filter (· ≠ 0)).map fun n => decide (n < 0) := by
    unfold shownUnit
    by_cases hn : n = 0 <;> simp [hn]
  rw [shownUnits, List.map_append, List.map_append, hunit, hunit, hunit, ← List.map_append,
    ← List.map_append, ← List.filter_append, ← List.filter_append]
  rfl

/-- The parts that are shown have the signs of the amounts that are not zero; where all are, the
clock is shown without a sign. -/
theorem map_negative_shown (i : Interval) :
    i.shown.map Part.negative
      = if i.amounts = [] then [false] else i.amounts.map fun n => decide (n < 0) := by
  have hunits := i.map_negative_shownUnits
  have hamounts : i.amounts = [i.months.tdiv 12, i.months.tmod 12, i.days].filter (· ≠ 0)
      ++ [i.micros].filter (· ≠ 0) := by
    rw [← List.filter_append]
    rfl
  have hclock : [shownClock i.micros].map Part.negative = [decide (i.micros < 0)] := by
    rw [List.map_singleton, negative_shownClock]
  by_cases hmicros : i.micros = 0
  · have hsame : i.amounts = [i.months.tdiv 12, i.months.tmod 12, i.days].filter (· ≠ 0) := by
      rw [hamounts, hmicros]
      exact List.append_nil _
    rw [← hsame] at hunits
    have hnone : i.amounts = [] ↔ i.shownUnits = [] := by
      rw [← List.map_eq_nil_iff (f := Part.negative), hunits, List.map_eq_nil_iff]
    rw [shown, List.map_append, hunits]
    by_cases hzero : i.amounts = []
    · rw [if_neg (not_and_not_right.mpr fun _ => hnone.mp hzero), if_pos hzero, hclock, hmicros,
        hzero]
      rfl
    · rw [if_pos ⟨hmicros, mt hnone.mpr hzero⟩, if_neg hzero]
      exact List.append_nil _
  · have hsome : [i.micros].filter (· ≠ 0) = [i.micros] := by simp [hmicros]
    rw [shown, if_neg fun hzero => hmicros hzero.1, List.map_append, hunits, hclock, hamounts,
      hsome, if_neg (by simp), List.map_append]
    rfl

theorem notMem_plus_serverText_iff (i : Interval) :
    '+' ∉ i.serverText.toList ↔ i.KeepsDirection := by
  rw [serverText, String.toList_ofList, notMem_plus_signed_iff (fun _ => notMem_plus_body),
    map_negative_shown]
  unfold KeepsDirection
  by_cases hnone : i.amounts = []
  · rw [if_pos hnone, hnone]
    simp
  · rw [if_neg hnone, List.isChain_cons, List.isChain_map]
    simp

/-- **The text of an interval** is the server's without its plus signs. -/
theorem toList_text_eq_filter (i : Interval) :
    i.text.toList = i.serverText.toList.filter (· ≠ '+') := by
  rw [toList_text, serverText, String.toList_ofList, filter_signed fun _ => notMem_plus_body]

theorem text_eq_serverText_iff (i : Interval) : i.text = i.serverText ↔ i.KeepsDirection := by
  rw [← notMem_plus_serverText_iff, ← String.toList_inj, toList_text_eq_filter,
    List.filter_eq_self]
  simp only [decide_eq_true_eq]
  exact ⟨fun hplain hplus => hplain _ hplus rfl, fun hplus c hc heq => hplus (heq ▸ hc)⟩

/-- The interval of a column. -/
def ofWords (micros : Int64) (days months : Int32) : Interval :=
  ⟨micros.toInt, days.toInt, months.toInt⟩

theorem decode?_bytes_ofWords (micros : Int64) (days months : Int32) :
    decode? .interval (ofWords micros days months).bytes
      = some (.text (ofWords micros days months).text) := by
  have hread := ofBytes?_bytes (ofWords micros days months) (fitsBytes_toInt micros)
    ⟨days.le_toInt, days.toInt_lt⟩ ⟨months.le_toInt, months.toInt_lt⟩
  exact congrArg (Option.map fun i => Value.text i.text) hread

end Interval

/--
**The text of an interval column and the style of the server.**  Every 64-bit number of
microseconds and 32-bit numbers of days and months is read as the text that the server shows,
without the plus signs in it, so as that text itself exactly where no positive part stands directly
behind a negative one.
-/
theorem interval_text_server_iff (micros : Int64) (days months : Int32) :
    ∃ s, decode? .interval (Interval.ofWords micros days months).bytes = some (.text s) ∧
      s.toList = (Interval.ofWords micros days months).serverText.toList.filter (· ≠ '+') ∧
      (s = (Interval.ofWords micros days months).serverText ↔
        (Interval.ofWords micros days months).KeepsDirection) :=
  ⟨_, Interval.decode?_bytes_ofWords micros days months, Interval.toList_text_eq_filter _,
    Interval.text_eq_serverText_iff _⟩

/-- One month back and one day forward. -/
theorem day_behind_month_has_no_plus :
    (Interval.ofWords 0 1 (-1)).bytes
        = [0, 0, 0, 0, 0, 0, 0, 0, 0, 0, 0, 1, 0xFF, 0xFF, 0xFF, 0xFF] ∧
      decode? .interval (Interval.ofWords 0 1 (-1)).bytes = some (.text "-1 mons 1 day") ∧
      (Interval.ofWords 0 1 (-1)).serverText = "-1 mons +1 day" := by
  have htext : (Interval.ofWords 0 1 (-1)).text = "-1 mons 1 day" := by decide +kernel
  refine ⟨by decide +kernel, ?_, by decide +kernel⟩
  rw [Interval.decode?_bytes_ofWords, htext]

end SqlSession.Wire
