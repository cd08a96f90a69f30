/-
A date and its number.

The number of a date counts the days of whole years, each taken to begin in March, and then the
days within the year.  Going back, the year is found by a division that is only right because the
leap days are taken out first, and the month by one that is only right because the lengths of the
months from March on follow `(153 m + 2) / 5`.  `Date.ofNumber?_number` says that the date comes
back, `Date.number_bounds` that numbers stay far within 32 bits.

A year counted from March has 366 days exactly where the February at its end has 29, so the last
day of such a year is the only one that needs care: `Date.dayOfYear_le`.
-/
import Mathlib.Tactic.IntervalCases
import SqlSession.Calendar.Date

namespace SqlSession.Date

variable (d : Date)

/-! ### The parts of the number -/

/-- The year that the date belongs to when years begin in March. -/
def marchYear : Int :=
  if d.month ≤ 2 then d.year - 1 else d.year

/-- The months that have passed since March. -/
def marchMonth : Int :=
  (d.month + 9 : Nat) % 12

/-- The days that have passed since 1 March. -/
def dayOfYear : Int :=
  (153 * d.marchMonth + 2) / 5 + (d.day : Int) - 1

theorem number_eq :
    d.number + 730425 =
      365 * d.marchYear + d.marchYear / 4 - d.marchYear / 100 + d.marchYear / 400
        + d.dayOfYear := by
  show 365 * d.marchYear + d.marchYear / 4 - d.marchYear / 100 + d.marchYear / 400
    + (153 * d.marchMonth + 2) / 5 + (d.day : Int) - 1 - 730425 + 730425 = _
  unfold dayOfYear
  omega

theorem isLeapYear_iff (year : Int) :
    isLeapYear year = true ↔ year % 4 = 0 ∧ (year % 100 ≠ 0 ∨ year % 400 = 0) := by
  simp [isLeapYear]

/-- The days of a month that is not February. -/
theorem day_le_of_ne_february (h : d.month ≠ 2) :
    d.day ≤ 31 ∧ (d.month = 4 ∨ d.month = 6 ∨ d.month = 9 ∨ d.month = 11 → d.day ≤ 30) := by
  have hlength : ∀ month, month ≠ 2 → daysInMonth d.year month ≤ 31 ∧
      (month = 4 ∨ month = 6 ∨ month = 9 ∨ month = 11 → daysInMonth d.year month ≤ 30) := by
    intro month hmonth
    unfold daysInMonth
    split
    case h_1 => exact absurd rfl hmonth
    case h_6 h4 h6 h9 h11 =>
      refine ⟨Nat.le_refl 31, fun hm => ?_⟩
      rcases hm with hm | hm | hm | hm
      · exact (h4 hm).elim
      · exact (h6 hm).elim
      · exact (h9 hm).elim
      · exact (h11 hm).elim
    all_goals omega
  have hday := d.day_le
  obtain ⟨hlong, hshort⟩ := hlength d.month h
  exact ⟨by omega, fun hm => Nat.le_trans hday (hshort hm)⟩

/-- The days of February. -/
theorem day_le_of_february (h : d.month = 2) :
    d.day ≤ 29 ∧ (d.day = 29 → isLeapYear d.year = true) := by
  have hday : d.day ≤ daysInMonth d.year 2 := h ▸ d.day_le
  simp only [daysInMonth] at hday
  split at hday
  next hleap => exact ⟨hday, fun _ => hleap⟩
  next => exact ⟨by omega, fun h29 => absurd h29 (by omega)⟩

theorem marchMonth_eq :
    (d.month ≤ 2 ∧ d.marchMonth = d.month + 9) ∨ (3 ≤ d.month ∧ d.marchMonth = d.month - 3) := by
  have hmonth := d.month_pos
  have hmonth' := d.month_le
  unfold marchMonth
  omega

/-- The month is found again from the day of the year, and the 366th day belongs to a year that
ends with a leap day. -/
theorem dayOfYear_spec :
    0 ≤ d.dayOfYear ∧ d.dayOfYear ≤ 365 ∧
      (d.dayOfYear = 365 → isLeapYear (d.marchYear + 1) = true) ∧
        (5 * d.dayOfYear + 2) / 153 = d.marchMonth := by
  have hmonth := d.month_pos
  have hmonth' := d.month_le
  have hday := d.day_pos
  have hmarch := d.marchMonth_eq
  unfold dayOfYear
  by_cases hfebruary : d.month = 2
  · obtain ⟨hlength, hleap⟩ := d.day_le_of_february hfebruary
    have hm : d.marchMonth = 11 := by omega
    have hyear : d.marchYear + 1 = d.year := by
      rw [marchYear, if_pos (by omega)]
      omega
    rw [hm, hyear]
    refine ⟨by omega, by omega, fun h => hleap (by omega), by omega⟩
  · obtain ⟨hlength, hshort⟩ := d.day_le_of_ne_february hfebruary
    have hcases : d.month = 1 ∨ d.month = 3 ∨ d.month = 4 ∨ d.month = 5 ∨ d.month = 6 ∨
        d.month = 7 ∨ d.month = 8 ∨ d.month = 9 ∨ d.month = 10 ∨ d.month = 11 ∨
          d.month = 12 := by omega
    have hm : d.marchMonth = if d.month = 1 then 10 else (d.month : Int) - 3 := by
      split <;> omega
    rcases hcases with h | h | h | h | h | h | h | h | h | h | h <;>
      rw [hm, h] <;>
      refine ⟨by omega, by omega, fun h365 => ?_, by omega⟩ <;>
      omega

/-! ### The parts found again -/

/-- The year of a cycle of 400 years is found again from the day of the cycle. -/
theorem yearOfCycle_eq (year day : Int) (hyear : 0 ≤ year ∧ year < 400)
    (hday : 0 ≤ day ∧ day ≤ 365) (hleap : day = 365 → isLeapYear (year + 1) = true) :
    let n := 365 * year + year / 4 - year / 100 + day
    0 ≤ n ∧ n < 146097 ∧ (n - n / 1460 + n / 36524 - n / 146096) / 365 = year := by
  intro n
  obtain ⟨q, hq⟩ : ∃ q, q = year / 100 := ⟨_, rfl⟩
  obtain ⟨r, hr⟩ : ∃ r, r = year % 100 / 4 := ⟨_, rfl⟩
  obtain ⟨s, hs⟩ : ∃ s, s = year % 4 := ⟨_, rfl⟩
  have hyear' : year = 100 * q + 4 * r + s := by omega
  have hn : n = 36524 * q + 1461 * r + 365 * s + day := by
    show 365 * year + year / 4 - year / 100 + day = _
    omega
  have hlast : day = 365 → s = 3 ∧ (r = 24 → q = 3) := by
    intro h
    have := (isLeapYear_iff _).mp (hleap h)
    omega
  -- the quotients count the leap days passed, all but those of the centuries
  obtain ⟨x, hx⟩ : ∃ x, x = 1461 * r + 365 * s + day := ⟨_, rfl⟩
  have hrange : 0 ≤ q ∧ q ≤ 3 ∧ 0 ≤ r ∧ r ≤ 24 ∧ 0 ≤ s ∧ s ≤ 3 := by omega
  have hwithin : 0 ≤ x ∧ (x ≤ 36523 ∨ (q = 3 ∧ x = 36524)) := by
    rcases Int.lt_or_le day 365 with hbefore | hafter
    · omega
    · have := hlast (by omega)
      omega
  have hnx : n = 36524 * q + x := by omega
  have hcentury : n / 36524 - n / 146096 = q := by
    clear_value n
    clear hn hyear hyear' hq hr hs hx hlast hleap
    omega
  have hdays : n / 1460 = 25 * q + r ∨
      (n / 1460 = 25 * q + r + 1 ∧ s = 3 ∧ 365 ≤ 24 * q + r + day) := by omega
  refine ⟨by omega, by omega, ?_⟩
  rcases hdays with hdays | ⟨hdays, hs3, hlate⟩
  · have hbefore : day < 365 := by omega
    omega
  · omega

/-- A date is found again from its number. -/
theorem ofNumber?_number : ofNumber? d.number = some d := by
  obtain ⟨hlow, hhigh, hleap, hmonthOfYear⟩ := d.dayOfYear_spec
  have hcycleLeap : d.dayOfYear = 365 → isLeapYear (d.marchYear % 400 + 1) = true := by
    intro h
    have := (isLeapYear_iff _).mp (hleap h)
    rw [isLeapYear_iff]
    omega
  obtain ⟨hn, hn', hyear⟩ := yearOfCycle_eq (d.marchYear % 400) d.dayOfYear
    (by omega) ⟨hlow, hhigh⟩ hcycleLeap
  obtain ⟨n, hndef⟩ : ∃ n, n = 365 * (d.marchYear % 400) + d.marchYear % 400 / 4
      - d.marchYear % 400 / 100 + d.dayOfYear := ⟨_, rfl⟩
  rw [← hndef] at hn hn' hyear
  have hfour : d.marchYear / 4 = 100 * (d.marchYear / 400) + d.marchYear % 400 / 4 := by omega
  have hhundred : d.marchYear / 100 = 4 * (d.marchYear / 400) + d.marchYear % 400 / 100 := by
    omega
  have hnumber : d.number + 730425 = 146097 * (d.marchYear / 400) + n := by
    have := d.number_eq
    omega
  have hcycle : (d.number + 730425) / 146097 = d.marchYear / 400 := by omega
  have hdayOfCycle : (d.number + 730425) % 146097 = n := by omega
  have hdayOfYear : n - (365 * (d.marchYear % 400) + d.marchYear % 400 / 4
      - d.marchYear % 400 / 100) = d.dayOfYear := by omega
  have hday : d.dayOfYear - (153 * d.marchMonth + 2) / 5 + 1 = d.day := by
    unfold dayOfYear
    omega
  have hmarch := d.marchMonth_eq
  have hmonth' := d.month_pos
  have hmonth'' := d.month_le
  have hmonth : (if d.marchMonth < 10 then d.marchMonth + 3 else d.marchMonth - 9) = d.month := by
    split <;> omega
  have hyears : d.marchYear % 400 + d.marchYear / 400 * 400 + (if (d.month : Int) ≤ 2 then 1 else 0)
      = d.year := by
    unfold marchYear
    split <;> split <;> omega
  unfold ofNumber?
  simp only [hcycle, hdayOfCycle, hyear, hdayOfYear, hmonthOfYear, hday, hmonth, hyears,
    Int.toNat_natCast]
  exact dif_pos ⟨⟨d.le_year, d.year_le⟩, ⟨d.month_pos, d.month_le⟩, d.day_pos, d.day_le⟩

/-- The numbers of dates lie within hundred million days of the epoch. -/
theorem number_bounds : -100000000 < d.number ∧ d.number < 100000000 := by
  have hlow := d.le_year
  have hhigh := d.year_le
  have hspec := d.dayOfYear_spec
  have hyear : d.year - 1 ≤ d.marchYear ∧ d.marchYear ≤ d.year := by
    unfold marchYear
    split <;> omega
  have := d.number_eq
  omega

/-! ### The day after -/

/-- 31 December 262142. -/
def IsLast : Prop :=
  d.year = 262142 ∧ d.month = 12 ∧ d.day = 31

instance : Decidable d.IsLast :=
  inferInstanceAs (Decidable (_ ∧ _ ∧ _))

theorem number_of_isLast (h : d.IsLast) : d.number = 95015279 := by
  obtain ⟨hyear, hmonth, hday⟩ := h
  unfold number
  simp [hyear, hmonth, hday]

/-- A year counted from March is a day longer where the February at its end is. -/
theorem marchYears_succ (year : Int) :
    365 * year + year / 4 - year / 100 + year / 400
      = 365 * (year - 1) + (year - 1) / 4 - (year - 1) / 100 + (year - 1) / 400
        + (if isLeapYear year then 366 else 365) := by
  have hleap := isLeapYear_iff year
  split
  next h =>
    have := hleap.mp h
    omega
  next h =>
    have hnot : ¬(year % 4 = 0 ∧ (year % 100 ≠ 0 ∨ year % 400 = 0)) := fun hl => h (hleap.mpr hl)
    omega

/-- The first of a month is the day after the last of the month before. -/
theorem number_first_of_month {e : Date} (hmonth : d.month ≤ 11)
    (hlast : d.day = daysInMonth d.year d.month)
    (he : e.year = d.year ∧ e.month = d.month + 1 ∧ e.day = 1) : e.number = d.number + 1 := by
  have hpos := d.month_pos
  unfold number
  rw [he.1, he.2.1, he.2.2, hlast]
  generalize d.month = month at hmonth hpos ⊢
  interval_cases month
  -- only behind February the year counts on, and February is as long as that asks for
  case «2» =>
    have hyears := marchYears_succ d.year
    simp [daysInMonth]
    split
    next hleap =>
      rw [if_pos hleap] at hyears
      omega
    next hleap =>
      rw [if_neg hleap] at hyears
      omega
  all_goals
    simp [daysInMonth]
    try omega

/-- New Year is the day after New Year's Eve. -/
theorem number_new_year {e : Date} (hmonth : d.month = 12) (hday : d.day = 31)
    (he : e.year = d.year + 1 ∧ e.month = 1 ∧ e.day = 1) : e.number = d.number + 1 := by
  unfold number
  rw [he.1, he.2.1, he.2.2, hmonth, hday]
  simp
  omega

/-- Behind every date but the last one there is another. -/
theorem exists_number_add_one (h : ¬d.IsLast) : ∃ e : Date, e.number = d.number + 1 := by
  by_cases hday : d.day < daysInMonth d.year d.month
  · refine ⟨⟨d.year, d.month, d.day + 1, d.le_year, d.year_le, d.month_pos, d.month_le, by omega,
      hday⟩, ?_⟩
    unfold number
    simp only []
    omega
  have hlast : d.day = daysInMonth d.year d.month := Nat.le_antisymm d.day_le (by omega)
  by_cases hmonth : d.month ≤ 11
  · exact ⟨⟨d.year, d.month + 1, 1, d.le_year, d.year_le, by omega, by omega, by omega,
      by unfold daysInMonth; split <;> (try split) <;> omega⟩,
      d.number_first_of_month hmonth hlast ⟨rfl, rfl, rfl⟩⟩
  · have hdecember : d.month = 12 := by have := d.month_le; omega
    have h31 : d.day = 31 := by rw [hlast, hdecember]; rfl
    have hyear : d.year ≠ 262142 := fun hy => h ⟨hy, hdecember, h31⟩
    have hle := d.le_year
    have hge := d.year_le
    exact ⟨⟨d.year + 1, 1, 1, by omega, by omega, by omega, by omega, by omega, by simp [daysInMonth]⟩,
      d.number_new_year hdecember h31 ⟨rfl, rfl, rfl⟩⟩

/-- The day behind a date is in range, unless the date is the last one. -/
theorem ofNumber?_add_one : (ofNumber? (d.number + 1)).isSome ↔ ¬d.IsLast := by
  by_cases h : d.IsLast
  · rw [d.number_of_isLast h]
    exact iff_of_false (by decide) fun hnot => hnot h
  · obtain ⟨e, he⟩ := d.exists_number_add_one h
    rw [← he, e.ofNumber?_number]
    exact iff_of_true rfl h

end SqlSession.Date
