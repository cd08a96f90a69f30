/-
Dates of the Gregorian calendar.

The calendar is taken to hold for all years, before its introduction and before year 1
too.  A date also has a number, counted in days from 1 January 2000.  For the count the
year is taken to begin in March, so that a leap day is the last of its year, and 400
years make one cycle of 146097 days.
-/
import SqlSession.Text.Integer

namespace SqlSession

/-- A leap year has a 29 February. -/
def isLeapYear (year : Int) : Bool :=
  year % 4 == 0 && (year % 100 != 0 || year % 400 == 0)

/-- The length of a month from 1 to 12. -/
def daysInMonth (year : Int) (month : Nat) : Nat :=
  match month with
  | 2 => if isLeapYear year then 29 else 28
  | 4 | 6 | 9 | 11 => 30
  | _ => 31

/-- A date from 1 January -262143 to 31 December 262142. -/
structure Date where
  year : Int
  month : Nat
  day : Nat
  le_year : -262143 ≤ year
  year_le : year ≤ 262142
  month_pos : 1 ≤ month
  month_le : month ≤ 12
  day_pos : 1 ≤ day
  day_le : day ≤ daysInMonth year month
  deriving DecidableEq, Repr

namespace Date

/-- The date with these parts, if there is one. -/
def ofParts? (year : Int) (month day : Nat) : Option Date :=
  if h : (-262143 ≤ year ∧ year ≤ 262142) ∧ (1 ≤ month ∧ month ≤ 12)
      ∧ 1 ≤ day ∧ day ≤ daysInMonth year month then
    some ⟨year, month, day, h.1.1, h.1.2, h.2.1.1, h.2.1.2, h.2.2.1, h.2.2.2⟩
  else none

/-- 1 January 2000. -/
def epoch : Date :=
  ⟨2000, 1, 1, by decide, by decide, by decide, by decide, by decide, by decide⟩

instance : Inhabited Date := ⟨epoch⟩

/-- The number of a date: 0 is 1 January 2000. -/
def number (d : Date) : Int :=
  let year := if d.month ≤ 2 then d.year - 1 else d.year
  let monthsSinceMarch : Int := (d.month + 9 : Nat) % 12
  365 * year + year / 4 - year / 100 + year / 400 + (153 * monthsSinceMarch + 2) / 5
    + (d.day : Int) - 1 - 730425

/-- The date with a given number, if it lies in range. -/
def ofNumber? (n : Int) : Option Date :=
  let sinceMarchZero := n + 730425
  let cycle := sinceMarchZero / 146097
  let dayOfCycle := sinceMarchZero % 146097
  let yearOfCycle :=
    (dayOfCycle - dayOfCycle / 1460 + dayOfCycle / 36524 - dayOfCycle / 146096) / 365
  let dayOfYear := dayOfCycle - (365 * yearOfCycle + yearOfCycle / 4 - yearOfCycle / 100)
  let monthsSinceMarch := (5 * dayOfYear + 2) / 153
  let day := dayOfYear - (153 * monthsSinceMarch + 2) / 5 + 1
  let month := if monthsSinceMarch < 10 then monthsSinceMarch + 3 else monthsSinceMarch - 9
  let year := yearOfCycle + cycle * 400 + (if month ≤ 2 then 1 else 0)
  ofParts? year month.toNat day.toNat

/-- The text of a year: at least four digits, and a sign outside 0 to 9999. -/
def yearText (year : Int) : List Char :=
  if 0 ≤ year ∧ year ≤ 9999 then Text.paddedDigits 4 year.toNat
  else (if year < 0 then '-' else '+') :: Text.paddedDigits 4 year.natAbs

/-- Year, month and day with hyphens between. -/
def chars (d : Date) : List Char :=
  yearText d.year ++ '-' :: Text.paddedDigits 2 d.month ++ '-' :: Text.paddedDigits 2 d.day

def text (d : Date) : String :=
  String.ofList d.chars

end Date

end SqlSession
