/-
Reading the canonical text of a point in time.

A record holds a date or a timestamp as text with milliseconds.  Such a text is read back as the
same point in time, cut to whole milliseconds: `Timestamp.parse?_millisText`.  Every year comes
back, also one before year 0 or past 9999, because a sign lifts the limit of four digits, and so
does a leap second at the end of a minute, which is written as second 60.  Within a minute a leap
second has no number of its own.  It is written as the second after it, and that is what is read.
With a `T` between date and time the text is read as the same point in time, because a canonical
text holds no other letter: `Timestamp.canonical_text_reread`.

The readers skip blanks in front of each number and take as many digits as they may, so each lemma
says what a reader makes of a written part in front of any rest, and needs of the rest only that a
number of unlimited width does not run on into it.

As a date alone the text is never read, because the time of day is left over:
`Date.parse?_millisText`.
-/
import Mathlib.Data.List.TakeWhile
import SqlSession.Calendar.Reading
import SqlSession.Proofs.Text.Digits

namespace SqlSession

open Text
open DecimalLiteral (natOfDigits)

variable {c : Char} {cs ds rest : List Char}

/-! ### Numbers -/

namespace Text

theorem isBlank_of_isDigit (h : c.isDigit = true) : isBlank c = false := by
  have hbounds : 48 ≤ c.toNat ∧ c.toNat ≤ 57 := by
    simp only [Char.isDigit, Bool.and_eq_true, decide_eq_true_eq] at h
    exact ⟨h.1, h.2⟩
  simp only [isBlank, Bool.or_eq_false_iff, Bool.and_eq_false_iff, decide_eq_false_iff_not,
    beq_eq_false_iff_ne]
  omega

/-- No blank stands in front of digits. -/
theorem IsDigits.trimStart (h : IsDigits ds) : trimStart (ds ++ rest) = ds ++ rest := by
  obtain ⟨d, ds, rfl⟩ := List.exists_cons_of_ne_nil h.1
  exact trimStart_cons_of_not_blank _ (isBlank_of_isDigit (h.2 d (List.mem_cons_self ..)))

theorem digitsValue?_of_ne_nil (h : ds ≠ []) : digitsValue? ds = some (natOfDigits ds) := by
  unfold digitsValue?
  rw [if_neg (by simpa using h)]
  rfl

/-- Digits are read as far as the width goes, and the rest stays. -/
theorem readDigitsUpTo_of_isDigits {width : Nat} (rest : List Char) (hds : IsDigits ds)
    (hend : ds.length = width ∨ ds.length ≤ width ∧ Undigited rest) :
    readDigitsUpTo width (ds ++ rest) = some (natOfDigits ds, rest) := by
  have hread : ((ds ++ rest).take width).takeWhile Char.isDigit = ds := by
    rcases hend with hfull | ⟨hroom, hrest⟩
    · rw [List.take_left' hfull]
      exact List.takeWhile_eq_self_iff.mpr fun c => hds.2 c
    · rw [List.take_append, List.take_of_length_le hroom]
      refine takeWhile_isDigit hds.2 fun c hc => hrest c ?_
      rw [List.head?_take] at hc
      split at hc
      · exact absurd hc (Option.not_mem_none c)
      · exact hc
  unfold readDigitsUpTo
  simp only [hread, digitsValue?_of_ne_nil hds.1, Option.map_some, List.drop_left]

theorem readPair_paddedDigits {n : Nat} (h : n < 100) :
    readPair (paddedDigits 2 n ++ rest) = some (n, rest) := by
  unfold readPair
  rw [(isDigits_paddedDigits 2 n).trimStart, readDigitsUpTo_of_isDigits _
    (isDigits_paddedDigits 2 n) (.inl (length_paddedDigits_of_lt (by decide) h)),
    natOfDigits_paddedDigits]

@[simp] theorem readChar_cons (c : Char) (rest : List Char) : readChar c (c :: rest) = some rest :=
  if_pos rfl

end Text

/-! ### Dates -/

namespace Date

/-- A number behind a sign has no width to keep to. -/
theorem readDigitsUpTo_signed (n : Nat) (hrest : Undigited rest) :
    readDigitsUpTo (paddedDigits 4 n ++ rest).length (paddedDigits 4 n ++ rest)
      = some (n, rest) := by
  rw [readDigitsUpTo_of_isDigits rest (isDigits_paddedDigits 4 n)
    (.inr ⟨by rw [List.length_append]; omega, hrest⟩), natOfDigits_paddedDigits]

theorem readYear_yearText (year : Int) (hrest : Undigited rest) :
    readYear (yearText year ++ rest) = some (year, rest) := by
  unfold yearText
  by_cases hplain : 0 ≤ year ∧ year ≤ 9999
  · have hlt : year.toNat < 10 ^ 4 := by omega
    have hdigits := isDigits_paddedDigits 4 year.toNat
    obtain ⟨d, ds, hcons⟩ := List.exists_cons_of_ne_nil hdigits.1
    have hd : d.isDigit = true := hdigits.2 d (hcons ▸ List.mem_cons_self ..)
    have hread := readDigitsUpTo_of_isDigits rest hdigits
      (.inl (length_paddedDigits_of_lt (by decide) hlt))
    rw [if_pos hplain]
    unfold readYear
    rw [hdigits.trimStart]
    rw [hcons] at hread ⊢
    split
    case h_1 hminus => exact absurd hd ((List.cons.inj hminus).1 ▸ by decide)
    case h_2 hplus => exact absurd hd ((List.cons.inj hplus).1 ▸ by decide)
    case h_3 =>
      rw [hread, ← hcons, natOfDigits_paddedDigits, Option.map_some]
      simp only [Int.toNat_of_nonneg hplain.1]
  · rw [if_neg hplain]
    by_cases hneg : year < 0
    · rw [if_pos hneg, List.cons_append]
      unfold readYear
      rw [trimStart_cons_of_not_blank _ (by decide)]
      simp only [readDigitsUpTo_signed _ hrest, Option.map_some]
      congr 2
      omega
    · rw [if_neg hneg, List.cons_append]
      unfold readYear
      rw [trimStart_cons_of_not_blank _ (by decide)]
      simp only [readDigitsUpTo_signed _ hrest, Option.map_some]
      congr 2
      omega

theorem ofParts?_self (d : Date) : ofParts? d.year d.month d.day = some d :=
  dif_pos ⟨⟨d.le_year, d.year_le⟩, ⟨d.month_pos, d.month_le⟩, d.day_pos, d.day_le⟩

theorem day_lt (d : Date) : d.day < 100 := by
  have hlength : daysInMonth d.year d.month ≤ 31 := by
    unfold daysInMonth
    split
    · split <;> decide
    all_goals decide
  have := d.day_le
  omega

/-- A written date is read back in front of anything. -/
theorem read_chars (d : Date) (rest : List Char) : read (d.chars ++ rest) = some (d, rest) := by
  have hmonth : d.month < 100 := by have := d.month_le; omega
  have hundigited (rest : List Char) : Undigited ('-' :: rest) := by
    intro c hc
    rw [← Option.some.inj hc]
    rfl
  unfold read chars
  simp only [List.append_assoc, List.cons_append, Option.bind_eq_bind, Option.pure_def,
    readYear_yearText d.year (hundigited _), Option.bind_some, readChar_cons,
    readPair_paddedDigits hmonth, readPair_paddedDigits d.day_lt, ofParts?_self]

end Date

/-! ### Times of the day -/

namespace Clock

/-- The time with its nanoseconds cut to whole milliseconds. -/
def toMillis (t : Clock) : Clock :=
  ⟨t.second, t.nanos / 1000000 * 1000000, t.second_lt, by have := t.nanos_lt; omega⟩

theorem ofParts?_self (t : Clock) : ofParts? t.second t.nanos = some t :=
  dif_pos ⟨t.second_lt, t.nanos_lt⟩

/-- A leap second that stands within a minute. -/
def IsStray (t : Clock) : Prop :=
  1000000000 ≤ t.nanos ∧ t.second % 60 ≠ 59

instance (t : Clock) : Decidable t.IsStray :=
  inferInstanceAs (Decidable (_ ∧ _))

/-- The time with the second after it in place of a stray leap second. -/
def settled (t : Clock) : Clock :=
  if h : t.IsStray then
    ⟨t.second + 1, t.nanos - 1000000000,
      by have := t.second_lt; have := h.2; omega, by have := t.nanos_lt; omega⟩
  else t

theorem settled_of_stray {t : Clock} (h : t.IsStray) :
    t.settled.second = t.second + 1 ∧ t.settled.nanos = t.nanos - 1000000000 := by
  rw [settled, dif_pos h]
  exact ⟨rfl, rfl⟩

theorem settled_of_not_stray {t : Clock} (h : ¬t.IsStray) : t.settled = t :=
  dif_neg h

theorem not_isStray_settled (t : Clock) : ¬t.settled.IsStray := by
  by_cases h : t.IsStray
  · obtain ⟨-, hnanos⟩ := settled_of_stray h
    intro hstray
    have hleap := hstray.1
    have hlt := t.nanos_lt
    omega
  · rwa [settled_of_not_stray h]

/-- The second after a stray leap second is written as the leap second is. -/
theorem millisChars_settled (t : Clock) : t.settled.millisChars = t.millisChars := by
  by_cases h : t.IsStray
  · obtain ⟨hsecond, hnanos⟩ := settled_of_stray h
    obtain ⟨hleap, hwithin⟩ := h
    have hlt := t.nanos_lt
    -- The second after it still lies in the minute.
    have hhour : (t.second + 1) / 3600 = t.second / 3600 := by omega
    have hminute : (t.second + 1) / 60 % 60 = t.second / 60 % 60 := by omega
    have hshown : (t.second + 1) % 60 + (t.nanos - 1000000000) / 1000000000
        = t.second % 60 + t.nanos / 1000000000 := by omega
    have hfraction : (t.nanos - 1000000000) % 1000000000 = t.nanos % 1000000000 := by omega
    unfold millisChars wholeChars fraction
    simp only [hsecond, hnanos, hhour, hminute, hshown, hfraction]
  · rw [settled_of_not_stray h]

/-- Cutting the nanoseconds within the second shown cuts the nanoseconds. -/
theorem cut_fraction (t : Clock) :
    t.fraction / 1000000 * 1000000 + t.nanos / 1000000000 * 1000000000
      = t.nanos / 1000000 * 1000000 := by
  unfold fraction
  omega

/-- Cutting to milliseconds changes nothing of what is written. -/
theorem millisChars_toMillis (t : Clock) : t.toMillis.millisChars = t.millisChars := by
  have hshown : t.nanos / 1000000 * 1000000 / 1000000000 = t.nanos / 1000000000 := by omega
  have hmillis : t.nanos / 1000000 * 1000000 % 1000000000 / 1000000
      = t.nanos % 1000000000 / 1000000 := by omega
  unfold millisChars wholeChars fraction
  simp only [toMillis, hshown, hmillis]

/-- The hours, minutes and seconds shown, and the nanoseconds within the second, are the time. -/
theorem ofHms?_shown {t : Clock} (h : ¬t.IsStray) :
    ofHms? (t.second / 3600) (t.second / 60 % 60) (t.second % 60 + t.nanos / 1000000000)
      (t.fraction / 1000000 * 1000000) = some t.toMillis := by
  have hself : ofParts? t.second (t.nanos / 1000000 * 1000000) = some t.toMillis :=
    ofParts?_self t.toMillis
  have hwhole : t.second / 3600 * 3600 + t.second / 60 % 60 * 60 + t.second % 60 = t.second := by
    omega
  have hhour : t.second / 3600 < 24 := Nat.div_lt_of_lt_mul t.second_lt
  have hleap : t.nanos / 1000000000 = 0 ∨ t.nanos / 1000000000 = 1 ∧ t.second % 60 = 59 := by
    have := t.nanos_lt
    unfold IsStray at h
    omega
  have hcut := t.cut_fraction
  unfold ofHms?
  rw [if_neg (by omega)]
  rcases hleap with hplain | ⟨hextra, hlast⟩
  · rw [hplain, Nat.zero_mul, Nat.add_zero] at hcut
    rw [hplain, Nat.add_zero, if_neg (by omega), hwhole, hcut, hself]
  · rw [hextra, Nat.one_mul] at hcut
    rw [hlast] at hwhole
    rw [hextra, hlast, if_pos rfl, hwhole, hcut, hself]

theorem readMillis_paddedDigits {n : Nat} (h : n < 1000) (rest : List Char) :
    readMillis ('.' :: (paddedDigits 3 n ++ rest)) = some (n * 1000000, rest) := by
  have hlength : (paddedDigits 3 n).length = 3 := length_paddedDigits_of_lt (by decide) h
  have hread : ((paddedDigits 3 n ++ rest).take 3).takeWhile Char.isDigit = paddedDigits 3 n := by
    rw [List.take_left' hlength]
    exact List.takeWhile_eq_self_iff.mpr (isDigits_paddedDigits 3 n).2
  unfold readMillis
  simp only [hread, hlength, if_pos, digitsValue?_of_ne_nil (paddedDigits_ne_nil 3 n),
    natOfDigits_paddedDigits, Option.map_some, List.drop_left' hlength]

/-- A written time that is no stray leap second is read back in front of anything. -/
theorem read_millisChars {t : Clock} (h : ¬t.IsStray) (rest : List Char) :
    read readMillis (t.millisChars ++ rest) = some (t.toMillis, rest) := by
  have hsecond := t.second_lt
  have hnanos := t.nanos_lt
  have hhour : t.second / 3600 < 100 := by omega
  have hminute : t.second / 60 % 60 < 100 := by omega
  have hshown : t.second % 60 + t.nanos / 1000000000 < 100 := by omega
  have hmillis : t.fraction / 1000000 < 1000 := by unfold fraction; omega
  unfold read millisChars wholeChars
  simp only [List.append_assoc, List.cons_append, Option.bind_eq_bind, Option.pure_def,
    readPair_paddedDigits hhour, readPair_paddedDigits hminute, readPair_paddedDigits hshown,
    Option.bind_some, readChar_cons, readMillis_paddedDigits hmillis, ofHms?_shown h]

/-- A written time begins with a digit. -/
theorem trimStart_millisChars (t : Clock) : trimStart t.millisChars = t.millisChars := by
  unfold millisChars wholeChars
  rw [List.append_assoc, List.append_assoc]
  exact (isDigits_paddedDigits 2 _).trimStart

theorem length_millisChars (t : Clock) : t.millisChars.length = 12 := by
  have hsecond := t.second_lt
  have hnanos := t.nanos_lt
  have htwo {n : Nat} (h : n < 10 ^ 2) : (paddedDigits 2 n).length = 2 :=
    length_paddedDigits_of_lt (by decide) h
  have hmillis : (paddedDigits 3 (t.fraction / 1000000)).length = 3 :=
    length_paddedDigits_of_lt (by decide) (by unfold fraction; omega)
  unfold millisChars wholeChars
  simp only [List.length_append, List.length_cons, hmillis]
  rw [htwo (by omega), htwo (by omega), htwo (by omega)]

end Clock

/-! ### Points in time -/

namespace Timestamp

/-- The point in time cut to whole milliseconds. -/
def toMillis (t : Timestamp) : Timestamp :=
  ⟨t.date, t.clock.toMillis⟩

/-- What the canonical text of a point in time is read as. -/
def reread (t : Timestamp) : Timestamp :=
  ⟨t.date, t.clock.settled.toMillis⟩

/-- Digits and the marks between them all stand in front of the letters. -/
theorem toNat_lt_of_mem_paddedDigits {width n : Nat} (h : c ∈ paddedDigits width n) :
    c.toNat < 64 := by
  have hdigit := isDigit_of_mem_paddedDigits h
  simp only [Char.isDigit, Bool.and_eq_true, decide_eq_true_eq] at hdigit
  have : c.toNat ≤ 57 := hdigit.2
  omega

theorem toNat_lt_of_mem_chars {d : Date} (h : c ∈ d.chars) : c.toNat < 64 := by
  have hyear (hc : c ∈ Date.yearText d.year) : c.toNat < 64 := by
    unfold Date.yearText at hc
    split at hc
    · exact toNat_lt_of_mem_paddedDigits hc
    · rcases List.mem_cons.mp hc with hsign | hc
      · rw [hsign]
        split <;> decide
      · exact toNat_lt_of_mem_paddedDigits hc
  simp only [Date.chars, List.mem_append, List.mem_cons] at h
  rcases h with (h | h | h) | h | h
  all_goals first
    | exact hyear h
    | exact toNat_lt_of_mem_paddedDigits h
    | exact h ▸ (by decide)

theorem toNat_lt_of_mem_millisChars {t : Clock} (h : c ∈ t.millisChars) : c.toNat < 64 := by
  simp only [Clock.millisChars, Clock.wholeChars, List.mem_append, List.mem_cons] at h
  rcases h with ((h | h | h) | h | h) | h | h
  all_goals first
    | exact toNat_lt_of_mem_paddedDigits h
    | exact h ▸ (by decide)

theorem toNat_lt_of_mem_millisText {t : Timestamp} (h : c ∈ t.millisText.toList) :
    c.toNat < 64 := by
  rw [millisText, String.toList_ofList, List.mem_append, List.mem_cons] at h
  rcases h with h | h | h
  · exact toNat_lt_of_mem_chars h
  · exact h ▸ (by decide)
  · exact toNat_lt_of_mem_millisChars h

theorem withoutMark_of_notMem (h : 'T' ∉ cs) : withoutMark cs = cs := by
  induction cs with
  | nil => rfl
  | cons c cs ih =>
      rw [List.mem_cons, not_or] at h
      unfold withoutMark
      rw [if_neg fun hc => h.1 hc.symm, ih h.2]

/-- The first `T` becomes a blank. -/
theorem withoutMark_append (h : 'T' ∉ cs) (rest : List Char) :
    withoutMark (cs ++ 'T' :: rest) = cs ++ ' ' :: rest := by
  induction cs with
  | nil => exact if_pos rfl
  | cons c cs ih =>
      rw [List.mem_cons, not_or] at h
      rw [List.cons_append, withoutMark, if_neg fun hc => h.1 hc.symm, ih h.2, List.cons_append]

/-- A written year begins with a sign or a digit. -/
theorem isBlank_head?_yearText {year : Int} (rest : List Char)
    (h : c ∈ (Date.yearText year ++ rest).head?) : isBlank c = false := by
  unfold Date.yearText at h
  split at h
  · rw [List.head?_append, List.head?_eq_some_head (paddedDigits_ne_nil _ _), Option.some_or] at h
    rw [← Option.some.inj h]
    exact isBlank_of_isDigit (isDigit_of_mem_paddedDigits (List.head_mem _))
  · rw [← Option.some.inj h]
    split <;> decide

/-- Whatever stands between date and time, the text begins with its year and ends with a digit. -/
theorem trim_apart (t : Timestamp) (mark : Char) :
    trim (t.date.chars ++ mark :: t.clock.millisChars)
      = t.date.chars ++ mark :: t.clock.millisChars := by
  have hyear : ∃ rest, t.date.chars ++ mark :: t.clock.millisChars
      = Date.yearText t.date.year ++ rest :=
    ⟨_, by simp only [Date.chars, List.append_assoc]; rfl⟩
  have hmillis : ∃ front, t.date.chars ++ mark :: t.clock.millisChars
      = front ++ paddedDigits 3 (t.clock.fraction / 1000000) :=
    ⟨t.date.chars ++ mark :: (t.clock.wholeChars ++ ['.']), by
      simp only [Clock.millisChars, List.append_assoc, List.cons_append, List.nil_append]⟩
  refine trim_of_ends (fun c hc => ?_) (fun c hc => ?_)
  · obtain ⟨rest, hrest⟩ := hyear
    exact isBlank_head?_yearText rest (hrest ▸ hc)
  · obtain ⟨front, hfront⟩ := hmillis
    rw [hfront, List.getLast?_append, List.getLast?_eq_some_getLast (paddedDigits_ne_nil _ _),
      Option.some_or] at hc
    rw [← Option.some.inj hc]
    exact isBlank_of_isDigit (isDigit_of_mem_paddedDigits (List.getLast_mem _))

theorem trim_millisText (t : Timestamp) : trim t.millisText.toList = t.millisText.toList := by
  rw [millisText, String.toList_ofList, trim_apart]

theorem parseFull?_millisText (t : Timestamp) :
    parseFull? t.millisText.toList = some t.reread := by
  have hblank : trimStart (' ' :: t.clock.millisChars) = t.clock.millisChars := by
    rw [trimStart_cons_blank _ (by decide), Clock.trimStart_millisChars]
  have hclock := Clock.read_millisChars t.clock.not_isStray_settled []
  rw [List.append_nil, Clock.millisChars_settled] at hclock
  unfold parseFull? millisText
  rw [String.toList_ofList]
  simp only [Option.bind_eq_bind, Date.read_chars, Option.bind_some, hblank, hclock]
  rfl

/-- There is no letter in a canonical text that could be taken for the mark. -/
theorem withoutMark_millisText (t : Timestamp) :
    withoutMark (trim t.millisText.toList) = t.millisText.toList := by
  have hmark : 'T' ∉ t.millisText.toList :=
    fun h => absurd (toNat_lt_of_mem_millisText h) (by decide)
  rw [trim_millisText, withoutMark_of_notMem hmark]

/-- **A point in time in its canonical text** is read back, cut to milliseconds. -/
theorem parse?_millisText (t : Timestamp) : parse? t.millisText = some t.reread := by
  unfold parse?
  simp only [withoutMark_millisText, parseFull?_millisText]

/-- What is read back has the same canonical text. -/
@[simp] theorem millisText_reread (t : Timestamp) : t.reread.millisText = t.millisText := by
  have hsame : t.clock.settled.toMillis.millisChars = t.clock.millisChars :=
    t.clock.settled.millisChars_toMillis.trans t.clock.millisChars_settled
  unfold millisText
  simp only [reread, hsame]

theorem reread_of_not_stray {t : Timestamp} (h : ¬t.clock.IsStray) : t.reread = t.toMillis := by
  rw [reread, Clock.settled_of_not_stray h]
  rfl

/-- A stray leap second is read as the second after it. -/
theorem reread_of_stray {t : Timestamp} (h : t.clock.IsStray) :
    t.reread.clock.second = t.clock.second + 1 ∧
      t.reread.clock.nanos = (t.clock.nanos - 1000000000) / 1000000 * 1000000 := by
  obtain ⟨hsecond, hnanos⟩ := Clock.settled_of_stray h
  constructor
  · exact hsecond
  · show t.clock.settled.nanos / 1000000 * 1000000 = _
    rw [hnanos]

/-- The canonical text with a `T` in place of the blank. -/
def markedText (t : Timestamp) : String :=
  String.ofList (t.date.chars ++ 'T' :: t.clock.millisChars)

/-- The mark is taken for the blank that it stands for. -/
theorem parse?_markedText (t : Timestamp) : parse? t.markedText = parse? t.millisText := by
  have hdate : 'T' ∉ t.date.chars := fun h => absurd (toNat_lt_of_mem_chars h) (by decide)
  have hmarked : withoutMark (trim t.markedText.toList) = t.millisText.toList := by
    rw [markedText, String.toList_ofList, trim_apart, withoutMark_append hdate, millisText,
      String.toList_ofList]
  unfold parse?
  simp only [hmarked, withoutMark_millisText]

/--
**A canonical text is reread.**  With a blank or with a `T` between date and time, the text of any
point in time is read as one point, and that has the same text.  It is the point that was written,
with its nanoseconds cut to whole milliseconds, exactly if that is no leap second within a minute.
One of those is read as the second after it.
-/
theorem canonical_text_reread (t : Timestamp) :
    parse? t.millisText = some t.reread ∧ parse? t.markedText = some t.reread ∧
      t.reread.millisText = t.millisText ∧
      (t.reread = t.toMillis ↔ ¬t.clock.IsStray) ∧
      (t.toMillis.date = t.date ∧ t.toMillis.clock.second = t.clock.second ∧
        t.toMillis.clock.nanos = t.clock.nanos / 1000000 * 1000000) ∧
      (t.clock.IsStray → t.reread.date = t.date ∧
        t.reread.clock.second = t.clock.second + 1 ∧
        t.reread.clock.nanos = (t.clock.nanos - 1000000000) / 1000000 * 1000000) := by
  refine ⟨t.parse?_millisText, t.parse?_markedText.trans t.parse?_millisText, t.millisText_reread,
    ⟨fun hsame hstray => ?_, reread_of_not_stray⟩, ⟨rfl, rfl, rfl⟩, fun hstray => ?_⟩
  · have hsecond : t.reread.clock.second = t.clock.second := congrArg (·.clock.second) hsame
    rw [(reread_of_stray hstray).1] at hsecond
    exact absurd hsecond (Nat.succ_ne_self _)
  · exact ⟨rfl, reread_of_stray hstray⟩

/-- In the middle of a minute, with a third of a second gone in the leap second. -/
theorem leap_second_within_minute_reread :
    let t : Timestamp := ⟨.epoch, ⟨86164, 1333999999, by decide, by decide⟩⟩
    t.clock.IsStray ∧ parse? t.millisText = some t.reread ∧
      t.reread.clock.second = 86165 ∧ t.reread.clock.nanos = 333000000 := by
  intro t
  have hstray : t.clock.IsStray := by decide
  obtain ⟨hread, -, -, -, -, hmoved⟩ := canonical_text_reread t
  obtain ⟨-, hsecond, hnanos⟩ := hmoved hstray
  exact ⟨hstray, hread, hsecond, hnanos.trans (by decide)⟩

/-- Not every point in time is read back: the leap second is gone. -/
theorem leap_second_within_minute_lost :
    ¬∀ t : Timestamp, parse? t.millisText = some t.toMillis := by
  intro h
  have hread := h ⟨.epoch, ⟨86164, 1333000000, by decide, by decide⟩⟩
  rw [parse?_millisText] at hread
  exact absurd hread (by decide)

end Timestamp

/-- As a date alone a canonical text is not read: the time of day is left over. -/
theorem Date.parse?_millisText (t : Timestamp) : Date.parse? (trim t.millisText.toList) = none := by
  rw [Timestamp.trim_millisText]
  unfold Date.parse? Timestamp.millisText
  rw [String.toList_ofList]
  simp only [Option.bind_eq_bind, Date.read_chars, Option.bind_some]
  rfl

end SqlSession
