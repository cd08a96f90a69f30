/-
The text of an interval, read back.

The text leaves out what is zero, so what a number in it counts can only be told from the word
behind it.  `Interval.ofText` reads it that way: the words in pairs, a number and its unit, and a
word that is left over at the end as the clock.  It undoes `Interval.text` for every interval
(`ofText_text`), so the text loses nothing.  The 16 bytes of a column are written again from the
interval that they were read as (`bytes_of_ofBytes?`), so neither does the column:
`interval_text_loses_nothing`.

The units are the only words that are looked for, and no number, clock or other unit is one of
them.  In the clock the decimals that are cut off are zeros at the end of six, so their number is
known from how many are left.
-/
import Mathlib.Data.List.Induction
import Mathlib.Data.List.TakeWhile
import SqlSession.Proofs.Json.Numbers
import SqlSession.Proofs.Wire.Integers

namespace SqlSession.Wire

open Text
open DecimalLiteral (natOfDigits)

variable {unit units other others ds : List Char}

namespace Interval

/-! ### Reading a text -/

/-- The integer that a sign and digits stand for. -/
def intOfWord : List Char → Int
  | '-' :: ds => -(natOfDigits ds : Int)
  | ds => natOfDigits ds

/-- The number in front of a unit, zero if the unit is not there. -/
def amount (unit units : List Char) : List (List Char) → Int
  | n :: word :: rest =>
    if word = unit ∨ word = units then intOfWord n else amount unit units rest
  | _ => 0

/-- The word that is left over when a number has been taken with each unit. -/
def lone? : List (List Char) → Option (List Char)
  | _ :: _ :: rest => lone? rest
  | [word] => some word
  | [] => none

/-- Seconds with up to six decimals, in microseconds. -/
def microsOfSeconds (cs : List Char) : Nat :=
  match cs.splitOn '.' with
  | [whole] => natOfDigits whole * 1000000
  | [whole, decimals] =>
    natOfDigits whole * 1000000 + natOfDigits decimals * Nat.pow 10 (6 - decimals.length)
  | _ => 0

/-- Hours, minutes and seconds, in microseconds. -/
def microsOfClock (cs : List Char) : Nat :=
  match cs.splitOn ':' with
  | [hours, minutes, seconds] =>
    (natOfDigits hours * 60 + natOfDigits minutes) * 60000000 + microsOfSeconds seconds
  | _ => 0

/-- A clock that may have a sign, in microseconds. -/
def microsOfWord : List Char → Int
  | '-' :: cs => -(microsOfClock cs : Int)
  | cs => microsOfClock cs

/-- Read the text of an interval.  What other texts come to does not matter. -/
def ofText (s : String) : Interval :=
  let words := s.toList.splitOn ' '
  { micros := ((lone? words).map microsOfWord).getD 0
    days := amount "day".toList "days".toList words
    months := 12 * amount "year".toList "years".toList words
      + amount "mon".toList "mons".toList words }

/-! ### Words -/

/-- No digit, and so no number, is one of the marks. -/
theorem notMem_of_isDigit {mark : Char} (hds : ∀ c ∈ ds, c.isDigit = true)
    (hmark : mark.isDigit = false) : mark ∉ ds := by
  intro hmem
  rw [hds mark hmem] at hmark
  cases hmark

theorem notMem_paddedDigits {mark : Char} (hmark : mark.isDigit = false) (width n : Nat) :
    mark ∉ paddedDigits width n :=
  notMem_of_isDigit (fun _ => isDigit_of_mem_paddedDigits) hmark

/-- Splitting what has been joined splits the parts. -/
theorem splitOn_intercalate_flatMap {mark : Char} {parts : List (List Char)} (h : parts ≠ []) :
    ([mark].intercalate parts).splitOn mark = parts.flatMap (List.splitOn mark) := by
  induction parts with
  | nil => exact absurd rfl h
  | cons part parts ih =>
      rcases parts with _ | ⟨next, parts⟩
      · simp
      · rw [List.intercalate_cons_cons, List.append_assoc, List.singleton_append,
          List.splitOn_append_cons_self, ih (List.cons_ne_nil _ _)]
        rfl

/-- The words of a number of units. -/
def unitWords (n : Int) (unit units : List Char) : List (List Char) :=
  if n = 0 then [] else [(intText n).toList, if n = 1 then unit else units]

theorem notMem_intText {mark : Char} (hsign : mark ≠ '-') (hmark : mark.isDigit = false)
    (n : Int) : mark ∉ (intText n).toList := by
  have hdigits : mark ∉ natDigits n.natAbs :=
    notMem_of_isDigit (fun _ => isDigit_of_mem_natDigits) hmark
  rw [toList_intText]
  split <;> simp [hdigits, hsign]

theorem splitOn_unitPart (n : Int) {unit units : String} (hunit : ' ' ∉ unit.toList)
    (hunits : ' ' ∉ units.toList) :
    (unitPart n unit units).flatMap (fun part => part.toList.splitOn ' ')
      = unitWords n unit.toList units.toList := by
  unfold unitPart unitWords
  by_cases hn : n = 0
  · rw [if_pos hn, if_pos hn]
    rfl
  · have hword : ' ' ∉ (if n = 1 then unit else units).toList := by
      split
      · exact hunit
      · exact hunits
    have htext : (intText n ++ " " ++ (if n = 1 then unit else units)).toList
        = (intText n).toList ++ ' ' :: (if n = 1 then unit else units).toList := by
      simp only [String.toList_append, List.append_assoc]
      rfl
    rw [if_neg hn, if_neg hn, List.flatMap_singleton, htext,
      List.splitOn_append_cons_self_of_not_mem (notMem_intText (by decide) rfl n),
      List.splitOn_eq_singleton hword, apply_ite String.toList]

/-! ### Numbers of units -/

theorem intOfWord_intText (n : Int) : intOfWord (intText n).toList = n := by
  rw [toList_intText]
  by_cases hneg : n < 0
  · rw [if_pos hneg]
    show -(natOfDigits (natDigits n.natAbs) : Int) = n
    rw [natOfDigits_natDigits]
    omega
  · have hdigits := isDigits_natDigits n.natAbs
    rw [if_neg hneg, List.nil_append]
    unfold intOfWord
    split
    next ds hcons =>
      rw [hcons] at hdigits
      exact absurd (hdigits.2 '-' (List.mem_cons_self ..)) (by decide)
    next =>
      rw [natOfDigits_natDigits]
      omega

/-- A number of the unit is found, unless it is zero. -/
theorem amount_unitWords_self (n : Int) (unit units : List Char) (rest : List (List Char)) :
    amount unit units (unitWords n unit units ++ rest)
      = if n = 0 then amount unit units rest else n := by
  unfold unitWords
  by_cases hn : n = 0
  · rw [if_pos hn, if_pos hn, List.nil_append]
  · rw [if_neg hn, if_neg hn]
    show (if _ then intOfWord (intText n).toList else _) = n
    rw [if_pos (by split <;> simp), intOfWord_intText]

/-- Another unit is passed by. -/
theorem amount_unitWords_of_ne (n : Int) (hone : other ≠ unit ∧ other ≠ units)
    (hmany : others ≠ unit ∧ others ≠ units) (rest : List (List Char)) :
    amount unit units (unitWords n other others ++ rest) = amount unit units rest := by
  unfold unitWords
  by_cases hn : n = 0
  · rw [if_pos hn, List.nil_append]
  · have hword : ¬((if n = 1 then other else others) = unit ∨
        (if n = 1 then other else others) = units) := by
      split
      · exact not_or.mpr hone
      · exact not_or.mpr hmany
    rw [if_neg hn]
    exact if_neg hword

theorem lone?_unitWords (n : Int) (unit units : List Char) (rest : List (List Char)) :
    lone? (unitWords n unit units ++ rest) = lone? rest := by
  unfold unitWords
  split <;> rfl

/-! ### The clock -/

/-- The digits without the zeros at their end. -/
def withoutZeros (ds : List Char) : List Char :=
  (ds.reverse.dropWhile (· == '0')).reverse

/-- Only zeros are cut off, and there are as many as digits are missing. -/
theorem withoutZeros_append (ds : List Char) :
    withoutZeros ds ++ List.replicate (ds.length - (withoutZeros ds).length) '0' = ds := by
  have hzeros : ∀ c ∈ (ds.reverse.takeWhile (· == '0')).reverse, c = '0' := by
    intro c hc
    have hzero : (c == '0') = true :=
      List.mem_takeWhile_imp (p := (· == '0')) (List.mem_reverse.mp hc)
    exact beq_iff_eq.mp hzero
  have hwhole : withoutZeros ds ++ (ds.reverse.takeWhile (· == '0')).reverse = ds := by
    rw [withoutZeros, ← List.reverse_append, List.takeWhile_append_dropWhile, List.reverse_reverse]
  have hlength := congrArg List.length hwhole
  rw [List.length_append] at hlength
  rw [List.eq_replicate_of_mem hzeros] at hwhole
  have hcount : ds.length - (withoutZeros ds).length
      = (ds.reverse.takeWhile (· == '0')).reverse.length := by omega
  rw [hcount]
  exact hwhole

theorem isDigit_of_mem_withoutZeros {c : Char} (hds : ∀ c ∈ ds, c.isDigit = true)
    (h : c ∈ withoutZeros ds) : c.isDigit = true :=
  hds c (withoutZeros_append ds ▸ List.mem_append_left _ h)

/-- Of six decimals the zeros at the end are known from the digits in front of them. -/
theorem natOfDigits_withoutZeros {f : Nat} (hf : f < 10 ^ 6) :
    natOfDigits (withoutZeros (paddedDigits 6 f))
      * Nat.pow 10 (6 - (withoutZeros (paddedDigits 6 f)).length) = f := by
  have hlength : (paddedDigits 6 f).length = 6 := length_paddedDigits_of_lt (by decide) hf
  have hvalue := congrArg natOfDigits (withoutZeros_append (paddedDigits 6 f))
  rw [natOfDigits_append, natOfDigits_replicate_zero, natOfDigits_paddedDigits, Nat.add_zero,
    List.length_replicate, hlength] at hvalue
  exact hvalue

/-- The characters of the seconds, with the decimals they need. -/
def secondsChars (seconds fraction : Nat) : List Char :=
  paddedDigits 2 seconds ++
    if fraction = 0 then [] else '.' :: withoutZeros (paddedDigits 6 fraction)

theorem microsOfSeconds_secondsChars (seconds : Nat) {f : Nat} (hf : f < 10 ^ 6) :
    microsOfSeconds (secondsChars seconds f) = seconds * 1000000 + f := by
  have hwhole : '.' ∉ paddedDigits 2 seconds := notMem_paddedDigits rfl 2 seconds
  have hdecimals : '.' ∉ withoutZeros (paddedDigits 6 f) :=
    notMem_of_isDigit
      (fun _ => isDigit_of_mem_withoutZeros fun _ => isDigit_of_mem_paddedDigits) rfl
  unfold secondsChars microsOfSeconds
  by_cases hzero : f = 0
  · rw [if_pos hzero, List.append_nil, List.splitOn_eq_singleton hwhole]
    simp only [natOfDigits_paddedDigits, hzero, Nat.add_zero]
  · rw [if_neg hzero, List.splitOn_append_cons_self_of_not_mem hwhole,
      List.splitOn_eq_singleton hdecimals]
    simp only [natOfDigits_paddedDigits, natOfDigits_withoutZeros hf]

/-- The characters of a clock without its sign. -/
def clockChars (micros : Nat) : List Char :=
  paddedDigits 2 (micros / 1000000 / 3600) ++ ':' ::
    (paddedDigits 2 (micros / 1000000 / 60 % 60) ++ ':' ::
      secondsChars (micros / 1000000 % 60) (micros % 1000000))

theorem toList_clockText (micros : Int) :
    (clockText micros).toList
      = (if micros < 0 then ['-'] else []) ++ clockChars micros.natAbs := by
  unfold clockText clockChars secondsChars withoutZeros
  simp only [paddedText, String.toList_append, String.toList_ofList, apply_ite String.toList,
    List.append_assoc]
  rfl

theorem isDigit_or_mark_of_mem_secondsChars {c : Char} {seconds f : Nat}
    (h : c ∈ secondsChars seconds f) : c.isDigit = true ∨ c = '.' := by
  unfold secondsChars at h
  rcases List.mem_append.mp h with h | h
  · exact .inl (isDigit_of_mem_paddedDigits h)
  · split at h
    · cases h
    · rcases List.mem_cons.mp h with h | h
      · exact .inr h
      · exact .inl (isDigit_of_mem_withoutZeros (fun _ => isDigit_of_mem_paddedDigits) h)

theorem microsOfClock_clockChars (micros : Nat) : microsOfClock (clockChars micros) = micros := by
  have hseconds : ':' ∉ secondsChars (micros / 1000000 % 60) (micros % 1000000) := by
    intro h
    rcases isDigit_or_mark_of_mem_secondsChars h with h | h <;> exact absurd h (by decide)
  have hfraction : micros % 1000000 < 10 ^ 6 := Nat.mod_lt _ (by decide)
  unfold microsOfClock clockChars
  rw [List.splitOn_append_cons_self_of_not_mem (notMem_paddedDigits rfl _ _),
    List.splitOn_append_cons_self_of_not_mem (notMem_paddedDigits rfl _ _),
    List.splitOn_eq_singleton hseconds]
  simp only [natOfDigits_paddedDigits, microsOfSeconds_secondsChars _ hfraction]
  omega

theorem notMem_clockChars {mark : Char} (hmark : mark.isDigit = false) (hcolon : mark ≠ ':')
    (hpoint : mark ≠ '.') (micros : Nat) : mark ∉ clockChars micros := by
  have hseconds : mark ∉ secondsChars (micros / 1000000 % 60) (micros % 1000000) := by
    intro h
    rcases isDigit_or_mark_of_mem_secondsChars h with h | h
    · rw [hmark] at h
      cases h
    · exact hpoint h
  simp only [clockChars, List.mem_append, List.mem_cons, not_or]
  exact ⟨notMem_paddedDigits hmark _ _, hcolon, notMem_paddedDigits hmark _ _, hcolon, hseconds⟩

theorem microsOfWord_clockText (micros : Int) :
    microsOfWord (clockText micros).toList = micros := by
  rw [toList_clockText]
  by_cases hneg : micros < 0
  · rw [if_pos hneg]
    show -(microsOfClock (clockChars micros.natAbs) : Int) = micros
    rw [microsOfClock_clockChars]
    omega
  · have hsign : '-' ∉ clockChars micros.natAbs :=
      notMem_clockChars rfl (by decide) (by decide) _
    rw [if_neg hneg, List.nil_append]
    unfold microsOfWord
    split
    next cs hcons =>
      rw [hcons] at hsign
      exact absurd (List.mem_cons_self ..) hsign
    next =>
      rw [microsOfClock_clockChars]
      omega

theorem splitOn_clockText (micros : Int) :
    (clockText micros).toList.splitOn ' ' = [(clockText micros).toList] := by
  refine List.splitOn_eq_singleton ?_
  have hchars : ' ' ∉ clockChars micros.natAbs :=
    notMem_clockChars rfl (by decide) (by decide) _
  rw [toList_clockText]
  split <;> simp [hchars]

/-! ### The whole text -/

/-- The text falls into the words of its units, and the clock at its end; that is left out only
where it is zero. -/
theorem splitOn_text (i : Interval) :
    ∃ clock, (clock = [] ∧ i.micros = 0 ∨ clock = [(clockText i.micros).toList]) ∧
      i.text.toList.splitOn ' ' =
        unitWords (i.months.tdiv 12) "year".toList "years".toList ++
          (unitWords (i.months.tmod 12) "mon".toList "mons".toList ++
            (unitWords i.days "day".toList "days".toList ++ clock)) := by
  let units := unitPart (i.months.tdiv 12) "year" "years"
    ++ unitPart (i.months.tmod 12) "mon" "mons" ++ unitPart i.days "day" "days"
  have hunits : units.flatMap (fun part => part.toList.splitOn ' ')
      = unitWords (i.months.tdiv 12) "year".toList "years".toList ++
          (unitWords (i.months.tmod 12) "mon".toList "mons".toList ++
            unitWords i.days "day".toList "days".toList) := by
    simp only [units, List.flatMap_append, List.append_assoc]
    rw [splitOn_unitPart _ (by decide) (by decide), splitOn_unitPart _ (by decide) (by decide),
      splitOn_unitPart _ (by decide) (by decide)]
  have htext : i.text =
      " ".intercalate (units ++ if i.micros ≠ 0 ∨ units.isEmpty then [clockText i.micros] else []) :=
    rfl
  have hsplit {parts : List String} (h : parts ≠ []) :
      (" ".intercalate parts).toList.splitOn ' '
        = parts.flatMap fun part => part.toList.splitOn ' ' := by
    have hblank : " ".toList = [' '] := rfl
    rw [String.toList_intercalate, hblank, splitOn_intercalate_flatMap (by simpa), List.flatMap_map]
  by_cases hclock : i.micros ≠ 0 ∨ units.isEmpty
  · refine ⟨[(clockText i.micros).toList], .inr rfl, ?_⟩
    rw [htext, if_pos hclock, hsplit (by simp), List.flatMap_append, hunits,
      List.flatMap_singleton, splitOn_clockText, List.append_assoc, List.append_assoc]
  · obtain ⟨hmicros, hsome⟩ := not_or.mp hclock
    refine ⟨[], .inl ⟨rfl, not_not.mp hmicros⟩, ?_⟩
    rw [htext, if_neg hclock, List.append_nil, List.append_nil, hsplit (by simpa using hsome),
      hunits]

/-- **An interval is read back from its text.** -/
theorem ofText_text (i : Interval) : ofText i.text = i := by
  obtain ⟨clock, hclock, hwords⟩ := i.splitOn_text
  have hnone (unit units : List Char) : amount unit units clock = 0 := by
    rcases hclock with ⟨rfl, -⟩ | rfl <;> rfl
  have hif (n : Int) : (if n = 0 then 0 else n) = n := by
    split <;> omega
  have hmicros : ((lone? clock).map microsOfWord).getD 0 = i.micros := by
    rcases hclock with ⟨rfl, hzero⟩ | rfl
    · exact hzero.symm
    · exact microsOfWord_clockText i.micros
  have hyears : amount "year".toList "years".toList (i.text.toList.splitOn ' ')
      = i.months.tdiv 12 := by
    rw [hwords, amount_unitWords_self, amount_unitWords_of_ne _ (by decide) (by decide),
      amount_unitWords_of_ne _ (by decide) (by decide), hnone, hif]
  have hmonths : amount "mon".toList "mons".toList (i.text.toList.splitOn ' ')
      = i.months.tmod 12 := by
    rw [hwords, amount_unitWords_of_ne _ (by decide) (by decide), amount_unitWords_self,
      amount_unitWords_of_ne _ (by decide) (by decide), hnone, hif]
  have hdays : amount "day".toList "days".toList (i.text.toList.splitOn ' ') = i.days := by
    rw [hwords, amount_unitWords_of_ne _ (by decide) (by decide),
      amount_unitWords_of_ne _ (by decide) (by decide), amount_unitWords_self, hnone, hif]
  have hlone : lone? (i.text.toList.splitOn ' ') = lone? clock := by
    rw [hwords, lone?_unitWords, lone?_unitWords, lone?_unitWords]
  unfold ofText
  simp only [hyears, hmonths, hdays, hlone, hmicros, Int.mul_tdiv_add_tmod]

theorem text_injective : Function.Injective text :=
  Function.LeftInverse.injective ofText_text

end Interval

/-! ### The wire form -/

theorem bigEndian_natOfBytes (b : Bytes) : bigEndian b.length (natOfBytes b) = b := by
  induction b using List.reverseRecOn with
  | nil => rfl
  | append_singleton b last ih =>
      have hvalue : natOfBytes (b ++ [last]) = natOfBytes b * 256 + last.toNat := by
        simp only [natOfBytes, List.foldl_append, List.foldl_cons, List.foldl_nil]
      have hlast := last.toNat_lt
      have hfront : natOfBytes (b ++ [last]) / 256 = natOfBytes b := by omega
      have hbyte : UInt8.ofNat (natOfBytes (b ++ [last])) = last := by
        rw [hvalue]
        exact UInt8.toNat_inj.mp (by rw [UInt8.toNat_ofNat']; omega)
      rw [List.length_append, List.length_singleton, bigEndian, hfront, hbyte, ih]

/-- As many bytes as the integer was read from are written again. -/
theorem signedBytes_intOfBytes (b : Bytes) : signedBytes b.length (intOfBytes b) = b := by
  have hlt : (natOfBytes b : Int) < Nat.pow 256 b.length := by exact_mod_cast natOfBytes_lt b
  have hturn : intOfBytes b % Nat.pow 256 b.length = natOfBytes b := by
    unfold intOfBytes
    dsimp only
    split
    · exact Int.emod_eq_of_lt (Int.natCast_nonneg _) hlt
    · rw [Int.sub_emod_right, Int.emod_eq_of_lt (Int.natCast_nonneg _) hlt]
  rw [signedBytes, hturn, Int.toNat_natCast, bigEndian_natOfBytes]

namespace Interval

/-- The 16 bytes of an interval. -/
def bytes (i : Interval) : Bytes :=
  signedBytes 8 i.micros ++ signedBytes 4 i.days ++ signedBytes 4 i.months

theorem length_bytes (i : Interval) : i.bytes.length = 16 := by
  simp [bytes]

/-- Where the bytes have room, the interval is read from them. -/
theorem ofBytes?_bytes (i : Interval) (hmicros : FitsBytes 8 i.micros) (hdays : FitsBytes 4 i.days)
    (hmonths : FitsBytes 4 i.months) : ofBytes? i.bytes = some i := by
  have hfirst : i.bytes.take 8 = signedBytes 8 i.micros := by
    rw [bytes, List.append_assoc, List.take_left' (length_signedBytes _ _)]
  have hsecond : (i.bytes.drop 8).take 4 = signedBytes 4 i.days := by
    rw [bytes, List.append_assoc, List.drop_left' (length_signedBytes _ _),
      List.take_left' (length_signedBytes _ _)]
  have hthird : i.bytes.drop 12 = signedBytes 4 i.months :=
    List.drop_left' (by simp)
  rw [ofBytes?, if_pos i.length_bytes, hfirst, hsecond, hthird,
    intOfBytes_signedBytes (by decide) hmicros, intOfBytes_signedBytes (by decide) hdays,
    intOfBytes_signedBytes (by decide) hmonths]

/-- The bytes that an interval was read from are its own. -/
theorem bytes_of_ofBytes? {b : Bytes} {i : Interval} (h : ofBytes? b = some i) : i.bytes = b := by
  unfold ofBytes? at h
  split at h
  next hlength =>
    have hfirst : (b.take 8).length = 8 := by simp [hlength]
    have hsecond : ((b.drop 8).take 4).length = 4 := by simp [hlength]
    have hthird : (b.drop 12).length = 4 := by simp [hlength]
    have hwritten := signedBytes_intOfBytes (b.take 8)
    have hwritten' := signedBytes_intOfBytes ((b.drop 8).take 4)
    have hwritten'' := signedBytes_intOfBytes (b.drop 12)
    rw [hfirst] at hwritten
    rw [hsecond] at hwritten'
    rw [hthird] at hwritten''
    have hrest : (b.drop 8).take 4 ++ b.drop 12 = b.drop 8 := by
      have hdrop : (b.drop 8).drop 4 = b.drop 12 := List.drop_drop
      rw [← hdrop, List.take_append_drop]
    cases h
    rw [bytes, hwritten, hwritten', hwritten'', List.append_assoc, hrest, List.take_append_drop]
  next => cases h

theorem ofBytes?_eq_none_iff {b : Bytes} : ofBytes? b = none ↔ b.length ≠ 16 := by
  unfold ofBytes?
  split <;> simp [*]

end Interval

variable {b b' : Bytes}

theorem decode?_interval_eq_none_iff : decode? .interval b = none ↔ b.length ≠ 16 :=
  Option.map_eq_none_iff.trans Interval.ofBytes?_eq_none_iff

/-- Columns with the same text are the same, if they have one. -/
theorem eq_of_decode?_interval (hlength : b.length = 16)
    (h : decode? .interval b = decode? .interval b') : b = b' := by
  have hsome : Interval.ofBytes? b ≠ none :=
    mt Interval.ofBytes?_eq_none_iff.mp (not_not.mpr hlength)
  obtain ⟨i, hi⟩ := Option.ne_none_iff_exists'.mp hsome
  have htext : (Interval.ofBytes? b').map (fun j => Value.text j.text) = some (.text i.text) := by
    show decode? .interval b' = _
    rw [← h]
    exact congrArg (Option.map fun j => Value.text j.text) hi
  obtain ⟨j, hj, heq⟩ := Option.map_eq_some_iff.mp htext
  have hji : j = i := Interval.text_injective (Value.text.inj heq)
  rw [hji] at hj
  exact (Interval.bytes_of_ofBytes? hi).symm.trans (Interval.bytes_of_ofBytes? hj)

/--
**The text of an interval column loses nothing.**  It is an error exactly where there are not 16
bytes.  All 64-bit numbers of microseconds and 32-bit numbers of days and months have a text, the
text is read back as the interval, and no other interval has it; so two columns of 16 bytes have
the same text only if they are the same.
-/
theorem interval_text_loses_nothing (b b' : Bytes) (micros : Int64) (days months : Int32)
    (i j : Interval) :
    (decode? .interval b = none ↔ b.length ≠ 16) ∧
      decode? .interval (Interval.bytes ⟨micros.toInt, days.toInt, months.toInt⟩) =
        some (.text (Interval.text ⟨micros.toInt, days.toInt, months.toInt⟩)) ∧
      Interval.ofText i.text = i ∧ (i.text = j.text ↔ i = j) ∧
      (decode? .interval b = decode? .interval b' ↔
        b = b' ∨ b.length ≠ 16 ∧ b'.length ≠ 16) := by
  refine ⟨decode?_interval_eq_none_iff, ?_, i.ofText_text, Interval.text_injective.eq_iff,
    fun h => ?_, ?_⟩
  · have hread := Interval.ofBytes?_bytes ⟨micros.toInt, days.toInt, months.toInt⟩
      (fitsBytes_toInt micros) ⟨days.le_toInt, days.toInt_lt⟩ ⟨months.le_toInt, months.toInt_lt⟩
    exact congrArg (Option.map fun i => Value.text i.text) hread
  · by_cases hlength : b.length = 16
    · exact .inl (eq_of_decode?_interval hlength h)
    · have hnone := decode?_interval_eq_none_iff.mpr hlength
      exact .inr ⟨hlength, decode?_interval_eq_none_iff.mp (h.symm.trans hnone)⟩
  · rintro (rfl | ⟨hb, hb'⟩)
    · rfl
    · rw [decode?_interval_eq_none_iff.mpr hb, decode?_interval_eq_none_iff.mpr hb']

/-- The least number of microseconds, between two amounts with signs of their own. -/
example : Interval.text ⟨-9223372036854775808, 1, -13⟩ =
    "-1 years -1 mons 1 day -2562047788:00:54.775808" := by
  decide +kernel

end SqlSession.Wire
