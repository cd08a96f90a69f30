/-
Dates and times in text.

Every number may have blanks in front of it.  A year has up to four digits, or a sign and
any number of them; the other numbers have one or two.  Between date and time any amount
of blanks may stand, also none, and nothing may follow.  Second 60 is a leap second.
-/
import SqlSession.Calendar.Date
import SqlSession.Calendar.Clock
import SqlSession.Text.Blank

namespace SqlSession

namespace Text

/-- The value of a run of digits that is not empty. -/
def digitsValue? (digits : List Char) : Option Nat :=
  if digits.isEmpty then none else some (digits.foldl (fun n c => n * 10 + (c.toNat - 48)) 0)

/-- Read one to `width` digits. -/
def readDigitsUpTo (width : Nat) (cs : List Char) : Option (Nat × List Char) :=
  let digits := (cs.take width).takeWhile Char.isDigit
  (digitsValue? digits).map fun n => (n, cs.drop digits.length)

/-- Read a number of one or two digits behind any blanks. -/
def readPair (cs : List Char) : Option (Nat × List Char) :=
  readDigitsUpTo 2 (trimStart cs)

/-- Read one given character. -/
def readChar (c : Char) : List Char → Option (List Char)
  | [] => none
  | d :: rest => if d = c then some rest else none

end Text

namespace Date

open Text

/-- Read a year behind any blanks. -/
def readYear (cs : List Char) : Option (Int × List Char) :=
  match trimStart cs with
  | '-' :: rest => (readDigitsUpTo rest.length rest).map fun (n, rest) => (-(n : Int), rest)
  | '+' :: rest => (readDigitsUpTo rest.length rest).map fun (n, rest) => ((n : Int), rest)
  | cs => (readDigitsUpTo 4 cs).map fun (n, rest) => ((n : Int), rest)

/-- Read year, month and day. -/
def read (cs : List Char) : Option (Date × List Char) := do
  let (year, cs) ← readYear cs
  let cs ← readChar '-' cs
  let (month, cs) ← readPair cs
  let cs ← readChar '-' cs
  let (day, cs) ← readPair cs
  let date ← ofParts? year month day
  return (date, cs)

/-- Read a date that fills the whole text. -/
def parse? (cs : List Char) : Option Date := do
  let (date, rest) ← read cs
  if rest.isEmpty then some date else none

end Date

namespace Clock

open Text

/-- The time with these hours, minutes, seconds and nanoseconds; second 60 counts as a
second of more nanoseconds. -/
def ofHms? (hour minute second nanos : Nat) : Option Clock :=
  if 24 ≤ hour ∨ 60 ≤ minute ∨ 61 ≤ second then none
  else if second = 60 then ofParts? (hour * 3600 + minute * 60 + 59) (nanos + 1000000000)
  else ofParts? (hour * 3600 + minute * 60 + second) nanos

/-- Read hours, minutes and seconds, and then the nanoseconds with `fraction`. -/
def read (fraction : List Char → Option (Nat × List Char)) (cs : List Char) :
    Option (Clock × List Char) := do
  let (hour, cs) ← readPair cs
  let cs ← readChar ':' cs
  let (minute, cs) ← readPair cs
  let cs ← readChar ':' cs
  let (second, cs) ← readPair cs
  let (nanos, cs) ← fraction cs
  let clock ← ofHms? hour minute second nanos
  return (clock, cs)

/-- Nothing, or a point and exactly three digits. -/
def readMillis : List Char → Option (Nat × List Char)
  | '.' :: cs =>
    let digits := (cs.take 3).takeWhile Char.isDigit
    if digits.length = 3 then
      (digitsValue? digits).map fun n => (n * 1000000, cs.drop 3)
    else none
  | cs => some (0, cs)

/-- Nothing, or a point and digits; those past the ninth do not count. -/
def readNanos : List Char → Option (Nat × List Char)
  | '.' :: cs =>
    let digits := cs.takeWhile Char.isDigit
    let kept := digits.take 9
    (digitsValue? kept).map fun n => (n * Nat.pow 10 (9 - kept.length), cs.dropWhile Char.isDigit)
  | cs => some (0, cs)

/-- Read a time that fills the whole text. -/
def parse? (cs : List Char) : Option Clock := do
  let (clock, rest) ← read readNanos cs
  if rest.isEmpty then some clock else none

end Clock

namespace Timestamp

open Text

/-- Read a date and a time that fill the whole text. -/
def parseFull? (cs : List Char) : Option Timestamp := do
  let (date, cs) ← Date.read cs
  let (clock, rest) ← Clock.read Clock.readMillis (trimStart cs)
  if rest.isEmpty then some ⟨date, clock⟩ else none

/-- The text with its first `T` replaced by a blank. -/
def withoutMark : List Char → List Char
  | [] => []
  | c :: rest => if c = 'T' then ' ' :: rest else c :: withoutMark rest

/-- Read a timestamp: a date and a time with blanks or a `T` between them, with or without
milliseconds, or a date alone for the start of its day.  Blanks around it are ignored. -/
def parse? (s : String) : Option Timestamp :=
  let cs := withoutMark (trim s.toList)
  match parseFull? cs with
  | some t => some t
  | none => (Date.parse? cs).map ofDate

end Timestamp

end SqlSession
