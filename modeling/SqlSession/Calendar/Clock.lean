/-
Times of the day.

A time is a second of the day and the nanoseconds that have passed in it.  A thousand million
nanoseconds and more stand for a leap second behind the second.  In the last second of a
minute it is written as second 60, and anywhere else, where none is due, as the second that
follows.
-/
import SqlSession.Calendar.Date

namespace SqlSession

/-- A time of the day. -/
structure Clock where
  second : Nat
  nanos : Nat
  second_lt : second < 86400
  nanos_lt : nanos < 2000000000
  deriving DecidableEq, Repr

namespace Clock

/-- The time with these parts, if there is one. -/
def ofParts? (second nanos : Nat) : Option Clock :=
  if h : second < 86400 ∧ nanos < 2000000000 then some ⟨second, nanos, h.1, h.2⟩ else none

def midnight : Clock :=
  ⟨0, 0, by decide, by decide⟩

instance : Inhabited Clock := ⟨midnight⟩

/-- Hours, minutes and seconds with colons between; a leap second counts as one more. -/
def wholeChars (t : Clock) : List Char :=
  let shown := t.second % 60 + t.nanos / 1000000000
  Text.paddedDigits 2 (t.second / 3600) ++ ':' :: Text.paddedDigits 2 (t.second / 60 % 60)
    ++ ':' :: Text.paddedDigits 2 shown

/-- The nanoseconds within the second shown. -/
def fraction (t : Clock) : Nat :=
  t.nanos % 1000000000

/-- With milliseconds, the rest cut off. -/
def millisChars (t : Clock) : List Char :=
  t.wholeChars ++ '.' :: Text.paddedDigits 3 (t.fraction / 1000000)

/-- With as many groups of three decimals as are needed. -/
def chars (t : Clock) : List Char :=
  let f := t.fraction
  t.wholeChars ++
    (if f = 0 then []
    else if f % 1000000 = 0 then '.' :: Text.paddedDigits 3 (f / 1000000)
    else if f % 1000 = 0 then '.' :: Text.paddedDigits 6 (f / 1000)
    else '.' :: Text.paddedDigits 9 f)

def text (t : Clock) : String :=
  String.ofList t.chars

end Clock

/-- A date and a time of the day. -/
structure Timestamp where
  date : Date
  clock : Clock
  deriving DecidableEq, Repr, Inhabited

namespace Timestamp

/-- The start of a day. -/
def ofDate (d : Date) : Timestamp :=
  ⟨d, .midnight⟩

/-- Date and time with a blank between. -/
def text (t : Timestamp) : String :=
  String.ofList (t.date.chars ++ ' ' :: t.clock.chars)

/-- The canonical form in records: with milliseconds, the rest cut off. -/
def millisText (t : Timestamp) : String :=
  String.ofList (t.date.chars ++ ' ' :: t.clock.millisChars)

end Timestamp

end SqlSession
