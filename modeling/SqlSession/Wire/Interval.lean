/-
Intervals.

An interval is a number of months, of days and of microseconds, each with a sign of its
own.  Its text names the years, months and days that are not zero, and then the clock,
which is left out when it is zero and something else is named.
-/
import SqlSession.Text.Integer
import SqlSession.Wire.Bytes

namespace SqlSession.Wire

/-- A span of time. -/
structure Interval where
  micros : Int
  days : Int
  months : Int
  deriving DecidableEq, Repr

namespace Interval

/-- The 16 bytes of an interval: microseconds, days, months. -/
def ofBytes? (bytes : Bytes) : Option Interval :=
  if bytes.length = 16 then
    some ⟨intOfBytes (bytes.take 8), intOfBytes ((bytes.drop 8).take 4), intOfBytes (bytes.drop 12)⟩
  else none

/-- A number of units, if it is not zero; only 1 itself is singular. -/
def unitPart (n : Int) (unit units : String) : List String :=
  if n = 0 then [] else [Text.intText n ++ " " ++ (if n = 1 then unit else units)]

/-- Hours, minutes, seconds and as many decimals as are needed. -/
def clockText (micros : Int) : String :=
  let seconds := micros.natAbs / 1000000
  let fraction := micros.natAbs % 1000000
  (if micros < 0 then "-" else "") ++ Text.paddedText 2 (seconds / 3600) ++ ":"
    ++ Text.paddedText 2 (seconds / 60 % 60) ++ ":" ++ Text.paddedText 2 (seconds % 60)
    ++ (if fraction = 0 then ""
        else
          String.ofList
            ('.' :: ((Text.paddedDigits 6 fraction).reverse.dropWhile (· == '0')).reverse))

/-- The interval in words. -/
def text (i : Interval) : String :=
  let parts := unitPart (i.months.tdiv 12) "year" "years"
    ++ unitPart (i.months.tmod 12) "mon" "mons" ++ unitPart i.days "day" "days"
  let clock := if i.micros ≠ 0 ∨ parts.isEmpty then [clockText i.micros] else []
  " ".intercalate (parts ++ clock)

end Interval

end SqlSession.Wire
