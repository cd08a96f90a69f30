/-
Numbers in decimal text.

A number is an optional sign followed by `inf`, `infinity` or `nan` in any case, or by
decimal digits with an optional point among or around them, and an optional exponent.
The value is the number nearest to the decimal that the text denotes; a decimal beyond
the finite range is infinite.
-/
import SqlSession.Number.Binary64
import SqlSession.Text.Case
import SqlSession.Text.Integer

namespace SqlSession

/-- A decimal as it is written: `digits · 10^exponent`. -/
structure DecimalLiteral where
  digits : Nat
  exponent : Int
  deriving DecidableEq, Repr

namespace DecimalLiteral

/-- The value of digit characters, most significant first. -/
def natOfDigits (cs : List Char) : Nat :=
  cs.foldl (fun n c => n * 10 + (c.toNat - 48)) 0

/-- An exponent: nothing, or `e` in either case with an optional sign and digits. -/
def exponentOf? : List Char → Option Int
  | [] => some 0
  | e :: rest =>
    if e = 'e' ∨ e = 'E' then
      let (negative, digits) :=
        match rest with
        | '-' :: digits => (true, digits)
        | '+' :: digits => (false, digits)
        | digits => (false, digits)
      if digits.isEmpty ∨ !digits.all Char.isDigit then none
      else
        let n : Int := natOfDigits digits
        some (if negative then -n else n)
    else none

/-- Read digits, a point and an exponent; there is a digit on one side of the point. -/
def parse? (cs : List Char) : Option DecimalLiteral :=
  let whole := cs.takeWhile Char.isDigit
  let rest := cs.dropWhile Char.isDigit
  let (fraction, rest) :=
    match rest with
    | '.' :: tail => (tail.takeWhile Char.isDigit, tail.dropWhile Char.isDigit)
    | _ => ([], rest)
  if whole.isEmpty ∧ fraction.isEmpty then none
  else
    (exponentOf? rest).map fun e =>
      ⟨natOfDigits (whole ++ fraction), e - fraction.length⟩

/-- The number nearest to a decimal.  Decimals far beyond the range, on either side, are
not computed out. -/
def toBinary64 (negative : Bool) (d : DecimalLiteral) : Binary64 :=
  let places : Int := (Text.natDigits d.digits).length + d.exponent
  if d.digits = 0 ∨ places < -400 then Binary64.ofMagnitude negative 0
  else if 400 < places then Binary64.infinity negative
  else
    Binary64.ofRatio negative (d.digits * Nat.pow 10 d.exponent.toNat)
      (Nat.pow 10 (-d.exponent).toNat)

end DecimalLiteral

/-- Read a number that fills the whole text. -/
def Binary64.parse? (s : String) : Option Binary64 :=
  let (negative, body) :=
    match s.toList with
    | '-' :: body => (true, body)
    | '+' :: body => (false, body)
    | body => (false, body)
  let word := Text.asciiLower body
  if word = "inf".toList ∨ word = "infinity".toList then some (infinity negative)
  else if word = "nan".toList then some (notANumber negative)
  else (DecimalLiteral.parse? body).map (DecimalLiteral.toBinary64 negative)

end SqlSession
