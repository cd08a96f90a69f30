/-
Integers in decimal text.

A number is an optional sign and at least one ASCII digit, with nothing around it.
Reading goes from left to right and reports the first thing that is wrong: a
character that is no digit, or the digit that takes the value past its limit.
-/

namespace SqlSession.Text

/-- Why a text is not an integer of the wanted range. -/
inductive IntegerError where
  /-- There is no text at all. -/
  | empty
  /-- A character is not a digit, or there is a sign and no digit. -/
  | invalidDigit
  /-- The value lies above the range. -/
  | tooLarge
  /-- The value lies below the range. -/
  | tooSmall
  deriving DecidableEq, Repr

/-- The wording of the error. -/
def IntegerError.message : IntegerError → String
  | .empty => "cannot parse integer from empty string"
  | .invalidDigit => "invalid digit found in string"
  | .tooLarge => "number too large to fit in target type"
  | .tooSmall => "number too small to fit in target type"

/-- The value of an ASCII digit. -/
def digitValue? (c : Char) : Option Nat :=
  if c.isDigit then some (c.toNat - 48) else none

/-- Read digits onto `acc`, failing with `past` at the digit that exceeds `limit`. -/
def readDigits (limit : Nat) (past : IntegerError) : Nat → List Char → Except IntegerError Nat
  | acc, [] => .ok acc
  | acc, c :: cs =>
    match digitValue? c with
    | none => .error .invalidDigit
    | some d =>
      if acc * 10 + d ≤ limit then readDigits limit past (acc * 10 + d) cs else .error past

/-- Read an integer from 0 to `limit`; a minus sign is no part of it. -/
def readUnsigned (limit : Nat) (s : String) : Except IntegerError Nat :=
  match s.toList with
  | [] => .error .empty
  | ['+'] => .error .invalidDigit
  | '+' :: digits => readDigits limit .tooLarge 0 digits
  | digits => readDigits limit .tooLarge 0 digits

/-- Read a 64-bit signed integer. -/
def readInt64 (s : String) : Except IntegerError Int64 :=
  match s.toList with
  | [] => .error .empty
  | ['+'] | ['-'] => .error .invalidDigit
  | '-' :: digits =>
    (readDigits 0x8000000000000000 .tooSmall 0 digits).map fun n => Int64.ofInt (-(n : Int))
  | '+' :: digits => (readDigits 0x7FFFFFFFFFFFFFFF .tooLarge 0 digits).map fun n => Int64.ofInt n
  | digits => (readDigits 0x7FFFFFFFFFFFFFFF .tooLarge 0 digits).map fun n => Int64.ofInt n

/-- The decimal digits of a natural number, without leading zeros. -/
def natDigits (n : Nat) : List Char :=
  Nat.toDigits 10 n

/-- The decimal text of an integer: a minus sign where it is negative, then its digits. -/
def intText (n : Int) : String :=
  if n < 0 then String.ofList ('-' :: natDigits n.natAbs) else String.ofList (natDigits n.natAbs)

/-- Digits padded with zeros on the left to at least `width` of them. -/
def paddedDigits (width n : Nat) : List Char :=
  let digits := natDigits n
  List.replicate (width - digits.length) '0' ++ digits

/-- The decimal text of a natural number, padded with zeros to `width` digits. -/
def paddedText (width n : Nat) : String :=
  String.ofList (paddedDigits width n)

end SqlSession.Text
