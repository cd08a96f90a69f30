/-
Scalars of TOML that are not quoted.

A number, a truth value, or a date or time is one atom, a maximal run of the characters
that occur in them.  Digits may have single underscores between them, and decimal numbers
have no leading zeros.  A number has to fit: integers into 128 bits, signed or unsigned,
and other numbers into the finite doubles.
-/
import SqlSession.Calendar.Clock
import SqlSession.Json.Token

namespace SqlSession.Toml

/-- A value that has no parts. -/
inductive Scalar where
  | text (s : String)
  | int (n : Int)
  | float (x : Binary64)
  | bool (b : Bool)
  /-- A date, a time or both, as they are written. -/
  | moment (text : String)
  deriving DecidableEq, Repr

/-- A character of atoms. -/
def isAtomChar (c : Char) : Bool :=
  c.isAlphanum || c == '_' || c == '+' || c == '-' || c == '.' || c == ':'

/-! ### Digits -/

/-- The digits without the underscores between them; an underscore stands between two
digits. -/
def digitsOf? (isDigit : Char → Bool) : List Char → Option (List Char)
  | [] => none
  | [c] => if isDigit c then some [c] else none
  | c :: '_' :: rest => if isDigit c then (digitsOf? isDigit rest).map (c :: ·) else none
  | c :: rest => if isDigit c then (digitsOf? isDigit rest).map (c :: ·) else none

/-- Decimal digits without a leading zero. -/
def wholeOf? (cs : List Char) : Option (List Char) :=
  (digitsOf? Char.isDigit cs).filter fun digits => digits.length = 1 || digits.head? != some '0'

/-- The value of digits in a base. -/
def natOfBase (base : Nat) (digits : List Char) : Nat :=
  digits.foldl (fun n c => n * base + (Json.hexValue? c).getD 0) 0

/-- An optional sign and what follows it. -/
def signed : List Char → Bool × List Char
  | '-' :: rest => (true, rest)
  | '+' :: rest => (false, rest)
  | cs => (false, cs)

/-! ### Numbers -/

/-- An integer that fits 128 bits. -/
def bounded? (n : Int) : Option Scalar :=
  if -0x80000000000000000000000000000000 ≤ n ∧ n < 0x100000000000000000000000000000000 then
    some (.int n)
  else none

def intOf? (cs : List Char) : Option Scalar :=
  match cs with
  | '0' :: 'x' :: rest =>
    (digitsOf? (fun c => (Json.hexValue? c).isSome) rest).bind fun ds => bounded? (natOfBase 16 ds)
  | '0' :: 'o' :: rest =>
    (digitsOf? (fun c => '0' ≤ c && c ≤ '7') rest).bind fun ds => bounded? (natOfBase 8 ds)
  | '0' :: 'b' :: rest =>
    (digitsOf? (fun c => c == '0' || c == '1') rest).bind fun ds => bounded? (natOfBase 2 ds)
  | _ =>
    let (negative, body) := signed cs
    (wholeOf? body).bind fun ds =>
      let n : Int := natOfBase 10 ds
      bounded? (if negative then -n else n)

/-- The digits of an exponent, with its sign. -/
def exponentOf? (cs : List Char) : Option (List Char) :=
  match cs with
  | '-' :: rest => (digitsOf? Char.isDigit rest).map ('-' :: ·)
  | '+' :: rest => digitsOf? Char.isDigit rest
  | _ => digitsOf? Char.isDigit cs

/-- A number with a fraction or an exponent, without underscores. -/
def floatText? (body : List Char) : Option (List Char) :=
  let isMark : Char → Bool := fun c => c == 'e' || c == 'E'
  let mantissa := body.takeWhile fun c => !isMark c
  let whole := mantissa.takeWhile (· != '.')
  let fraction? : Option (List Char) :=
    match mantissa.dropWhile (· != '.') with
    | _ :: digits => (digitsOf? Char.isDigit digits).map ('.' :: ·)
    | [] => some []
  let exponent? : Option (List Char) :=
    match body.dropWhile fun c => !isMark c with
    | _ :: digits => (exponentOf? digits).map ('e' :: ·)
    | [] => some []
  match wholeOf? whole, fraction?, exponent? with
  | some w, some f, some e => if f.isEmpty ∧ e.isEmpty then none else some (w ++ f ++ e)
  | _, _, _ => none

def floatOf? (cs : List Char) : Option Scalar :=
  let (negative, body) := signed cs
  if body = "inf".toList then some (.float (Binary64.infinity negative))
  else if body = "nan".toList then some (.float (Binary64.notANumber negative))
  else
    (floatText? body).bind fun digits =>
      (DecimalLiteral.parse? digits).bind fun d =>
        let x := d.toBinary64 negative
        if x.isFinite then some (.float x) else none

/-! ### Dates and times -/

/-- The number of some digits. -/
def numberOf? (cs : List Char) : Option Nat :=
  if !cs.isEmpty && cs.all Char.isDigit then some (natOfBase 10 cs) else none

def isDate : List Char → Bool
  | [a, b, c, d, '-', e, f, '-', g, h] =>
    match numberOf? [a, b, c, d], numberOf? [e, f], numberOf? [g, h] with
    | some year, some month, some day => (Date.ofParts? year month day).isSome
    | _, _, _ => false
  | _ => false

/-- The digits behind the point of a time, if there is one. -/
def isFraction : List Char → Bool
  | [] => true
  | '.' :: digits => (numberOf? digits).isSome
  | _ => false

/-- A time of the day, to the minute at least. -/
def isTime : List Char → Bool
  | a :: b :: ':' :: c :: d :: rest =>
    match numberOf? [a, b], numberOf? [c, d] with
    | some hour, some minute =>
      hour < 24 && minute < 60 &&
        match rest with
        | [] => true
        | ':' :: e :: f :: fraction =>
          (numberOf? [e, f]).any (· ≤ 60) && isFraction fraction
        | _ => false
    | _, _ => false
  | _ => false

/-- A distance from universal time. -/
def isOffset : List Char → Bool
  | [c] => c == 'Z' || c == 'z'
  | [sign, a, b, ':', c, d] =>
    (sign == '+' || sign == '-') &&
      match numberOf? [a, b], numberOf? [c, d] with
      | some hour, some minute => minute < 60 && hour * 60 + minute ≤ 1440
      | _, _ => false
  | _ => false

/-- A time of the day, and possibly a distance from universal time. -/
def isTimeWithOffset (cs : List Char) : Bool :=
  let isMark : Char → Bool := fun c => c == 'Z' || c == 'z' || c == '+' || c == '-'
  let offset := cs.dropWhile fun c => !isMark c
  isTime (cs.takeWhile fun c => !isMark c) && (offset.isEmpty || isOffset offset)

def isMoment (cs : List Char) : Bool :=
  isDate cs || isTime cs ||
    (isDate (cs.take 10) &&
      match cs.drop 10 with
      | mark :: time => (mark == 'T' || mark == 't' || mark == ' ') && isTimeWithOffset time
      | [] => false)

/-! ### Atoms -/

/-- The scalar that an atom is. -/
def scalarOf? (atom : List Char) : Option Scalar :=
  if atom = "true".toList then some (.bool true)
  else if atom = "false".toList then some (.bool false)
  else if isMoment atom then some (.moment (String.ofList atom))
  else (intOf? atom).or (floatOf? atom)

/-- The atom at the start of what is to be read, and what stands behind it.  A date goes on
behind one blank if a digit follows. -/
def takeAtom (cs : List Char) : List Char × List Char :=
  let atom := cs.takeWhile isAtomChar
  match cs.dropWhile isAtomChar with
  | ' ' :: c :: rest =>
    if isDate atom ∧ c.isDigit then
      (atom ++ ' ' :: (c :: rest).takeWhile isAtomChar, (c :: rest).dropWhile isAtomChar)
    else (atom, ' ' :: c :: rest)
  | rest => (atom, rest)

end SqlSession.Toml
