/-
Decimals in text.

A decimal is written with an optional sign, digits, and one point anywhere around or
among them; underscores may follow the first digit.  Places that find no room, because
28 are there already or the mantissa is full, are cut: the first of them rounds, and the
digits and underscores behind it count for nothing.  Too many digits before the point are
an error.  A text that cannot be read so may be in scientific notation.
-/
import SqlSession.Number.Decimal

namespace SqlSession.Decimal

/-- The decimal with these parts; zero gets no sign. -/
private def ofDigits? (negative : Bool) (mantissa scale : Nat) : Option Decimal :=
  ofParts? (negative && mantissa != 0) mantissa scale

/-- Finish at a digit that finds no room, the first of the places that are cut. -/
def cutAt (negative : Bool) (mantissa scale digit : Nat) : Option Decimal :=
  if digit < 5 then ofDigits? negative mantissa scale
  else if mantissa + 1 < mantissaLimit then ofDigits? negative (mantissa + 1) scale
  else if scale = 0 then none
  else ofDigits? negative ((mantissa + 5) / 10) (scale - 1)

/-- Whether a character may stand among the places that are cut. -/
def isCutPlace (c : Char) : Bool :=
  c = '_' || (Text.digitValue? c).isSome

/-- Read on behind the sign: `point` and `seen` tell whether the point and a digit have
been read, `mantissa` and `scale` hold what was read so far. -/
def readPlain (negative : Bool) : (point seen : Bool) → (mantissa scale : Nat) → List Char →
    Option Decimal
  | _, seen, mantissa, scale, [] => if seen then ofDigits? negative mantissa scale else none
  | point, seen, mantissa, scale, c :: rest =>
    match Text.digitValue? c with
    | some d =>
      if mantissa * 10 + d < mantissaLimit ∧ ¬(point ∧ 28 ≤ scale) then
        readPlain negative point true (mantissa * 10 + d) (if point then scale + 1 else 0) rest
      else if point ∧ rest.all isCutPlace then cutAt negative mantissa scale d
      else none
    | none =>
      if c = '.' ∧ !point then readPlain negative true seen mantissa scale rest
      else if c = '_' ∧ seen then readPlain negative point seen mantissa scale rest
      else none

/-- Read a decimal that is not in scientific notation. -/
def parsePlain? (cs : List Char) : Option Decimal :=
  match cs with
  | '-' :: rest => readPlain true false false 0 0 rest
  | '+' :: rest => readPlain false false false 0 0 rest
  | _ => readPlain false false false 0 0 cs

/-- The number times `10^exponent`, with the places it then needs. -/
def raise? (d : Decimal) (exponent : Nat) : Option Decimal :=
  -- the power may have to be multiplied in twice, as each step takes up to 19 places
  let step := fun (d : Decimal) (k : Nat) => fit? d.negative (d.mantissa * Nat.pow 10 k) d.scale
  ((step d (min exponent 19)).bind fun e => step e (exponent - min exponent 19)).map normalize

/-- Read an exponent of up to 28 and apply it to the number in front of it. -/
def applyExponent? (d : Decimal) (exponent : List Char) : Option Decimal :=
  match exponent with
  | '-' :: digits =>
    match Text.readUnsigned 28 (String.ofList digits) with
    | .error _ => none
    | .ok e =>
      if 28 < d.scale + e then
        let r := d.rescale (28 - e)
        ofParts? r.negative r.mantissa 28
      else ofParts? d.negative d.mantissa (d.scale + e)
  | digits =>
    match Text.readUnsigned 0xFFFFFFFF (String.ofList digits) with
    | .error _ => none
    | .ok e =>
      if e ≤ d.scale then ofParts? d.negative d.mantissa (d.scale - e)
      else if 28 < e then none
      else raise? d e

/-- Read a decimal that fills the whole text. -/
def parse? (s : String) : Option Decimal :=
  match parsePlain? s.toList with
  | some d => some d
  | none =>
    let isMark := fun c : Char => c = 'e' ∨ c = 'E'
    match s.toList.dropWhile fun c => !isMark c with
    | [] => none
    | _ :: exponent =>
      (parsePlain? (s.toList.takeWhile fun c => !isMark c)).bind (applyExponent? · exponent)

end SqlSession.Decimal
