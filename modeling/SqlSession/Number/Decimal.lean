/-
Decimals of up to 28 places.

A decimal is a sign, a mantissa of 96 bits and a scale from 0 to 28, and stands for
`±mantissa / 10^scale`.  The scale is part of the value as it is written: `1.5` and `1.50`
are different decimals of the same number.  A zero may carry a sign.
-/
import SqlSession.Number.Rounding
import SqlSession.Text.Integer

namespace SqlSession

/-- Mantissas have 96 bits. -/
abbrev Decimal.mantissaLimit : Nat := 0x1000000000000000000000000

/-- A decimal of up to 28 places. -/
structure Decimal where
  negative : Bool
  mantissa : Nat
  scale : Nat
  mantissa_lt : mantissa < Decimal.mantissaLimit
  scale_le : scale ≤ 28
  deriving DecidableEq, Repr

namespace Decimal

/-- The decimal with these parts, if they are in range. -/
def ofParts? (negative : Bool) (mantissa scale : Nat) : Option Decimal :=
  if h : mantissa < mantissaLimit ∧ scale ≤ 28 then some ⟨negative, mantissa, scale, h.1, h.2⟩
  else none

/-- Zero, without places. -/
def zero (negative : Bool) : Decimal :=
  ⟨negative, 0, 0, by decide, by decide⟩

instance : Inhabited Decimal := ⟨zero false⟩

/-- A 64-bit integer as a decimal without places. -/
def ofInt64 (n : Int64) : Decimal :=
  ⟨n < 0, n.toInt.natAbs, 0,
    by have := n.le_toInt; have := n.toInt_lt; unfold mantissaLimit; omega, by decide⟩

/-! ### Text -/

/-- The text of a decimal, with all its places. -/
def text (d : Decimal) : String :=
  let digits := Text.paddedDigits (d.scale + 1) d.mantissa
  let whole := digits.take (digits.length - d.scale)
  let places := digits.drop (digits.length - d.scale)
  let body := if d.scale = 0 then whole else whole ++ '.' :: places
  String.ofList (if d.negative then '-' :: body else body)

/-! ### Changing the scale -/

/-- Drop zeros at the end of the places; `scale` counts the places that are left. -/
def stripZeros : Nat → Nat → Nat × Nat
  | mantissa, 0 => (mantissa, 0)
  | mantissa, scale + 1 =>
    if mantissa % 10 = 0 then stripZeros (mantissa / 10) scale else (mantissa, scale + 1)

theorem stripZeros_le (scale : Nat) (mantissa : Nat) :
    (stripZeros mantissa scale).1 ≤ mantissa ∧ (stripZeros mantissa scale).2 ≤ scale := by
  induction scale generalizing mantissa with
  | zero => simp [stripZeros]
  | succ scale ih =>
    unfold stripZeros
    split
    · have := ih (mantissa / 10)
      have := Nat.div_le_self mantissa 10
      omega
    · simp

/-- The same number with as few places as it needs; zero loses its sign. -/
def normalize (d : Decimal) : Decimal :=
  let stripped := stripZeros d.mantissa d.scale
  ⟨d.negative && d.mantissa != 0, stripped.1, stripped.2,
    Nat.lt_of_le_of_lt (stripZeros_le d.scale d.mantissa).1 d.mantissa_lt,
    Nat.le_trans (stripZeros_le d.scale d.mantissa).2 d.scale_le⟩

/-- The number rounded toward zero. -/
def truncate (d : Decimal) : Int :=
  let n := d.mantissa / Nat.pow 10 d.scale
  if d.negative then -(n : Int) else n

/-- The number rounded toward zero, if it lies in the 64-bit range. -/
def toInt64? (d : Decimal) : Option Int64 :=
  let n := d.truncate
  if -0x8000000000000000 ≤ n ∧ n < 0x8000000000000000 then some (Int64.ofInt n) else none

/-- The decimal nearest to `±mantissa / 10^scale` that keeps as many of its places as the
mantissa has room for, a tie going to the even neighbour. -/
def fit? (negative : Bool) (mantissa scale : Nat) : Option Decimal :=
  (List.range (scale + 1)).findSome? fun dropped =>
    ofParts? negative (divHalfEven mantissa (Nat.pow 10 dropped)) (scale - dropped)

/-- How often the mantissa can be multiplied by ten, up to `times`, within 96 bits. -/
def roomFor (mantissa : Nat) : Nat → Nat
  | 0 => 0
  | times + 1 => if mantissa * 10 < mantissaLimit then roomFor (mantissa * 10) times + 1 else 0

/-- The decimal written with the wanted number of places: places that are too many are
dropped, a half or more in the first of them rounding up, and zeros are added as far as
there is room. -/
def rescale (d : Decimal) (scale : Nat) : Decimal :=
  if d.scale ≤ scale then
    let added := if d.mantissa = 0 then scale - d.scale else roomFor d.mantissa (scale - d.scale)
    (ofParts? d.negative (d.mantissa * Nat.pow 10 added) (d.scale + added)).getD d
  else
    let dropped := d.scale - scale
    let carry := if 5 ≤ d.mantissa / Nat.pow 10 (dropped - 1) % 10 then 1 else 0
    (ofParts? d.negative (d.mantissa / Nat.pow 10 dropped + carry) scale).getD d

end Decimal

end SqlSession
