/-
Double-precision numbers.

A number is its 64 bits, so that equal means equal bit by bit: the two zeros differ,
and so do two patterns that are not numbers.  The arithmetic works on the exact rational
values and rounds once, to the nearest number with ties to even.
-/
import SqlSession.Number.BinaryFormat

namespace SqlSession

/-- A double-precision number, as its bits. -/
structure Binary64 where
  bits : UInt64
  deriving DecidableEq, Repr, Inhabited

namespace Binary64

/-! ### Fields -/

/-- The bits without the sign. -/
def magnitude (x : Binary64) : Nat :=
  x.bits.toNat % 0x8000000000000000

/-- The sign bit is set. -/
def isNegative (x : Binary64) : Bool :=
  0x8000000000000000 ≤ x.bits.toNat

/-- Neither infinite nor "not a number". -/
def isFinite (x : Binary64) : Bool :=
  x.magnitude < BinaryFormat.double.infinity

/-- Not a number. -/
def isNaN (x : Binary64) : Bool :=
  BinaryFormat.double.infinity < x.magnitude

/-- Either zero. -/
def isZero (x : Binary64) : Bool :=
  x.magnitude == 0

/-- The number with this sign and these bits below it. -/
def ofMagnitude (negative : Bool) (magnitude : Nat) : Binary64 :=
  ⟨UInt64.ofNat ((if negative then 0x8000000000000000 else 0) + magnitude)⟩

def infinity (negative : Bool) : Binary64 :=
  ofMagnitude negative BinaryFormat.double.infinity

/-- The quiet pattern that is not a number and carries nothing. -/
def notANumber (negative : Bool) : Binary64 :=
  ofMagnitude negative (BinaryFormat.double.infinity + 0x8000000000000)

/-! ### Exact values

A finite number is `±numerator / denominator`.
-/

def numerator (x : Binary64) : Nat :=
  BinaryFormat.double.numerator x.magnitude

def denominator (x : Binary64) : Nat :=
  BinaryFormat.double.denominator x.magnitude

/-- The number nearest to `±num / den`. -/
def ofRatio (negative : Bool) (num den : Nat) : Binary64 :=
  ofMagnitude negative (BinaryFormat.double.nearest num den)

def ofNat (n : Nat) : Binary64 :=
  ofRatio false n 1

def ofInt (n : Int) : Binary64 :=
  ofRatio (n < 0) n.natAbs 1

/-- A finite number rounded toward zero. -/
def truncate (x : Binary64) : Int :=
  let n := x.numerator / x.denominator
  if x.isNegative then -(n : Int) else n

/-- The number rounded toward zero and brought into the 64-bit range; what is not a
number becomes zero. -/
def toInt64 (x : Binary64) : Int64 :=
  if x.isNaN then 0
  else if x.isFinite then
    Int64.ofInt (max (-0x8000000000000000) (min x.truncate 0x7FFFFFFFFFFFFFFF))
  else if x.isNegative then Int64.minValue
  else Int64.maxValue

/-! ### Arithmetic on finite numbers -/

/-- The product, rounded once. -/
def mul (x y : Binary64) : Binary64 :=
  ofRatio (x.isNegative != y.isNegative) (x.numerator * y.numerator)
    (x.denominator * y.denominator)

/-- The quotient by a number other than zero, rounded once. -/
def div (x y : Binary64) : Binary64 :=
  ofRatio (x.isNegative != y.isNegative) (x.numerator * y.denominator)
    (x.denominator * y.numerator)

/-- The sum of two magnitudes, rounded once. -/
def addMagnitudes (x y : Binary64) : Binary64 :=
  ofRatio false (x.numerator * y.denominator + y.numerator * x.denominator)
    (x.denominator * y.denominator)

/-- The nearest integer; a tie goes away from zero. -/
def roundHalfAway (x : Binary64) : Binary64 :=
  ofRatio x.isNegative (divHalfUp x.numerator x.denominator) 1

/-- The number with its sign changed. -/
def neg (x : Binary64) : Binary64 :=
  ofMagnitude (!x.isNegative) x.magnitude

/-- Powers of ten up to 10^308, each the number nearest to the power. -/
def tenPow (n : Nat) : Binary64 :=
  ofNat (Nat.pow 10 n)

/-! ### Single precision -/

/-- The bits of the single-precision number nearest to this one.  What is not a number
keeps its sign and the leading part of its pattern, made quiet. -/
def toSingle (x : Binary64) : UInt32 :=
  let word :=
    if x.isNaN then
      BinaryFormat.single.infinity + (x.magnitude / 0x20000000 % 0x800000 ||| 0x400000)
    else if x.isFinite then BinaryFormat.single.nearest x.numerator x.denominator
    else BinaryFormat.single.infinity
  UInt32.ofNat ((if x.isNegative then 0x80000000 else 0) + word)

/-- The number that a single-precision pattern stands for; the conversion is exact. -/
def ofSingle (bits : UInt32) : Binary64 :=
  let negative := 0x80000000 ≤ bits.toNat
  let word := bits.toNat % 0x80000000
  let f := BinaryFormat.single
  if word < f.infinity then ofRatio negative (f.numerator word) (f.denominator word)
  else if word = f.infinity then infinity negative
  else ofMagnitude negative
    (BinaryFormat.double.infinity + ((word % 0x800000 ||| 0x400000) * 0x20000000))

end Binary64

end SqlSession
