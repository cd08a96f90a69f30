/-
Decimals and double-precision numbers.

Neither direction is a single rounding.  A decimal with places becomes a double in steps
that are each rounded: its whole part plus its fraction, brought back to its places.  A
double becomes a decimal by moving its binary exponent into a decimal one, dropping
binary digits where 96 bits are full.
-/
import SqlSession.Number.Binary64
import SqlSession.Number.Decimal

namespace SqlSession

namespace Binary64

/-- `10^n` for `n` below 32, multiplied up from repeated squares, each product rounded. -/
def tenPowBySquaring (n : Nat) : Binary64 :=
  ((List.range 5).foldl
    (fun (r : Binary64 × Binary64) i =>
      (if n.testBit i then r.1.mul r.2 else r.1, r.2.mul r.2))
    (ofNat 1, ofNat 10)).1

end Binary64

namespace Decimal

/-- The double that stands for a decimal. -/
def toBinary64 (d : Decimal) : Binary64 :=
  if d.scale = 0 then
    Binary64.ofRatio (d.negative && d.mantissa != 0) d.mantissa 1
  else
    let power := Nat.pow 10 d.scale
    let whole := Binary64.ofNat (d.mantissa / power)
    let fraction := (Binary64.ofNat (d.mantissa % power)).div (Binary64.ofNat power)
    let result :=
      if fraction.isZero then whole
      else
        let shift := Binary64.tenPowBySquaring d.scale
        (((whole.addMagnitudes fraction).mul shift).roundHalfAway).div shift
    if d.negative then result.neg else result

/-! ### From a double

The number is `m · 2^e2 · 10^e10` throughout.  First the binary exponent is taken to zero,
trading factors of two for factors of ten and five, and then the decimal exponent is
taken into the range of scales.
-/

/-- Take a negative binary exponent, given by its size, to zero. -/
def growFives : Nat → Nat → Int → Nat × Int
  | 0, m, e10 => (m, e10)
  | n + 1, m, e10 =>
    if m % 2 = 0 then growFives n (m / 2) (e10 + 1)
    else if m * 5 < mantissaLimit then growFives n (m * 5) e10
    else growFives n (m / 2) (e10 + 1)

/-- Take a positive binary exponent to zero; it may become too large for the mantissa. -/
def shrinkFives : Nat → Nat → Int → Option (Nat × Int)
  | 0, m, e10 => some (m, e10)
  | n + 1, m, e10 =>
    if m < 0x800000000000000000000000 then shrinkFives n (m * 2) (e10 - 1)
    else if e10 * 2 > (n + 1 : Nat) then none
    else shrinkFives n (m / 5) e10

/-- Write out a positive decimal exponent. -/
def writeOut : Nat → Nat → Option Nat
  | 0, m => some m
  | n + 1, m => if m * 10 < mantissaLimit then writeOut n (m * 10) else none

/-- Drop the places beyond the 28th, `n` of them, rounding each time; nothing is left to
drop once the mantissa is zero, and the zero then has no places. -/
def dropPlaces : Nat → Nat → Nat × Nat
  | 0, m => (m, 28)
  | n + 1, m =>
    let m' := m / 10
    if m' = 0 then (0, 0) else dropPlaces n (if 5 ≤ m % 10 then m' + 1 else m')

/-- The decimal that stands for a double with all the binary digits that find room. -/
def ofBinary64? (x : Binary64) : Option Decimal :=
  if !x.isFinite then none
  else if x.isZero then some (zero x.isNegative)
  else
    let m := BinaryFormat.double.significand x.magnitude
    let e := BinaryFormat.double.scale x.magnitude
    let moved := if e < 0 then some (growFives e.natAbs m e) else shrinkFives e.natAbs m e
    moved.bind fun (m, e10) =>
      if 0 ≤ e10 then (writeOut e10.toNat m).bind fun m => ofParts? x.isNegative m 0
      else if -28 ≤ e10 then ofParts? x.isNegative m e10.natAbs
      else
        let (m, scale) := dropPlaces (e10.natAbs - 28) m
        ofParts? x.isNegative m scale

end Decimal

end SqlSession
