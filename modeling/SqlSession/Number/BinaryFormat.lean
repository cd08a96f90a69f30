/-
Binary floating-point formats.

A format is fixed by the widths of its fraction and exponent fields.  The words of a
format, without the sign bit, are natural numbers in the order of the magnitudes they
stand for: the subnormal ones, then the normal ones, then infinity.  So the word nearest
to a quotient is found by rounding the quotient on the grid of its binade, and a
magnitude that rounds past the last finite word is infinite.
-/
import SqlSession.Number.Rounding

namespace SqlSession

/-- The field widths of a binary floating-point format. -/
structure BinaryFormat where
  fractionBits : Nat
  exponentBits : Nat

namespace BinaryFormat

/-- 64 bits in all. -/
def double : BinaryFormat := ⟨52, 11⟩

/-- 32 bits in all. -/
def single : BinaryFormat := ⟨23, 8⟩

variable (f : BinaryFormat)

/-- The magnitude word of infinity; the words above it are not numbers. -/
def infinity : Nat :=
  (Nat.pow 2 f.exponentBits - 1) * Nat.pow 2 f.fractionBits

/-- The binary exponent of the last place of a subnormal number. -/
def minScale : Int :=
  2 - Nat.pow 2 (f.exponentBits - 1) - f.fractionBits

/-- The integer significand of a finite word: the fraction, with the leading bit that a
normal number does not write down. -/
def significand (word : Nat) : Nat :=
  if word < Nat.pow 2 f.fractionBits then word
  else Nat.pow 2 f.fractionBits + word % Nat.pow 2 f.fractionBits

/-- The binary exponent of the last place of a finite word. -/
def scale (word : Nat) : Int :=
  f.minScale + ((word / Nat.pow 2 f.fractionBits - 1 : Nat) : Int)

/-- The numerator of a finite word's magnitude. -/
def numerator (word : Nat) : Nat :=
  f.significand word * Nat.pow 2 (f.scale word).toNat

/-- The denominator of a finite word's magnitude. -/
def denominator (word : Nat) : Nat :=
  Nat.pow 2 (-f.scale word).toNat

/-- The exponent of the greatest power of two that is at most `num / den`. -/
def binaryLog (num den : Nat) : Int :=
  let e : Int := (num.log2 : Int) - den.log2
  if num * Nat.pow 2 (-e).toNat < den * Nat.pow 2 e.toNat then e - 1 else e

/-- The word nearest to `num / den`, a tie going to the even word. -/
def nearest (num den : Nat) : Nat :=
  if num = 0 then 0
  else
    let s := max (binaryLog num den - f.fractionBits) f.minScale
    let m := divHalfEven (num * Nat.pow 2 (-s).toNat) (den * Nat.pow 2 s.toNat)
    min ((s - f.minScale).toNat * Nat.pow 2 f.fractionBits + m) f.infinity

end BinaryFormat

end SqlSession
