/-
Integers as bytes, the most significant first.

A signed integer is written in two's complement.  Reading takes as many bytes as the
integer is wide and refuses fewer.
-/

namespace SqlSession.Wire

abbrev Bytes := List UInt8

/-- The lowest `width` bytes of a natural number. -/
def bigEndian : Nat → Nat → Bytes
  | 0, _ => []
  | width + 1, n => bigEndian width (n / 256) ++ [UInt8.ofNat n]

/-- An integer in `width` bytes, in two's complement. -/
def signedBytes (width : Nat) (n : Int) : Bytes :=
  bigEndian width (n % Nat.pow 256 width).toNat

/-- The natural number that bytes stand for. -/
def natOfBytes (bytes : Bytes) : Nat :=
  bytes.foldl (fun n b => n * 256 + b.toNat) 0

/-- The integer that bytes stand for in two's complement. -/
def intOfBytes (bytes : Bytes) : Int :=
  let n := natOfBytes bytes
  if 2 * n < Nat.pow 256 bytes.length then n else (n : Int) - Nat.pow 256 bytes.length

/-- Exactly `width` bytes, as a natural number. -/
def nat? (width : Nat) (bytes : Bytes) : Option Nat :=
  if bytes.length = width then some (natOfBytes bytes) else none

/-- Exactly `width` bytes, as an integer. -/
def int? (width : Nat) (bytes : Bytes) : Option Int :=
  if bytes.length = width then some (intOfBytes bytes) else none

/-- Take `width` bytes off the front as a natural number. -/
def takeNat? (width : Nat) (bytes : Bytes) : Option (Nat × Bytes) :=
  if width ≤ bytes.length then some (natOfBytes (bytes.take width), bytes.drop width) else none

/-- Take `width` bytes off the front as an integer. -/
def takeInt? (width : Nat) (bytes : Bytes) : Option (Int × Bytes) :=
  if width ≤ bytes.length then some (intOfBytes (bytes.take width), bytes.drop width) else none

@[simp] theorem length_bigEndian (width n : Nat) : (bigEndian width n).length = width := by
  induction width generalizing n with
  | zero => rfl
  | succ width ih => simp [bigEndian, ih]

/-- What is written in enough bytes is read back. -/
theorem natOfBytes_bigEndian (width n : Nat) :
    natOfBytes (bigEndian width n) = n % Nat.pow 256 width := by
  induction width generalizing n with
  | zero => simp [bigEndian, natOfBytes, Nat.mod_one]
  | succ width ih =>
    have h := ih (n / 256)
    simp only [natOfBytes] at h
    simp only [bigEndian, natOfBytes, List.foldl_append, List.foldl_cons, List.foldl_nil, h,
      UInt8.toNat_ofNat']
    have hm : n % Nat.pow 256 (width + 1) = n / 256 % Nat.pow 256 width * 256 + n % 256 := by
      show n % (Nat.pow 256 width * 256) = _
      rw [Nat.mul_comm (Nat.pow 256 width), Nat.mod_mul, Nat.add_comm, Nat.mul_comm 256]
    omega

end SqlSession.Wire
