/-
Network addresses.

An address of the fourth version is four numbers with points between.  One of the sixth is
eight hexadecimal groups with colons between, of which the first longest run of at least
two zero groups is left out; an address of the fourth version inside one of the sixth
keeps its points.  The length of the network follows a slash unless it is the whole
address of a host.
-/
import SqlSession.Text.Integer
import SqlSession.Wire.Bytes

namespace SqlSession.Wire

/-- Four numbers with points between. -/
def address4Text (bytes : Bytes) : String :=
  ".".intercalate (bytes.map fun b => Text.intText b.toNat)

/-- The two-byte groups of an address. -/
def groups16 : Bytes → List Nat
  | a :: b :: rest => (a.toNat * 256 + b.toNat) :: groups16 rest
  | _ => []

/-- A group in hexadecimal digits, without leading zeros. -/
def hexText (n : Nat) : String :=
  String.ofList (Nat.toDigits 16 n)

/-- The start and the length of the first longest run of zeros; `i` groups have been
passed, the last `run` of them zeros. -/
def longestZeros : (i run : Nat) → (best : Nat × Nat) → List Nat → Nat × Nat
  | _, _, best, [] => best
  | i, run, best, g :: rest =>
    if g = 0 then
      let run := run + 1
      longestZeros (i + 1) run (if best.2 < run then (i + 1 - run, run) else best) rest
    else longestZeros (i + 1) 0 best rest

/-- Hexadecimal groups with colons between. -/
def address6Text (bytes : Bytes) : String :=
  let groups := groups16 bytes
  let joined := fun groups : List Nat => ":".intercalate (groups.map hexText)
  if groups.take 6 = [0, 0, 0, 0, 0, 0xFFFF] then "::ffff:" ++ address4Text (bytes.drop 12)
  else
    let (start, length) := longestZeros 0 0 (0, 0) groups
    if 1 < length then joined (groups.take start) ++ "::" ++ joined (groups.drop (start + length))
    else joined groups

/-- An address or a network: family, length of the network, whether it is a network, and
the bytes of the address with their number. -/
def addressText? (bytes : Bytes) : Option String :=
  match bytes with
  | family :: bits :: isNetwork :: length :: address =>
    if address.length ≠ length.toNat then none
    else
      let whole :=
        if family = 2 ∧ address.length = 4 then some (address4Text address, 32)
        else if family = 3 ∧ address.length = 16 then some (address6Text address, 128)
        else none
      whole.map fun (text, full) =>
        if isNetwork ≠ 0 ∨ bits.toNat ≠ full then text ++ "/" ++ Text.intText bits.toNat else text
  | _ => none

end SqlSession.Wire
