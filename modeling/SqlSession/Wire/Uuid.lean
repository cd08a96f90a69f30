/-
Universally unique identifiers.

Sixteen bytes, written as 32 hexadecimal digits with hyphens behind the 8th, 12th, 16th and
20th.  They are also read without hyphens, in braces, or behind `urn:uuid:`.
-/
import SqlSession.Wire.Bytes

namespace SqlSession.Wire

/-- The bytes that pairs of hexadecimal digits stand for. -/
def bytesOfHex? : List Char → Option Bytes
  | [] => some []
  | [_] => none
  | a :: b :: rest => do
    let high ← value? a
    let low ← value? b
    let later ← bytesOfHex? rest
    return UInt8.ofNat (high * 16 + low) :: later
where
  /-- The value of a hexadecimal digit in either case. -/
  value? (c : Char) : Option Nat :=
    if c.isDigit then some (c.toNat - 48)
    else if 'a' ≤ c ∧ c ≤ 'f' then some (c.toNat - 87)
    else if 'A' ≤ c ∧ c ≤ 'F' then some (c.toNat - 55)
    else none

/-- The hexadecimal digits of bytes. -/
def hexOfBytes (bytes : Bytes) : List Char :=
  bytes.flatMap fun b => [Nat.digitChar (b.toNat / 16), Nat.digitChar (b.toNat % 16)]

/-- The digits of an identifier whose hyphens stand where they belong. -/
def withoutHyphens? (cs : List Char) : Option (List Char) :=
  if cs.length = 36 ∧ [8, 13, 18, 23].all fun i => cs[i]? == some '-' then
    some (cs.take 8 ++ (cs.drop 9).take 4 ++ (cs.drop 14).take 4 ++ (cs.drop 19).take 4
      ++ cs.drop 24)
  else none

/-- The sixteen bytes of an identifier in text. -/
def uuidBytes? (s : String) : Option Bytes :=
  let cs := s.toList
  let digits :=
    if cs.length = 32 then some cs
    else if cs.length = 38 ∧ cs.head? = some '\x7b' ∧ cs.getLast? = some '\x7d' then
      withoutHyphens? ((cs.drop 1).take 36)
    else if cs.length = 45 ∧ "urn:uuid:".toList.isPrefixOf cs then withoutHyphens? (cs.drop 9)
    else withoutHyphens? cs
  digits.bind bytesOfHex?

/-- The text of sixteen bytes. -/
def uuidText (bytes : Bytes) : String :=
  let h := hexOfBytes bytes
  String.ofList (h.take 8 ++ '-' :: (h.drop 8).take 4 ++ '-' :: (h.drop 12).take 4
    ++ '-' :: (h.drop 16).take 4 ++ '-' :: h.drop 20)

end SqlSession.Wire
