/-
Characters and bytes.

A text is stored as UTF-8.  Reading bytes back goes on behind a sequence that is cut off or
not allowed: the bytes of it that could begin a character count as one bad sequence, and
the byte that broke it is looked at afresh.
-/

namespace SqlSession.Text

/-- The bytes of a text. -/
def utf8Bytes (s : String) : List UInt8 :=
  s.toUTF8.toList

/-- A character that has begun: its bits so far, how many bytes are to come, and the range
that the next one has to lie in. -/
structure PartialChar where
  code : Nat
  missing : Nat
  low : Nat
  high : Nat

/-- What a byte at the start of a character begins. -/
inductive FirstByte where
  | char (c : Char)
  | lead (p : PartialChar)
  | bad

/-- Classify the first byte of a character.  The second byte of some characters is confined
so that none is written longer than it has to be, is half of a pair, or lies beyond the
last code point. -/
def firstByte (b : Nat) : FirstByte :=
  if b < 0x80 then .char (Char.ofNat b)
  else if 0xC2 ≤ b ∧ b ≤ 0xDF then .lead ⟨b - 0xC0, 1, 0x80, 0xBF⟩
  else if b = 0xE0 then .lead ⟨0, 2, 0xA0, 0xBF⟩
  else if b = 0xED then .lead ⟨0xD, 2, 0x80, 0x9F⟩
  else if 0xE1 ≤ b ∧ b ≤ 0xEF then .lead ⟨b - 0xE0, 2, 0x80, 0xBF⟩
  else if b = 0xF0 then .lead ⟨0, 3, 0x90, 0xBF⟩
  else if b = 0xF4 then .lead ⟨4, 3, 0x80, 0x8F⟩
  else if 0xF1 ≤ b ∧ b ≤ 0xF3 then .lead ⟨b - 0xF0, 3, 0x80, 0xBF⟩
  else .bad

/-- The characters of the bytes, with `none` for each bad sequence. -/
def decodeFrom : Option PartialChar → List UInt8 → List (Option Char)
  | none, [] => []
  | some _, [] => [none]
  | none, b :: rest =>
    match firstByte b.toNat with
    | .char c => some c :: decodeFrom none rest
    | .lead p => decodeFrom (some p) rest
    | .bad => none :: decodeFrom none rest
  | some p, b :: rest =>
    let n := b.toNat
    if p.low ≤ n ∧ n ≤ p.high then
      let code := p.code * 64 + (n - 0x80)
      if p.missing = 1 then some (Char.ofNat code) :: decodeFrom none rest
      else decodeFrom (some ⟨code, p.missing - 1, 0x80, 0xBF⟩) rest
    else
      match firstByte n with
      | .char c => none :: some c :: decodeFrom none rest
      | .lead q => none :: decodeFrom (some q) rest
      | .bad => none :: none :: decodeFrom none rest

/-- The text of the bytes, if they are UTF-8 throughout. -/
def ofUtf8? (bytes : List UInt8) : Option String :=
  ((decodeFrom none bytes).mapM id).map String.ofList

/-- The text of the bytes, with a replacement character for each bad sequence. -/
def ofUtf8Lossy (bytes : List UInt8) : String :=
  String.ofList ((decodeFrom none bytes).map fun c => c.getD '\uFFFD')

end SqlSession.Text
