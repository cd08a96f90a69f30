/-
Reading JSON values.

A document becomes a value when its texts are well formed, its numbers are in range and
it is not nested deeper than 127 arrays and objects.

Integers that fit 64 bits are read exactly.  Any other number is read in a way that can
miss the nearest double: as many digits as fit an unsigned 64-bit word are taken, the word
becomes a double, and the power of ten that is left is multiplied or divided in.
-/
import SqlSession.Json.Document
import SqlSession.Json.Value

namespace SqlSession

namespace Json.NumberLiteral

/-- The digits that fit a 64-bit word, taken onto `n`, and the digits from the first on that
does not fit. -/
def takeWord : Nat → List Char → Nat × List Char
  | n, [] => (n, [])
  | n, c :: rest =>
    let next := n * 10 + (c.toNat - 48)
    if next < 0x10000000000000000 then takeWord next rest else (n, c :: rest)

/-- A double divided by a power of ten.  Powers beyond the range of doubles are divided out
in steps, and after two of them nothing is left. -/
def lowered (x : Binary64) (places : Nat) : Binary64 :=
  if places ≤ 308 then x.div (Binary64.tenPow places)
  else if places ≤ 616 then (x.div (Binary64.tenPow 308)).div (Binary64.tenPow (places - 308))
  else Binary64.ofMagnitude false 0

/-- `word · 10^exponent` as a double, unless it is too large. -/
def scaled? (word : Nat) (exponent : Int) : Option Binary64 :=
  let x := Binary64.ofNat word
  if exponent < 0 then some (lowered x exponent.natAbs)
  else if exponent ≤ 308 then
    let y := x.mul (Binary64.tenPow exponent.toNat)
    if y.isFinite then some y else none
  else if word = 0 then some x
  else none

/-- The literal as a double, unless it is too large. -/
def toBinary64? (n : NumberLiteral) : Option Binary64 :=
  let (word, droppedWhole) := takeWord 0 n.whole
  let fraction := n.fraction.getD []
  let (word, droppedFraction) := takeWord word fraction
  let taken := fraction.length - droppedFraction.length
  let written : Int :=
    match n.exponent with
    | none => 0
    | some (negative, digits) =>
      let e : Int := DecimalLiteral.natOfDigits digits
      if negative then -e else e
  (scaled? word (droppedWhole.length - taken + written)).map fun x =>
    if n.negative then x.neg else x

/-- The number that a literal stands for. -/
def toNumber? (n : NumberLiteral) : Option JsonNumber :=
  let whole := DecimalLiteral.natOfDigits n.whole
  let isInteger := n.fraction.isNone && n.exponent.isNone
  if isInteger && !n.negative && whole < 0x10000000000000000 then JsonNumber.ofInt? whole
  else if isInteger && n.negative && 0 < whole && whole ≤ 0x8000000000000000 then
    JsonNumber.ofInt? (-whole)
  else n.toBinary64?.bind JsonNumber.ofBinary64?

end Json.NumberLiteral

/-- Read a number that fills the whole text. -/
def JsonNumber.parse? (s : String) : Option JsonNumber :=
  (Json.NumberLiteral.parse? s.toList).bind Json.NumberLiteral.toNumber?

namespace Json

mutual

/-- The value of a document that may be nested `depth` levels deep. -/
def ofDocument? (depth : Nat) : Document → Option Json
  | .null => some .null
  | .bool b => some (.bool b)
  | .number n => n.toNumber?.map .number
  | .text pieces => (textOfPieces? pieces).map .text
  | .array elements =>
    match depth with
    | 0 => none
    | depth + 1 => (elementsOf? depth elements).map .array
  | .object members =>
    match depth with
    | 0 => none
    | depth + 1 => (membersOf? depth members).map fun members => .object (Members.ofList members)

def elementsOf? (depth : Nat) : List Document → Option (List Json)
  | [] => some []
  | d :: rest =>
    match ofDocument? depth d, elementsOf? depth rest with
    | some j, some js => some (j :: js)
    | _, _ => none

def membersOf? (depth : Nat) : List (List Piece × Document) → Option (List (String × Json))
  | [] => some []
  | (key, d) :: rest =>
    match textOfPieces? key, ofDocument? depth d, membersOf? depth rest with
    | some k, some j, some js => some ((k, j) :: js)
    | _, _, _ => none

end

/-- Read a value that fills the whole text. -/
def parse? (s : String) : Option Json :=
  (Document.parse? s).bind (ofDocument? 127)

end Json

end SqlSession
