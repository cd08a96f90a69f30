/-
Decimals on the wire.

A decimal is written in groups of four digits.  The weight is the power of 10000 of the
first group, the scale the number of decimal places to show, and groups of zeros are left
out in front and, when there are digits before the point, at the end.

Reading adds the groups up one after the other, each sum as exact as 96 bits allow, and
then brings the result to the scale.
-/
import SqlSession.Number.Decimal
import SqlSession.Wire.Bytes

namespace SqlSession.Wire

/-! ### Writing -/

/-- The base-10000 groups of a number, the most significant first. -/
def groupsOf (n : Nat) : List Nat :=
  go 16 n []
where
  /-- Take groups off the end; 16 of them are enough for any mantissa. -/
  go : Nat → Nat → List Nat → List Nat
    | 0, _, groups => groups
    | k + 1, n, groups => if n = 0 then groups else go k (n / 10000) (n % 10000 :: groups)

/-- A decimal as the server reads it. -/
def numericBytes (d : Decimal) : Bytes :=
  if d.mantissa = 0 then bigEndian 2 0 ++ bigEndian 2 0 ++ bigEndian 2 0 ++ bigEndian 2 0
  else
    -- the mantissa with zeros added so that the point falls between two groups
    let groupsAfterPoint := (d.scale + 3) / 4
    let groups := groupsOf (d.mantissa * Nat.pow 10 (4 * groupsAfterPoint - d.scale))
    let weight : Int := (groups.length : Int) - groupsAfterPoint - 1
    let groups :=
      if 0 ≤ weight then
        let whole := groups.take (weight + 1).toNat
        let places := groups.drop (weight + 1).toNat
        whole ++ (places.reverse.dropWhile (· == 0)).reverse
      else groups
    bigEndian 2 groups.length ++ signedBytes 2 weight
      ++ bigEndian 2 (if d.negative then 0x4000 else 0) ++ bigEndian 2 d.scale
      ++ groups.flatMap (bigEndian 2)

/-! ### Reading -/

/-- The sum of a decimal and `n / 10^scale`, both taken without sign. -/
def addPlaces? (d : Decimal) (n scale : Nat) : Option Decimal :=
  let common := max d.scale scale
  Decimal.fit? false
    (d.mantissa * Nat.pow 10 (common - d.scale) + n * Nat.pow 10 (common - scale)) common

/-- The groups before the point as one integer, if it has room. -/
def wholeOf? (groups : List Nat) (missing : Nat) : Option Decimal :=
  groups.foldlM (fun (d : Decimal) g => Decimal.ofParts? false (d.mantissa * 10000 + g) 0)
      (Decimal.zero false)
    |>.bind fun d =>
      if d.mantissa = 0 then some d
      else Decimal.ofParts? false (d.mantissa * Nat.pow 10000 missing) 0

/-- Add the groups behind the point; `places` is where the first of them ends.  Places
past the 28th are dropped, but the first group past them can round. -/
def addFraction? : Decimal → Nat → List Nat → Option Decimal
  | d, _, [] => some d
  | d, places, g :: rest =>
    let next :=
      if places ≤ 28 then addPlaces? d g places
      else if places = 32 ∧ 5000 ≤ g then addPlaces? d 1 28
      else some d
    next.bind fun d => addFraction? d (places + 4) rest

/-- Take `count` groups off the front. -/
def takeGroups? : Nat → Bytes → Option (List Nat)
  | 0, _ => some []
  | count + 1, bytes =>
    (takeNat? 2 bytes).bind fun (g, rest) => (takeGroups? count rest).map (g :: ·)

/-- Read a decimal.  Bytes behind the last group are ignored. -/
def numeric? (bytes : Bytes) : Option Decimal := do
  let (count, bytes) ← takeNat? 2 bytes
  let (weight, bytes) ← takeInt? 2 bytes
  let (sign, bytes) ← takeNat? 2 bytes
  let (scale, bytes) ← takeNat? 2 bytes
  let groups ← takeGroups? count bytes
  -- both top bits set: not a number, or infinite
  if 0xC000 ≤ sign then none
  else
    let wholeGroups := (weight + 1).toNat
    let whole ← wholeOf? (groups.take wholeGroups) (wholeGroups - groups.length)
    let d ← addFraction? whole (4 * ((-weight - 1).toNat + 1)) (groups.drop wholeGroups)
    let d := Decimal.rescale d (min scale 28)
    return { d with negative := sign == 0x4000 }

end SqlSession.Wire
