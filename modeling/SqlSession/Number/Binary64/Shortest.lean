/-
The fewest digits that read back.

Around a finite number lies the interval of the reals that round to it; its ends belong
to it when the significand is even.  On the grid of the multiples of a power of ten only
the two neighbours of the number need a look, and the coarsest grid with a neighbour in
the interval gives the fewest digits.  Of two such neighbours the nearer is taken, and
the layout decides when both are equally near.
-/
import SqlSession.Number.Binary64.Reading

namespace SqlSession

/-- What happens to a number exactly between two candidates. -/
inductive TieBreak where
  /-- The greater magnitude is written. -/
  | up
  /-- The candidate with the even last digit is written. -/
  | even
  deriving DecidableEq

namespace Binary64

/-- The neighbour on the grid of `10^k` that rounds to the magnitude, if one does. -/
def neighbour? (tie : TieBreak) (significand : Nat) (scale : Int) (binadeStart : Bool) (k : Int) :
    Option Nat :=
  -- a quarter of the last place is the unit, so that both half gaps are whole
  let q := scale - 2
  let up := Nat.pow 2 q.toNat * Nat.pow 10 (-k).toNat
  let den := Nat.pow 10 k.toNat * Nat.pow 2 (-q).toNat
  let value := 4 * significand * up
  let low := (4 * significand - (if binadeStart then 1 else 2)) * up
  let high := (4 * significand + 2) * up
  let within := fun d : Nat =>
    if significand % 2 = 0 then low ≤ d * den ∧ d * den ≤ high
    else low < d * den ∧ d * den < high
  let d := value / den
  let below := d * den
  if within d ∧ within (d + 1) then
    let twice := 2 * (value - below)
    if twice < den then some d
    else if den < twice then some (d + 1)
    else
      match tie with
      | .up => some (d + 1)
      | .even => some (if d % 2 = 0 then d else d + 1)
  else if within d then some d
  else if within (d + 1) then some (d + 1)
  else none

/-- The shortest decimal that reads back as the magnitude of a finite number. -/
def shortest (tie : TieBreak) (x : Binary64) : DecimalLiteral :=
  let word := x.magnitude
  if word = 0 then ⟨0, 0⟩
  else
    let m := BinaryFormat.double.significand word
    let s := BinaryFormat.double.scale word
    let binadeStart := m == 0x10000000000000 && 0x20000000000000 ≤ word
    let top := ((m.log2 : Int) + s + 1) * 30103 / 100000 + 1
    let found := (List.range 22).findSome? fun i : Nat =>
      (neighbour? tie m s binadeStart (top - i)).map fun d => ⟨d, top - i⟩
    found.getD ⟨m * Nat.pow 2 s.toNat, 0⟩

/-! ### Layouts -/

/-- The digits of a decimal with the point where it belongs and no exponent. -/
def positional (d : DecimalLiteral) : List Char :=
  let digits := Text.natDigits d.digits
  if 0 ≤ d.exponent then digits ++ List.replicate d.exponent.toNat '0'
  else
    let places := (-d.exponent).toNat
    if places < digits.length then
      digits.take (digits.length - places) ++ '.' :: digits.drop (digits.length - places)
    else '0' :: '.' :: (List.replicate (places - digits.length) '0' ++ digits)

/-- The plain text: never an exponent, and no point for a whole number. -/
def plainText (x : Binary64) : String :=
  if x.isNaN then "NaN"
  else
    let sign := if x.isNegative then "-" else ""
    if x.isFinite then
      let d := x.shortest .up
      sign ++ String.ofList (if d.digits = 0 then ['0'] else positional d)
    else sign ++ "inf"

/-- The text of a finite number in JSON: positional from 10^-5 up to below 10^16 and then
always with a point, and one digit before the point and a signed exponent elsewhere. -/
def jsonText (x : Binary64) : String :=
  let sign := if x.isNegative then "-" else ""
  let d := x.shortest .even
  let digits := Text.natDigits d.digits
  let point : Int := digits.length + d.exponent
  if d.digits = 0 then sign ++ "0.0"
  else if -5 < point ∧ point ≤ 16 then
    sign ++ String.ofList (positional d) ++ (if 0 ≤ d.exponent then ".0" else "")
  else
    let mantissa :=
      match digits with
      | [] => []
      | [c] => [c]
      | c :: rest => c :: '.' :: rest
    let exponent := point - 1
    sign ++ String.ofList mantissa ++ "e" ++ (if exponent < 0 then "-" else "+")
      ++ String.ofList (Text.natDigits exponent.natAbs)

end Binary64

end SqlSession
