/-
Columns on the wire.

Each type with a kind of value of its own is read as that kind.  An array becomes a JSON
array of the normal forms of its elements, a domain is read as the type it restricts, and
anything else is kept as text, or as bytes when it is no text.  Bytes that are no value of
the type are refused.
-/
import SqlSession.Value.Normal
import SqlSession.Wire.Address
import SqlSession.Wire.Interval
import SqlSession.Wire.Numeric
import SqlSession.Wire.ServerType
import SqlSession.Wire.Uuid

namespace SqlSession.Wire

/-! ### Scalars -/

def boolOf? : Bytes → Option Bool
  | [b] => some (b != 0)
  | _ => none

/-- Microseconds of the day, brought into one day. -/
def clockOf? (bytes : Bytes) : Option Clock :=
  (int? 8 bytes).bind fun micros =>
    let ofDay := (micros % 86400000000).toNat
    Clock.ofParts? (ofDay / 1000000) (ofDay % 1000000 * 1000)

/-- Days from 1 January 2000. -/
def dateOf? (bytes : Bytes) : Option Date :=
  (int? 4 bytes).bind Date.ofNumber?

/-- Microseconds from the start of 1 January 2000. -/
def timestampOf? (bytes : Bytes) : Option Timestamp := do
  let micros ← int? 8 bytes
  let ofDay := (micros % 86400000000).toNat
  let date ← Date.ofNumber? (micros / 86400000000)
  let clock ← Clock.ofParts? (ofDay / 1000000) (ofDay % 1000000 * 1000)
  return ⟨date, clock⟩

/-- JSON text; the binary type has a version in front, which has to be 1. -/
def jsonOf? (t : ServerType) (bytes : Bytes) : Option Json :=
  match t, bytes with
  | .jsonb, version :: rest =>
    if version = 1 then (Text.ofUtf8? rest).bind Json.parse? else none
  | .jsonb, [] => none
  | _, bytes => (Text.ofUtf8? bytes).bind Json.parse?

/-- A text column of a type that values are kept of as they are. -/
def otherOf (bytes : Bytes) : Value :=
  match Text.ofUtf8? bytes with
  | some s => .text s
  | none => .bytes bytes

/-- An amount of money in hundredths. -/
def moneyOf? (bytes : Bytes) : Option Decimal :=
  (int? 8 bytes).bind fun n => Decimal.ofParts? (n < 0) n.natAbs 2

/-! ### Arrays -/

/-- The lengths of the dimensions of an array, each followed by a lower bound. -/
def takeDimensions? : Nat → Bytes → Option (List Nat × Bytes)
  | 0, bytes => some ([], bytes)
  | count + 1, bytes => do
    let (length, bytes) ← takeInt? 4 bytes
    let (_, bytes) ← takeInt? 4 bytes
    if length < 0 then none
    else
      let (lengths, bytes) ← takeDimensions? count bytes
      return (length.toNat :: lengths, bytes)

/-- The elements of an array, `none` for NULL, with nothing left over. -/
def takeElements? : Nat → Bytes → Option (List (Option Bytes))
  | 0, bytes => if bytes.isEmpty then some [] else none
  | count + 1, bytes => do
    let (length, bytes) ← takeInt? 4 bytes
    if length < 0 then
      let later ← takeElements? count bytes
      return none :: later
    else if bytes.length < length.toNat then none
    else
      let later ← takeElements? count (bytes.drop length.toNat)
      return some (bytes.take length.toNat) :: later

/-- The elements of an array of at most one dimension. -/
def arrayElements? (bytes : Bytes) : Option (List (Option Bytes)) := do
  let (dimensions, bytes) ← takeInt? 4 bytes
  let (_, bytes) ← takeInt? 4 bytes
  let (_, bytes) ← takeNat? 4 bytes
  if dimensions < 0 ∨ bytes.length < 8 * dimensions.toNat then none
  else
    let (lengths, bytes) ← takeDimensions? dimensions.toNat bytes
    match lengths with
    | [] => takeElements? 0 bytes
    | [length] => takeElements? length bytes
    | _ => none

/-! ### Columns -/

/-- The value of a column that is not NULL. -/
def decode? : ServerType → Bytes → Option Value
  | .bool, b => (boolOf? b).map .bool
  | .char, b => (int? 1 b).map fun n => .int (Int64.ofInt n)
  | .int2, b => (int? 2 b).map fun n => .int (Int64.ofInt n)
  | .int4, b => (int? 4 b).map fun n => .int (Int64.ofInt n)
  | .int8, b => (int? 8 b).map fun n => .int (Int64.ofInt n)
  | .oid, b => (nat? 4 b).map fun n => .int (Int64.ofInt n)
  | .float4, b => (nat? 4 b).map fun n => Value.ofSingle (UInt32.ofNat n)
  | .float8, b => (nat? 8 b).map fun n => .float ⟨UInt64.ofNat n⟩
  | .numeric, b => (numeric? b).map .decimal
  | .money, b => (moneyOf? b).map .decimal
  | .text, b | .varchar, b | .bpchar, b | .name, b | .unknown, b => (Text.ofUtf8? b).map .text
  | .date, b => (dateOf? b).map .date
  | .time, b => (clockOf? b).map .time
  | .timestamp, b => (timestampOf? b).map .timestamp
  | .timestamptz, b => (timestampOf? b).map .timestampTz
  | .interval, b => (Interval.ofBytes? b).map fun i => .text i.text
  | .inet, b | .cidr, b => (addressText? b).map .text
  | .bytea, b => some (.bytes b)
  | .json, b => (jsonOf? .json b).map .json
  | .jsonb, b => (jsonOf? .jsonb b).map .json
  | .uuid, b => if b.length = 16 then some (.text (uuidText b)) else none
  | .array element, b =>
    (arrayElements? b).bind fun elements =>
      (elements.mapM fun cell =>
        match cell with
        | none => some Json.null
        | some b => (decode? element b).map Value.normalize).map fun js => .json (.array js)
  | .domain base, b => decode? base b
  | .other _, b => some (otherOf b)

/-- The value of a column, NULL or not. -/
def decodeCell? (t : ServerType) : Option Bytes → Option Value
  | none => some .null
  | some bytes => decode? t bytes

end SqlSession.Wire
