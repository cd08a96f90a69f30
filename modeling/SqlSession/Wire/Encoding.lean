/-
Parameters on the wire.

The server names a type for each parameter, and a value is written in that type where it
denotes something of it: numbers become numbers of the wanted width, text is read as a
number, a date or an identifier, and dates and timestamps stand in for each other.  For a
type that a kind of value has no special form for, the value's own form is written.
-/
import SqlSession.Value.Normal
import SqlSession.Wire.Numeric
import SqlSession.Wire.ServerType
import SqlSession.Wire.Uuid

namespace SqlSession.Wire

/-- Why a value cannot be written in a type. -/
inductive EncodeError where
  /-- The value denotes nothing of the wanted kind. -/
  | unrepresentable (shown kind : String)
  /-- The number does not fit, or the text cannot be read as what is wanted. -/
  | malformed
  deriving DecidableEq, Repr

/-- The wording of the error, where it has one of its own. -/
def EncodeError.message? : EncodeError → Option String
  | .unrepresentable shown kind => some ("cannot represent " ++ shown ++ " as " ++ kind)
  | .malformed => none

/-- The bytes of a value, or `none` for NULL. -/
abbrev Encoded := Except EncodeError (Option Bytes)

private def sent (bytes : Bytes) : Encoded :=
  .ok (some bytes)

/-! ### Forms -/

def floatBytes (x : Binary64) : Bytes :=
  bigEndian 8 x.bits.toNat

def singleBytes (x : Binary64) : Bytes :=
  bigEndian 4 x.toSingle.toNat

/-- Text as it is; the types of label trees put a version in front. -/
def textBytes (t : ServerType) (s : String) : Bytes :=
  match t with
  | .other "ltree" | .other "lquery" | .other "ltxtquery" => 1 :: Text.utf8Bytes s
  | _ => Text.utf8Bytes s

/-- Days from 1 January 2000. -/
def dateBytes (d : Date) : Bytes :=
  signedBytes 4 d.number

/-- Microseconds from midnight; what is finer is cut off. -/
def clockBytes (t : Clock) : Bytes :=
  signedBytes 8 (t.second * 1000000 + t.nanos / 1000 : Nat)

/-- Microseconds from the start of 1 January 2000; what is finer is cut toward zero. -/
def timestampBytes (t : Timestamp) : Bytes :=
  let nanos : Int := (t.date.number * 86400 + t.clock.second) * 1000000000 + t.clock.nanos
  signedBytes 8 (nanos.tdiv 1000)

/-- JSON as text, with a version in front of the binary type. -/
def jsonBytes (t : ServerType) (j : Json) : Bytes :=
  match t with
  | .jsonb => 1 :: Text.utf8Bytes j.compact
  | _ => Text.utf8Bytes j.compact

/-! ### Coercions -/

/-- An integer of `width` bytes, if it has room. -/
def fixedInt (width : Nat) (n : Int64) : Encoded :=
  let limit : Int := Nat.pow 2 (8 * width - 1)
  if -limit ≤ n.toInt ∧ n.toInt < limit then sent (signedBytes width n.toInt) else .error .malformed

/-- An integer in a type. -/
def encodeInt (t : ServerType) (n : Int64) : Encoded :=
  match t with
  | .int2 => fixedInt 2 n
  | .int4 => fixedInt 4 n
  | .float4 => sent (bigEndian 4 (BinaryFormat.single.nearest n.toInt.natAbs 1
      + if n < 0 then 0x80000000 else 0))
  | .float8 => sent (floatBytes (Binary64.ofInt n.toInt))
  | .numeric => sent (numericBytes (Decimal.ofInt64 n))
  | .bool => sent [if n = 0 then 0 else 1]
  | .text | .varchar | .bpchar | .name => sent (textBytes t (Text.intText n.toInt))
  | _ => sent (signedBytes 8 n.toInt)

/-- A double in a type. -/
def encodeFloat (t : ServerType) (x : Binary64) : Encoded :=
  match t with
  | .float4 => sent (singleBytes x)
  | .numeric =>
    match Decimal.ofBinary64? x with
    | some d => sent (numericBytes d)
    | none => .error (.unrepresentable x.plainText "numeric")
  | .int2 | .int4 | .int8 => encodeInt t x.toInt64
  | _ => sent (floatBytes x)

/-- A decimal in a type. -/
def encodeDecimal (t : ServerType) (d : Decimal) : Encoded :=
  match t with
  | .float4 | .float8 => sent (floatBytes d.toBinary64)
  | .int2 | .int4 | .int8 =>
    match d.toInt64? with
    | some n => encodeInt t n
    | none => .error (.unrepresentable d.text "integer")
  | _ => sent (numericBytes d)

private def sentIf (bytes : Option Bytes) : Encoded :=
  match bytes with
  | some bytes => sent bytes
  | none => .error .malformed

/-- A text in a type. -/
def encodeText (t : ServerType) (s : String) : Encoded :=
  match t with
  | .int2 | .int4 | .int8 =>
    match Text.readInt64 (Text.trimmed s) with
    | .ok n => encodeInt t n
    | .error _ => .error .malformed
  | .float4 | .float8 => sentIf ((Binary64.parse? (Text.trimmed s)).map floatBytes)
  | .numeric => sentIf ((Decimal.parse? (Text.trimmed s)).map numericBytes)
  | .bool =>
    match (Value.text s).asBool? with
    | some b => sent [if b then 1 else 0]
    | none => .error (.unrepresentable ("'" ++ s ++ "'") "boolean")
  | .uuid => sentIf (uuidBytes? (Text.trimmed s))
  | .json | .jsonb => sentIf ((Json.parse? s).map (jsonBytes t))
  | .date => sentIf ((Date.parse? (Text.trim s.toList)).map dateBytes)
  | .timestamp | .timestamptz => sentIf ((Timestamp.parse? s).map timestampBytes)
  | _ => sent (textBytes t s)

/-- A value in a type. -/
def encode (t : ServerType) : Value → Encoded
  | .null => .ok none
  | .bool b =>
    match t with
    | .bool => sent [if b then 1 else 0]
    | _ => encodeInt t (if b then 1 else 0)
  | .int n => encodeInt t n
  | .float x => encodeFloat t x
  | .decimal d => encodeDecimal t d
  | .text s | .clob s => encodeText t s
  | .date d =>
    match t with
    | .timestamp | .timestamptz => sent (timestampBytes (.ofDate d))
    | _ => sent (dateBytes d)
  | .time c => sent (clockBytes c)
  | .timestamp s | .timestampTz s =>
    match t with
    | .date => sent (dateBytes s.date)
    | _ => sent (timestampBytes s)
  | .bytes b => sent b
  | .json j =>
    match t with
    | .json | .jsonb => sent (jsonBytes t j)
    | _ => sent (textBytes t j.compact)

end SqlSession.Wire
