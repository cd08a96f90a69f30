/-
Values and JSON.

A record holds the normal form of each value: NULL becomes `null`, dates and timestamps
become text in one canonical form, and everything else keeps its shape as far as JSON has
it.  In the other direction a JSON scalar becomes a value of its own kind, and an array or
an object stays JSON.
-/
import SqlSession.Json.Reading
import SqlSession.Value.Basic

namespace SqlSession

namespace Decimal

/-- A decimal in JSON: its digits without trailing zeros, read as a number. -/
def toJson (d : Decimal) : Json :=
  let text := d.normalize.text
  match JsonNumber.parse? text with
  | some n => .number n
  | none => .text text

end Decimal

namespace Binary64

/-- A double in JSON; one that is not finite is its text. -/
def toJson (x : Binary64) : Json :=
  match JsonNumber.ofBinary64? x with
  | some n => .number n
  | none => .text x.plainText

end Binary64

namespace Value

/-- The normal form of a value. -/
def normalize : Value → Json
  | .null => .null
  | .bool b => .bool b
  | .int n => .number (JsonNumber.ofInt64 n)
  | .float x => x.toJson
  | .decimal d => d.toJson
  | .text s | .clob s => .text s
  | .date d => .text (Timestamp.ofDate d).millisText
  | .timestamp t | .timestampTz t => .text t.millisText
  | .time t => .text (String.ofList t.millisChars)
  | .bytes b => .array (b.map fun n => .number (JsonNumber.ofInt64 (Int64.ofInt n.toNat)))
  | .json j => j

/-- The value that a JSON value is bound as.  An integer too large for a signed word
becomes a double. -/
def ofJson : Json → Value
  | .null => .null
  | .bool b => .bool b
  | .number n =>
    match n.toInt64? with
    | some i => .int i
    | none => .float n.toBinary64
  | .text s => .text s
  | j => .json j

end Value

end SqlSession
