/-
Converting a value to the kind that a type code describes.

This is how an out parameter reads back under the code it was registered with.  NULL, and
a value that does not convert, stay as they are, and so does every value under a code that
describes no kind.
-/
import SqlSession.Value.Basic
import SqlSession.Value.TypeCode

namespace SqlSession.Value

/-- The time of day that a value denotes. -/
def asClock? : Value → Option Clock
  | .timestamp t => some t.clock
  | .text s => Clock.parse? (Text.trim s.toList)
  | _ => none

/-- The timestamp that a value of another kind denotes. -/
def asTimestamp? : Value → Option Timestamp
  | .date d => some (.ofDate d)
  | .timestampTz t => some t
  | .text s => Timestamp.parse? s
  | _ => none

/-- The decimal that a value of another kind denotes, by way of a double. -/
def asDecimal? : Value → Option Decimal
  | .decimal _ => none
  | v => v.asFloat?.bind Decimal.ofBinary64?

/-- The value in the wanted kind, if it converts. -/
def ofKind? (kind : ValueKind) (v : Value) : Option Value :=
  match kind with
  | .bool => v.asBool?.map .bool
  | .int => v.asInt?.map .int
  | .float => v.asFloat?.map .float
  | .decimal => v.asDecimal?.map .decimal
  | .text => v.toText?.map .text
  | .clob => v.toText?.map .clob
  | .date => v.asDate?.map .date
  | .time => v.asClock?.map .time
  | .timestamp => v.asTimestamp?.map .timestamp

/-- The value under a type code. -/
def convertTo (code : TypeCode) (v : Value) : Value :=
  if v.isNull then v
  else
    match code.kind? with
    | none => v
    | some kind => (ofKind? kind v).getD v

end SqlSession.Value
