/-
Values.

What travels between a session and a database in both directions: parameters are bound as
values, and columns are read as values.  The views of a value answer in one kind what it
denotes, or nothing where it denotes nothing of that kind.
-/
import SqlSession.Calendar.Reading
import SqlSession.Json.Printing
import SqlSession.Number.Decimal.Binary
import SqlSession.Number.Decimal.Reading
import SqlSession.Text.Utf8

namespace SqlSession

/-- A value of SQL, NULL included. -/
inductive Value where
  | null
  | bool (b : Bool)
  | int (n : Int64)
  | float (x : Binary64)
  | decimal (d : Decimal)
  | text (s : String)
  /-- Large text. -/
  | clob (s : String)
  | date (d : Date)
  | time (t : Clock)
  | timestamp (t : Timestamp)
  /-- A point in time, in UTC. -/
  | timestampTz (t : Timestamp)
  | bytes (b : List UInt8)
  | json (j : Json)
  deriving DecidableEq, Repr, Inhabited

namespace Value

def isNull : Value → Bool
  | .null => true
  | _ => false

/-- The characters of a text, large or not. -/
def asString? : Value → Option String
  | .text s | .clob s => some s
  | _ => none

/-- The value as an integer: numbers are cut toward zero, doubles also brought into range,
and texts have to be integers. -/
def asInt? : Value → Option Int64
  | .int n => some n
  | .bool b => some (if b then 1 else 0)
  | .float x => some x.toInt64
  | .decimal d => d.toInt64?
  | .text s | .clob s => (Text.readInt64 (Text.trimmed s)).toOption
  | _ => none

/-- The value as a double. -/
def asFloat? : Value → Option Binary64
  | .int n => some (Binary64.ofInt n.toInt)
  | .float x => some x
  | .decimal d => some d.toBinary64
  | .text s | .clob s => Binary64.parse? (Text.trimmed s)
  | _ => none

/-- The truth value that a word stands for. -/
def truthOfWord? (word : String) : Option Bool :=
  if word ∈ ["t", "true", "1", "y", "yes"] then some true
  else if word ∈ ["f", "false", "0", "n", "no"] then some false
  else none

/-- The value as a truth value; large text has none. -/
def asBool? : Value → Option Bool
  | .bool b => some b
  | .int n => some (n != 0)
  | .text s => truthOfWord? (String.ofList (Text.asciiLower (Text.trim s.toList)))
  | _ => none

/-- The value as a date; large text has none. -/
def asDate? : Value → Option Date
  | .date d => some d
  | .timestamp t | .timestampTz t => some t.date
  | .text s =>
    match Timestamp.parse? s with
    | some t => some t.date
    | none => Date.parse? (Text.trim s.toList)
  | _ => none

/-- The value for people to read. -/
def display : Value → String
  | .null => "NULL"
  | .bool b => if b then "true" else "false"
  | .int n => Text.intText n.toInt
  | .float x => x.plainText
  | .decimal d => d.text
  | .text s | .clob s => s
  | .date d => d.text
  | .time t => t.text
  | .timestamp t => t.text
  | .timestampTz t => t.text ++ " UTC"
  | .bytes b => "<" ++ Text.intText b.length ++ " bytes>"
  | .json j => j.compact

/-- The value as text; bytes are taken for UTF-8, and NULL has no text. -/
def toText? : Value → Option String
  | .null => none
  | .bytes b => some (Text.ofUtf8Lossy b)
  | v => some v.display

/-! ### Values of the types of a program -/

/-- A 32-bit number is widened without loss. -/
def ofSingle (bits : UInt32) : Value :=
  .float (Binary64.ofSingle bits)

/-- Nothing is NULL. -/
def ofOption : Option Value → Value
  | none => .null
  | some v => v

end Value

end SqlSession
