/-
Semantic types.

A semantic type is the coarse kind of value that a column holds.  It follows from the type
code that the driver reports; where the code says nothing, a few common type names do, and
whatever is left is taken for text.
-/
import SqlSession.Text.Blank
import SqlSession.Text.Case
import SqlSession.Value.TypeCode

namespace SqlSession.Catalog

/-- The kind of value that a column holds. -/
inductive SemanticType where
  | string
  | integer
  | long
  | bigDecimal
  | boolean
  | date
  | list
  | object
  deriving DecidableEq, Repr, Inhabited

namespace SemanticType

/-- Every semantic type. -/
def all : List SemanticType :=
  [string, integer, long, bigDecimal, boolean, date, list, object]

def name : SemanticType → String
  | string => "String"
  | integer => "Integer"
  | long => "Long"
  | bigDecimal => "BigDecimal"
  | boolean => "Boolean"
  | date => "Date"
  | list => "List"
  | object => "Object"

/-- The semantic type of a name, which is matched exactly. -/
def ofName? (s : String) : Option SemanticType :=
  all.find? (·.name == s)

/-- The type that a value has in JSON.  Dates travel as text, and so do the types that have
no counterpart. -/
def jsonType : SemanticType → String
  | integer => "Int"
  | bigDecimal => "Double"
  | long => "Long"
  | boolean => "Boolean"
  | string | date | list | object => "String"

/-- What a type code says. -/
def ofCode? (c : TypeCode) : Option SemanticType :=
  if c = .bigInt then some long
  else if c ∈ [.integer, .smallInt, .tinyInt] then some integer
  else if c ∈ [.decimal, .double, .float, .numeric, .real] then some bigDecimal
  else if c ∈ [.char, .varchar, .longNvarchar, .longVarchar, .nchar, .clob] then some string
  else if c ∈ [.binary, .bit, .varbinary] then some boolean
  else if c ∈ [.date, .time, .timestamp, .timeWithTimeZone, .timestampWithTimeZone] then some date
  else if c = .array then some list
  else if c = .object then some object
  else none

/-- The type names that say something by themselves. -/
def knownNames : List (String × SemanticType) :=
  [("int", integer), ("date", date), ("varchar", string), ("bit", boolean), ("enum", string)]

/-- What a type name says, whatever the case of its letters and the blanks around it. -/
def ofTypeName? (typeName : String) : Option SemanticType :=
  (knownNames.find? fun known => Text.asciiCaseEq known.1 (Text.trimmed typeName)).map Prod.snd

/-- The semantic type of a column: the code decides before the name does. -/
def ofColumn (c : TypeCode) (typeName : String) : SemanticType :=
  ((ofCode? c).or (ofTypeName? typeName)).getD string

end SemanticType

end SqlSession.Catalog
