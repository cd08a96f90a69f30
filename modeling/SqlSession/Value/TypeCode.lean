/-
Type codes.

The numbers by which drivers name the types of columns and of out parameters.  Most codes
describe one kind of value; the others describe none that a value could be converted to.
-/

namespace SqlSession

/-- A driver's type code. -/
structure TypeCode where
  code : Int
  deriving DecidableEq, Repr, Inhabited

/-- A kind of value that a conversion can aim at. -/
inductive ValueKind where
  | bool
  | int
  | float
  | decimal
  | text
  | clob
  | date
  | time
  | timestamp
  deriving DecidableEq, Repr

namespace TypeCode

def bit : TypeCode := ⟨-7⟩
def tinyInt : TypeCode := ⟨-6⟩
def smallInt : TypeCode := ⟨5⟩
def integer : TypeCode := ⟨4⟩
def bigInt : TypeCode := ⟨-5⟩
def float : TypeCode := ⟨6⟩
def real : TypeCode := ⟨7⟩
def double : TypeCode := ⟨8⟩
def numeric : TypeCode := ⟨2⟩
def decimal : TypeCode := ⟨3⟩
def char : TypeCode := ⟨1⟩
def varchar : TypeCode := ⟨12⟩
def longVarchar : TypeCode := ⟨-1⟩
def date : TypeCode := ⟨91⟩
def time : TypeCode := ⟨92⟩
def timestamp : TypeCode := ⟨93⟩
def binary : TypeCode := ⟨-2⟩
def varbinary : TypeCode := ⟨-3⟩
def other : TypeCode := ⟨1111⟩
def object : TypeCode := ⟨2000⟩
def array : TypeCode := ⟨2003⟩
def clob : TypeCode := ⟨2005⟩
def boolean : TypeCode := ⟨16⟩
def nchar : TypeCode := ⟨-15⟩
def nvarchar : TypeCode := ⟨-9⟩
def longNvarchar : TypeCode := ⟨-16⟩
def nclob : TypeCode := ⟨2011⟩
def timeWithTimeZone : TypeCode := ⟨2013⟩
def timestampWithTimeZone : TypeCode := ⟨2014⟩

/-- The kind of value that a code describes. -/
def kind? (c : TypeCode) : Option ValueKind :=
  if c ∈ [bit, boolean] then some .bool
  else if c ∈ [tinyInt, smallInt, integer, bigInt] then some .int
  else if c ∈ [float, real, double] then some .float
  else if c ∈ [numeric, decimal] then some .decimal
  else if c ∈ [char, varchar, nchar, nvarchar] then some .text
  else if c ∈ [clob, nclob, longVarchar, longNvarchar] then some .clob
  else if c = date then some .date
  else if c = time then some .time
  else if c = timestamp then some .timestamp
  else none

end TypeCode

/-- The declared type of an out parameter. -/
inductive OutType where
  | boolean
  | clob
  | date
  | decimal
  | integer
  | long
  | bit
  | char
  | float
  | time
  | timestamp
  | varchar
  deriving DecidableEq, Repr

/-- The code an out parameter is registered with. -/
def OutType.typeCode : OutType → TypeCode
  | .boolean => .boolean
  | .clob => .clob
  | .date => .date
  | .decimal => .double
  | .integer => .integer
  | .long => .bigInt
  | .bit => .bit
  | .char => .char
  | .float => .float
  | .time => .time
  | .timestamp => .timestamp
  | .varchar => .varchar

end SqlSession
