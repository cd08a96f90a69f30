/-
Types of the server.

The types that values are written to and read from in a form of their own.  An array knows
its element type and a domain the type it restricts; every other type is known by name
only.
-/

namespace SqlSession.Wire

/-- A type of the server. -/
inductive ServerType where
  | bool
  | char
  | int2
  | int4
  | int8
  | oid
  | float4
  | float8
  | numeric
  | money
  | text
  | varchar
  | bpchar
  | name
  | unknown
  | date
  | time
  | timestamp
  | timestamptz
  | interval
  | inet
  | cidr
  | bytea
  | json
  | jsonb
  | uuid
  | array (element : ServerType)
  | domain (base : ServerType)
  | other (typeName : String)
  deriving DecidableEq, Repr, Inhabited

namespace ServerType

/-- The types with a form of their own, by name. -/
def scalars : List (String × ServerType) :=
  [("bool", .bool), ("char", .char), ("int2", .int2), ("int4", .int4), ("int8", .int8),
   ("oid", .oid), ("float4", .float4), ("float8", .float8), ("numeric", .numeric),
   ("money", .money), ("text", .text), ("varchar", .varchar), ("bpchar", .bpchar),
   ("name", .name), ("unknown", .unknown), ("date", .date), ("time", .time),
   ("timestamp", .timestamp), ("timestamptz", .timestamptz), ("interval", .interval),
   ("inet", .inet), ("cidr", .cidr), ("bytea", .bytea), ("json", .json), ("jsonb", .jsonb),
   ("uuid", .uuid)]

/-- The built-in type that is no array of this name. -/
def ofScalarName (typeName : String) : ServerType :=
  (scalars.lookup typeName).getD (.other typeName)

/-- The built-in type of this name: an underscore in front makes it an array, and two
types are arrays without one. -/
def ofName (typeName : String) : ServerType :=
  if typeName = "int2vector" then .array .int2
  else if typeName = "oidvector" then .array .oid
  else
    match typeName.toList with
    | '_' :: element => .array (ofScalarName (String.ofList element))
    | _ => ofScalarName typeName

/-- Types whose values are read as text. -/
def isText : ServerType → Bool
  | .text | .varchar | .bpchar | .name | .unknown => true
  | _ => false

end ServerType

end SqlSession.Wire
