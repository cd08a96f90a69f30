/-
Tables and their columns.

A described table is its columns in order.  Besides what it holds, a column knows the names
that generated code gives it: a variable, a type, the object behind a foreign key and a
short abbreviation of the referenced table.
-/
import SqlSession.Catalog.SemanticType
import SqlSession.Text.CamelCase

namespace SqlSession.Catalog

/-- A column of a table. -/
structure Column where
  name : String := ""
  type : SemanticType := .string
  size : Int64 := 0
  nullable : Bool := false
  primaryKey : Bool := false
  /-- The column takes part in an index. -/
  indexed : Bool := false
  /-- The table that the column refers to, as far as its name tells. -/
  references : Option String := none
  deriving DecidableEq, Repr, Inhabited

/-- A table with its columns in order. -/
structure Table where
  catalog : String := ""
  schema : String := ""
  name : String := ""
  type : String := ""
  columns : List Column := []
  deriving DecidableEq, Repr, Inhabited

namespace Table

/-- The first column of this name. -/
def column? (t : Table) (name : String) : Option Column :=
  t.columns.find? (·.name == name)

/-- The columns of the primary key, in the order of the table. -/
def primaryKey (t : Table) : List Column :=
  t.columns.filter (·.primaryKey)

end Table

/-! ### Names in code -/

/-- What stands before the last `Id` of a text, if there is one. -/
def beforeLastId? : List Char → Option (List Char)
  | [] => none
  | c :: rest =>
    match beforeLastId? rest with
    | some before => some (c :: before)
    | none => if c = 'I' ∧ rest.head? = some 'd' then some [] else none

/-- The text up to its last `Id`, unless nothing would be left. -/
def withoutId (s : String) : String :=
  match beforeLastId? s.toList with
  | some (c :: before) => String.ofList (c :: before)
  | some [] | none => s

/-- An abbreviation of a table's name: of a single word the first four characters, of several
words joined by underscores the first two of each. -/
def abbreviation (table : String) : String :=
  match table.toList.splitOn '_' with
  | [word] => String.ofList (word.take 4)
  | words => String.ofList (words.flatMap (·.take 2))

namespace Column

/-- The variable that holds the column.  The word `class` is reserved where these names are
used. -/
def variableName (c : Column) : String :=
  let name := Text.CamelCase.lower c.name
  if name = "class" then "clazz" else name

/-- The variable that holds the row a foreign key refers to. -/
def variableNameWithoutId (c : Column) : String :=
  withoutId c.variableName

/-- The type named after the column. -/
def typeName (c : Column) : String :=
  Text.CamelCase.upper c.name

/-- The type named after the referenced table. -/
def referencedTypeName? (c : Column) : Option String :=
  c.references.map Text.CamelCase.upper

/-- The abbreviation of the referenced table. -/
def referencedAbbreviation? (c : Column) : Option String :=
  c.references.map abbreviation

end Column

end SqlSession.Catalog
