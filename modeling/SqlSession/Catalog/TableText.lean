/-
Tables as JSON text.

A table is an object with a member for each of its parts, and so is a column; the referenced
table is left out where there is none.  When a table is read, parts that are not there keep
their defaults.  A semantic type is its name, or an object with the name as its only member
and nothing in it.
-/
import SqlSession.Catalog.Table
import SqlSession.Json.Fields
import SqlSession.Json.Printing

namespace SqlSession.Catalog

open Json (Document)

/-! ### Writing -/

namespace Column

def toJson (c : Column) : Json :=
  .object <|
    [("columnName", .text c.name), ("columnType", .text c.type.name),
      ("columnSize", .number (JsonNumber.ofInt64 c.size)), ("nullable", .bool c.nullable),
      ("primaryKey", .bool c.primaryKey), ("indexed", .bool c.indexed)]
    ++ (c.references.map fun table => ("fkTableName", Json.text table)).toList

/-- The column as JSON text. -/
def text (c : Column) : String :=
  c.toJson.compact

end Column

namespace Table

def toJson (t : Table) : Json :=
  .object [("catalog", .text t.catalog), ("schema", .text t.schema), ("tableName", .text t.name),
    ("tableType", .text t.type), ("columns", .array (t.columns.map Column.toJson))]

/-- The table as JSON text without blanks. -/
def text (t : Table) : String :=
  t.toJson.compact

/-- The table as JSON text with a line for each member. -/
def indentedText (t : Table) : String :=
  t.toJson.indented

end Table

/-! ### Reading -/

namespace SemanticType

def ofDocument? : Document → Option SemanticType
  | .text pieces => (Json.textOfPieces? pieces).bind ofName?
  | .object [(key, .null)] => (Json.textOfPieces? key).bind ofName?
  | _ => none

end SemanticType

namespace Column

/-- The members of a column, in order. -/
def memberNames : List String :=
  ["columnName", "columnType", "columnSize", "nullable", "primaryKey", "indexed", "fkTableName"]

def ofDocument? (d : Document) : Option Column := do
  let fields ← d.fields? memberNames
  return {
    name := ← Document.read? Document.textOf? fields "columnName" ""
    type := ← Document.read? SemanticType.ofDocument? fields "columnType" .string
    size := ← Document.read? Document.int64Of? fields "columnSize" 0
    nullable := ← Document.read? Document.boolOf? fields "nullable" false
    primaryKey := ← Document.read? Document.boolOf? fields "primaryKey" false
    indexed := ← Document.read? Document.boolOf? fields "indexed" false
    references := ← Document.read? (Document.optionOf? Document.textOf?) fields "fkTableName" none }

end Column

namespace Table

/-- The members of a table, in order. -/
def memberNames : List String :=
  ["catalog", "schema", "tableName", "tableType", "columns"]

def ofDocument? (d : Document) : Option Table := do
  let fields ← d.fields? memberNames
  return {
    catalog := ← Document.read? Document.textOf? fields "catalog" ""
    schema := ← Document.read? Document.textOf? fields "schema" ""
    name := ← Document.read? Document.textOf? fields "tableName" ""
    type := ← Document.read? Document.textOf? fields "tableType" ""
    columns := ← Document.read? (Document.listOf? Column.ofDocument?) fields "columns" [] }

/-- The table of a JSON text. -/
def parse? (s : String) : Option Table :=
  (Document.parse? s).bind ofDocument?

end Table

end SqlSession.Catalog
