/-
Introspection.

The catalog of a connection is asked for what there is: catalogs, schemas, base tables, and
the columns of a table with their keys and indexes.  No catalog tells in a portable way which
table a column refers to, so the names tell it: a column `publisher_id` refers to the table
`publisher`, if there is one.  The base tables are listed when the first table is described,
and that listing serves every later description.
-/
import SqlSession.Backend
import SqlSession.Catalog.Table

namespace SqlSession.Catalog

/-! ### Failures -/

/-- A failure to learn about the catalog. -/
inductive CatalogError where
  /-- The connection refused. -/
  | database (cause : DbError)
  /-- A row does not say what it has to. -/
  | decode (column cause : String)
  deriving DecidableEq, Repr

/-- The error in words. -/
def CatalogError.message : CatalogError → String
  | .database cause => "Database error: " ++ cause.message
  | .decode column cause => "Decode error for column '" ++ column ++ "': " ++ cause

/-! ### Reading rows -/

/-- A row of an answer under the labels of its columns. -/
structure Row where
  columns : List String
  cells : List Value

namespace Row

/-- The cell under a label as text; NULL has none. -/
def text? (row : Row) (label : String) : Except CatalogError (Option String) :=
  (ResultSet.cellText row.columns row.cells label).mapError .database

/-- The cell under a label as text, which has to be there. -/
def text (row : Row) (label : String) : Except CatalogError String :=
  match row.text? label with
  | .error e => .error e
  | .ok (some s) => .ok s
  | .ok none => .error (.decode label "unexpected NULL")

/-- The cell under a label as an integer; NULL is 0. -/
def int (row : Row) (label : String) : Except CatalogError Int64 :=
  ((ResultSet.cellInt row.columns row.cells label).mapError .database).map fun n => n.getD 0

end Row

/-- The rows of an answer, read one after the other. -/
def readRows {α : Type} (read : Row → Except CatalogError α) (rs : ResultSet) :
    Except CatalogError (List α) :=
  rs.rest.mapM fun cells => read ⟨rs.columns, cells⟩

/-- The values of one column, without those that are NULL. -/
def columnValues (label : String) (rs : ResultSet) : Except CatalogError (List String) :=
  (readRows (Row.text? · label) rs).map fun values => values.filterMap id

/-- The name of the table that a row lists, if it is a base table. -/
def baseTableOf (row : Row) : Except CatalogError (Option String) :=
  match row.text? "TABLE_TYPE" with
  | .error e => .error e
  | .ok type =>
    if Text.asciiCaseEq (type.getD "") "TABLE" then (row.text "TABLE_NAME").map some else .ok none

/-- The names of the base tables that are listed. -/
def baseTableNames (rs : ResultSet) : Except CatalogError (List String) :=
  (readRows baseTableOf rs).map fun names => names.filterMap id

/-! ### Describing columns -/

/-- What the name of a column says about the table it refers to: what stands before a closing
`_id`, if that is not empty. -/
def referenceName? (column : String) : Option String :=
  match column.toList.reverse with
  | 'd' :: 'i' :: '_' :: c :: rest => some (String.ofList (c :: rest).reverse)
  | _ => none

/-- What is known of a table before its columns are read. -/
structure Surroundings where
  /-- The base tables that a column can refer to. -/
  baseTables : List String
  /-- The columns of the primary key. -/
  primaryKey : List String
  /-- The columns of all indexes. -/
  indexed : List String

/-- The column that a row of the columns' listing describes.  A column named `id` never counts
as indexed: the primary key says it already. -/
def columnOf (known : Surroundings) (row : Row) : Except CatalogError Column := do
  let name ← row.text "COLUMN_NAME"
  let code ← row.int "DATA_TYPE"
  let typeName ← row.text? "TYPE_NAME"
  if code.toInt < -0x80000000 ∨ 0x80000000 ≤ code.toInt then
    .error (.decode "DATA_TYPE" ("type code out of range: " ++ Text.intText code.toInt))
  else
    let size ← row.int "COLUMN_SIZE"
    let nullable ← row.text? "IS_NULLABLE"
    return {
      name
      type := .ofColumn ⟨code.toInt⟩ (typeName.getD "")
      size
      nullable := nullable.any (Text.asciiCaseEq · "yes")
      primaryKey := known.primaryKey.contains name
      indexed := name != "id" && known.indexed.contains name
      references := (referenceName? name).filter known.baseTables.contains }

/-! ### Asking -/

/-- A connection whose catalog is being described. -/
structure Introspector (σ : Type) where
  backend : σ
  /-- The base tables, once a description has listed them. -/
  baseTables : Option (List String) := none

namespace Introspector

variable {σ α : Type} [Backend σ]

/-- Ask the connection and read the answer. -/
def ask (request : CatalogRequest) (read : ResultSet → Except CatalogError α)
    (i : Introspector σ) : Except CatalogError α × Introspector σ :=
  match Backend.catalog request i.backend with
  | (.ok rs, backend) => (read rs, { i with backend })
  | (.error e, backend) => (.error (.database e), { i with backend })

/-- The names of the catalogs. -/
def catalogs : Introspector σ → Except CatalogError (List String) × Introspector σ :=
  ask .catalogs (columnValues "TABLE_CAT")

/-- The names of the schemas. -/
def schemas : Introspector σ → Except CatalogError (List String) × Introspector σ :=
  ask .schemas (columnValues "TABLE_SCHEM")

/-- The names of the base tables. -/
def tables (catalog schema : Option String) :
    Introspector σ → Except CatalogError (List String) × Introspector σ :=
  ask (.tables catalog schema) baseTableNames

/-- The columns of a table's primary key. -/
def primaryKey (catalog schema : Option String) (table : String) :
    Introspector σ → Except CatalogError (List String) × Introspector σ :=
  ask (.primaryKeys catalog schema table) (columnValues "COLUMN_NAME")

/-- The columns of a table's indexes, each as often as indexes hold it. -/
def indexedColumns (catalog schema : Option String) (table : String) :
    Introspector σ → Except CatalogError (List String) × Introspector σ :=
  ask (.indexInfo catalog schema table) (columnValues "COLUMN_NAME")

/-- The listing of the base tables that serves descriptions; the first one that succeeds is
kept. -/
def knownTables (catalog schema : Option String) (i : Introspector σ) :
    Except CatalogError (List String) × Introspector σ :=
  match i.baseTables with
  | some names => (.ok names, i)
  | none =>
    match tables catalog schema i with
    | (.ok names, i) => (.ok names, { i with baseTables := some names })
    | (.error e, i) => (.error e, i)

/-- What is known of a table before its columns are read. -/
def surroundings (catalog schema : Option String) (table : String) (i : Introspector σ) :
    Except CatalogError Surroundings × Introspector σ :=
  match knownTables catalog schema i with
  | (.error e, i) => (.error e, i)
  | (.ok baseTables, i) =>
    match primaryKey catalog schema table i with
    | (.error e, i) => (.error e, i)
    | (.ok primaryKey, i) =>
      match indexedColumns catalog schema table i with
      | (.error e, i) => (.error e, i)
      | (.ok indexed, i) => (.ok { baseTables, primaryKey, indexed }, i)

/-- Describe a table. -/
def describe (catalog schema : Option String) (table : String) (i : Introspector σ) :
    Except CatalogError Table × Introspector σ :=
  match surroundings catalog schema table i with
  | (.error e, i) => (.error e, i)
  | (.ok known, i) =>
    match ask (.columns catalog schema table) (readRows (columnOf known)) i with
    | (.error e, i) => (.error e, i)
    | (.ok columns, i) =>
      (.ok { catalog := catalog.getD "", schema := schema.getD "", name := table, type := "TABLE",
             columns }, i)

end Introspector

end SqlSession.Catalog
