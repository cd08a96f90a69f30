/-
The catalog of the server.

Each question is one query over the server's own tables.  The answers are read by the names
of their columns and given the conventional labels; sizes and type codes follow from the
name of a column's type and its modifier.
-/
import SqlSession.Backend
import SqlSession.Postgres.Statement

namespace SqlSession.Postgres

/-! ### Reading rows by name -/

/-- The column under a name, with its index and its cell. -/
def cellAt (columns : List Column) (row : Cells) (name : String) :
    Except DbError (Nat × Wire.ServerType × Option Wire.Bytes) :=
  match ResultSet.indexOf? (columns.map Column.name) name with
  | none => .error (.decode name ("invalid column \x60" ++ name ++ "\x60"))
  | some i =>
    match columns[i]?, row[i]? with
    | some column, some cell => .ok (i, column.type, cell)
    | _, _ => .error (.decode name ("invalid column \x60" ++ name ++ "\x60"))

/-- The cell under a name, which has to have one of the accepted types and a value. -/
def readAt {α : Type} (accepts : Wire.ServerType → Bool) (read : Wire.Bytes → Option α)
    (columns : List Column) (row : Cells) (name : String) : Except DbError α :=
  match cellAt columns row name with
  | .error e => .error e
  | .ok (i, type, cell) =>
    match (if accepts type then cell.bind read else none) with
    | some a => .ok a
    | none => .error (.decode name ("error deserializing column " ++ Text.intText i))

/-- Types that a text may be read from or written to. -/
def isTextual : Wire.ServerType → Bool
  | .other typeName => typeName ∈ ["citext", "ltree", "lquery", "ltxtquery"]
  | t => t.isText

/-- A row of an answer. -/
structure Row where
  columns : List Column
  cells : Cells

namespace Row

def text (row : Row) (name : String) : Except DbError Value :=
  (readAt isTextual Text.ofUtf8? row.columns row.cells name).map .text

def int (type : Wire.ServerType) (width : Nat) (row : Row) (name : String) : Except DbError Int :=
  readAt (· == type) (Wire.int? width) row.columns row.cells name

def bool (row : Row) (name : String) : Except DbError Bool :=
  readAt (· == .bool) Wire.boolOf? row.columns row.cells name

def bigInt (row : Row) (name : String) : Except DbError Value :=
  (row.int .int8 8 name).map fun n => .int (Int64.ofInt n)

end Row

/-! ### Types of columns -/

/-- The type code of a type of the server. -/
def typeCodeOf (typeName : String) : TypeCode :=
  if typeName.startsWith "_" then .array
  else if typeName = "int8" then .bigInt
  else if typeName = "int4" ∨ typeName = "oid" then .integer
  else if typeName = "int2" then .smallInt
  else if typeName = "numeric" then .numeric
  else if typeName = "float4" then .real
  else if typeName = "float8" then .double
  else if typeName = "bpchar" ∨ typeName = "char" then .char
  else if typeName ∈ ["varchar", "text", "name", "citext"] then .varchar
  else if typeName = "bool" ∨ typeName = "bit" then .bit
  else if typeName = "bytea" then .binary
  else if typeName = "date" then .date
  else if typeName = "time" then .time
  else if typeName = "timetz" then .timeWithTimeZone
  else if typeName = "timestamp" then .timestamp
  else if typeName = "timestamptz" then .timestampWithTimeZone
  else .other

/-- The size of a column of a type with a modifier. -/
def columnSize? (typeName : String) (modifier : Int) : Option Int64 :=
  if typeName = "int2" then some 5
  else if typeName = "int4" ∨ typeName = "oid" then some 10
  else if typeName = "int8" then some 19
  else if typeName = "float4" then some 8
  else if typeName = "float8" then some 17
  else if typeName = "bool" then some 1
  else if typeName = "date" then some 13
  else if typeName = "time" then some 15
  else if typeName = "timestamp" ∨ typeName = "timestamptz" then some 29
  else if typeName = "uuid" then some 36
  else if typeName = "varchar" ∨ typeName = "bpchar" then
    some (if 4 < modifier then Int64.ofInt (modifier - 4) else 2147483647)
  else if typeName = "numeric" then
    some (if 4 < modifier then Int64.ofInt ((modifier - 4) / 65536 % 65536) else 1000)
  else if typeName ∈ ["text", "bytea", "json", "jsonb"] then some 2147483647
  else none

/-! ### Questions -/

/-- A query with its arguments, the labels of its answer and how a row is read. -/
structure CatalogQuery where
  sql : String
  args : List (Option String)
  labels : List String
  read : Row → Except DbError (List Value)

/-- No name and the empty name both mean any. -/
def nameFilter (name : Option String) : Option String :=
  name.filter fun n => !n.isEmpty

/-- Columns of text under their names. -/
def readTexts (names : List String) (row : Row) : Except DbError (List Value) :=
  names.mapM row.text

def readColumn (row : Row) : Except DbError (List Value) := do
  let typeName ← readAt isTextual Text.ofUtf8? row.columns row.cells "type_name"
  let modifier ← row.int .int4 4 "typmod"
  let notNull ← row.bool "not_null"
  let ordinal ← row.int .int2 2 "ordinal"
  let names ← readTexts ["table_cat", "table_schem", "table_name", "column_name"] row
  return names ++
    [.int (Int64.ofInt (typeCodeOf typeName).code), .text typeName,
     Value.ofOption ((columnSize? typeName modifier).map .int),
     .text (if notNull then "NO" else "YES"), .int (Int64.ofInt ordinal)]

def readPrimaryKey (row : Row) : Except DbError (List Value) := do
  return [← row.text "column_name", ← row.bigInt "key_seq"]

def readIndex (row : Row) : Except DbError (List Value) := do
  return [← row.text "index_name", .bool (← row.bool "non_unique"), ← row.text "column_name",
    ← row.bigInt "ordinal"]

/-- The rows of the server's tables that one database and one schema admit. -/
def scopeCondition : String :=
  "($1::text IS NULL OR current_database() = $1) AND ($2::text IS NULL OR n.nspname = $2)"

/-- The query for a question. -/
def catalogQuery : CatalogRequest → CatalogQuery
  | .catalogs =>
    { sql := "SELECT datname::text AS datname FROM pg_catalog.pg_database " ++
        "WHERE NOT datistemplate ORDER BY datname"
      args := []
      labels := ["TABLE_CAT"]
      read := readTexts ["datname"] }
  | .schemas =>
    { sql := "SELECT nspname::text AS nspname, current_database()::text AS catalog " ++
        "FROM pg_catalog.pg_namespace ORDER BY nspname"
      args := []
      labels := ["TABLE_SCHEM", "TABLE_CATALOG"]
      read := readTexts ["nspname", "catalog"] }
  | .tables catalog schema =>
    { sql := "SELECT current_database()::text AS table_cat, n.nspname::text AS table_schem, " ++
        "c.relname::text AS table_name, " ++
        "CASE WHEN n.nspname IN ('pg_catalog', 'information_schema') " ++
        "OR n.nspname LIKE 'pg_toast%' THEN 'SYSTEM TABLE' " ++
        "WHEN c.relkind IN ('r', 'p') THEN 'TABLE' " ++
        "WHEN c.relkind = 'v' THEN 'VIEW' WHEN c.relkind = 'm' THEN 'MATERIALIZED VIEW' " ++
        "WHEN c.relkind = 'f' THEN 'FOREIGN TABLE' ELSE 'OTHER' END AS table_type " ++
        "FROM pg_catalog.pg_class c JOIN pg_catalog.pg_namespace n ON n.oid = c.relnamespace " ++
        "WHERE c.relkind IN ('r', 'p', 'v', 'm', 'f') AND " ++ scopeCondition ++
        " ORDER BY table_type, table_schem, table_name"
      args := [nameFilter catalog, nameFilter schema]
      labels := ["TABLE_CAT", "TABLE_SCHEM", "TABLE_NAME", "TABLE_TYPE"]
      read := readTexts ["table_cat", "table_schem", "table_name", "table_type"] }
  | .columns catalog schema table =>
    { sql := "SELECT current_database()::text AS table_cat, n.nspname::text AS table_schem, " ++
        "c.relname::text AS table_name, a.attname::text AS column_name, " ++
        "t.typname::text AS type_name, " ++
        "a.atttypmod AS typmod, a.attnotnull AS not_null, a.attnum AS ordinal " ++
        "FROM pg_catalog.pg_attribute a JOIN pg_catalog.pg_class c ON c.oid = a.attrelid " ++
        "JOIN pg_catalog.pg_namespace n ON n.oid = c.relnamespace " ++
        "JOIN pg_catalog.pg_type t ON t.oid = a.atttypid " ++
        "WHERE c.relname = $3 AND " ++ scopeCondition ++
        " AND a.attnum > 0 AND NOT a.attisdropped ORDER BY n.nspname, a.attnum"
      args := [nameFilter catalog, nameFilter schema, some table]
      labels := ["TABLE_CAT", "TABLE_SCHEM", "TABLE_NAME", "COLUMN_NAME", "DATA_TYPE", "TYPE_NAME",
        "COLUMN_SIZE", "IS_NULLABLE", "ORDINAL_POSITION"]
      read := readColumn }
  | .primaryKeys catalog schema table =>
    { sql := "SELECT a.attname::text AS column_name, k.ord AS key_seq " ++
        "FROM pg_catalog.pg_index i " ++
        "JOIN pg_catalog.pg_class c ON c.oid = i.indrelid " ++
        "JOIN pg_catalog.pg_namespace n ON n.oid = c.relnamespace " ++
        "CROSS JOIN LATERAL unnest(i.indkey::int2[]) WITH ORDINALITY AS k(attnum, ord) " ++
        "JOIN pg_catalog.pg_attribute a ON a.attrelid = c.oid AND a.attnum = k.attnum " ++
        "WHERE i.indisprimary AND c.relname = $3 AND " ++ scopeCondition ++ " ORDER BY k.ord"
      args := [nameFilter catalog, nameFilter schema, some table]
      labels := ["COLUMN_NAME", "KEY_SEQ"]
      read := readPrimaryKey }
  | .indexInfo catalog schema table =>
    { sql := "SELECT ic.relname::text AS index_name, NOT i.indisunique AS non_unique, " ++
        "a.attname::text AS column_name, k.ord AS ordinal FROM pg_catalog.pg_index i " ++
        "JOIN pg_catalog.pg_class c ON c.oid = i.indrelid " ++
        "JOIN pg_catalog.pg_class ic ON ic.oid = i.indexrelid " ++
        "JOIN pg_catalog.pg_namespace n ON n.oid = c.relnamespace " ++
        "CROSS JOIN LATERAL unnest(i.indkey::int2[]) WITH ORDINALITY AS k(attnum, ord) " ++
        "JOIN pg_catalog.pg_attribute a ON a.attrelid = c.oid AND a.attnum = k.attnum " ++
        "WHERE c.relname = $3 AND " ++ scopeCondition ++ " ORDER BY non_unique, index_name, k.ord"
      args := [nameFilter catalog, nameFilter schema, some table]
      labels := ["INDEX_NAME", "NON_UNIQUE", "COLUMN_NAME", "ORDINAL_POSITION"]
      read := readIndex }

/-! ### Asking -/

/-- The arguments of a query as they are sent, in types that take text; `index` of them
have been written. -/
def encodeNames (index : Nat) : List (Wire.ServerType × Option String) → Except Failure Cells
  | [] => .ok []
  | (t, name) :: rest =>
    if isTextual t then
      (encodeNames (index + 1) rest).map ((name.map fun n => Wire.textBytes t n) :: ·)
    else .error (.param index)

/-- Prepare a query and run it with its arguments. -/
def runQuery (q : CatalogQuery) (s : Server) : Except Failure (Prepared × RunReply) × Server :=
  match s.prepare q.sql with
  | (.error f, s) => (.error f, s)
  | (.ok p, s) =>
    let args :=
      if q.args.length = p.params.length then encodeNames 0 (p.params.zip q.args)
      else .error (.paramCount p.params.length q.args.length)
    match args with
    | .error f => (.error f, s)
    | .ok args =>
      match s.run p args with
      | (.ok reply, p, s) => (.ok (p, reply), s)
      | (.error f, _, s) => (.error f, s)

/-- The answer to a question about the catalog. -/
def catalog (request : CatalogRequest) : Action Connection ResultSet := do
  let q := catalogQuery request
  let (p, reply) ← Connection.ask (runQuery q)
  let rows ← Action.ofExcept (reply.cells.mapM fun cells => q.read ⟨p.columns, cells⟩)
  return { columns := q.labels, rows }

end SqlSession.Postgres
