/-
Dialects.

Each supported database product has one immutable description of how its SQL differs:
how identifiers are quoted, how an alias follows its field, where a row limit goes, and
how the address of a server is written.  Everything that puts SQL together only reads
the description, so a product is one entry of `Dialect.of`.
-/
import SqlSession.Error
import SqlSession.Text.Blank
import SqlSession.Text.Case
import SqlSession.Text.Replace

namespace SqlSession

/-- A supported database product. -/
inductive Product where
  | h2
  | mySql
  | oracle
  | firebird
  | postgreSql
  | sqlServer
  | sqlServerJtds
  | progress
  | pervasive
  deriving DecidableEq, Repr

/-- PostgreSQL is the product assumed where none is named. -/
instance : Inhabited Product := ⟨.postgreSql⟩

/-- Where a row limit goes in a SELECT. -/
inductive RowLimit where
  /-- `select top n ...` -/
  | top
  /-- `select first n ...` -/
  | first
  /-- `... limit n` -/
  | limit
  /-- `... where rownum <= n` -/
  | rowNumber
  /-- The dialect has no row limit. -/
  | unsupported
  deriving DecidableEq, Repr

/-- How an alias follows its field. -/
inductive AliasStyle where
  /-- `field "alias"` -/
  | bare
  /-- `field as "alias"` -/
  | as
  deriving DecidableEq, Repr

/-- How one product differs from the others. -/
structure Dialect where
  product : Product
  /-- The driver class or connector that reaches the product. -/
  driver : String
  /-- The address of a server, with placeholders for its parts. -/
  urlTemplate : String
  /-- The address used instead where an instance name is given. -/
  instanceUrlTemplate : Option String := none
  openQuote : Char := '"'
  closeQuote : Char := '"'
  aliasStyle : AliasStyle := .bare
  rowLimit : RowLimit
  /-- Every SELECT ends in `with (nolock)`. -/
  nolockHint : Bool := false
  /-- Result columns can be looked up under a label that holds a dot. -/
  dottedLabels : Bool := true
  deriving DecidableEq, Repr

namespace Product

/-- Every product, in the order of the registry. -/
def all : List Product :=
  [.h2, .mySql, .oracle, .firebird, .postgreSql, .sqlServer, .sqlServerJtds, .progress, .pervasive]

/-- The stable identifier of a product. -/
def id : Product → String
  | .h2 => "h2"
  | .mySql => "mysql"
  | .oracle => "oracle"
  | .firebird => "firebird"
  | .postgreSql => "postgresql"
  | .sqlServer => "mssql"
  | .sqlServerJtds => "mssql_jtds"
  | .progress => "progress"
  | .pervasive => "pervasive_psql"

/-- The product with exactly this identifier. -/
def ofId? (id : String) : Option Product :=
  all.find? (·.id == id)

/-- The product with this identifier, blanks around it and the case of letters ignored. -/
def ofName? (name : String) : Option Product :=
  all.find? fun p => Text.asciiCaseEq p.id (Text.trimmed name)

/-- The product of that name, or a configuration error that shows the name as given. -/
def parse (name : String) : Except DbError Product :=
  match ofName? name with
  | some p => .ok p
  | none => .error (.config ("unknown database kind '" ++ name ++ "'"))

/-- The product of that name; an unknown name means PostgreSQL. -/
def ofName (name : String) : Product :=
  (ofName? name).getD .postgreSql

/-- The description of a product. -/
def dialect : Product → Dialect
  | .h2 =>
    { product := .h2, driver := "org.h2.Driver",
      urlTemplate := "jdbc:h2:tcp://$dbServer:$dbPort//$dbDir/$dbName", rowLimit := .top }
  | .mySql =>
    { product := .mySql, driver := "com.mysql.jdbc.Driver",
      urlTemplate := "jdbc:mysql://$dbServer:$dbPort/$dbName", rowLimit := .limit,
      openQuote := '`', closeQuote := '`' }
  | .oracle =>
    { product := .oracle, driver := "oracle.jdbc.driver.OracleDriver",
      urlTemplate := "jdbc:oracle:thin:@//$dbServer:$dbPort/$dbName", rowLimit := .rowNumber }
  | .firebird =>
    { product := .firebird, driver := "org.firebirdsql.jdbc.FBDriver",
      urlTemplate := "jdbc:firebirdsql://$dbServer:$dbPort/$dbName", rowLimit := .first }
  | .postgreSql =>
    { product := .postgreSql, driver := "tokio-postgres",
      urlTemplate := "postgresql://$dbServer:$dbPort/$dbName", rowLimit := .limit,
      aliasStyle := .as }
  | .sqlServer =>
    { product := .sqlServer, driver := "com.microsoft.sqlserver.jdbc.SQLServerDriver",
      urlTemplate := "jdbc:sqlserver://$dbServer:$dbPort;databaseName=$dbName", rowLimit := .top,
      instanceUrlTemplate :=
        some "jdbc:sqlserver://$dbServer;instanceName=$instanceName;databaseName=$dbName" }
  | .sqlServerJtds =>
    { product := .sqlServerJtds, driver := "net.sourceforge.jtds.jdbc.Driver",
      urlTemplate := "jdbc:jtds:sqlserver://$dbServer:$dbPort/$dbName", rowLimit := .top,
      instanceUrlTemplate := some "jdbc:jtds:sqlserver://$dbServer/$dbName;instance=$instanceName" }
  | .progress =>
    { product := .progress, driver := "com.ddtek.jdbc.openedge.OpenEdgeDriver",
      urlTemplate := "jdbc:datadirect:openedge://$dbServer:$dbPort;databaseName=$dbName",
      rowLimit := .top, nolockHint := true }
  | .pervasive =>
    { product := .pervasive, driver := "com.pervasive.jdbc.v2.Driver",
      urlTemplate := "jdbc:pervasive://$dbServer:$dbPort/$dbName", rowLimit := .top,
      dottedLabels := false }

@[simp] theorem dialect_product (p : Product) : p.dialect.product = p := by
  cases p <;> rfl

end Product

namespace Dialect

/-- An identifier between the dialect's quotes; the identifier is taken as it is. -/
def quote (d : Dialect) (identifier : String) : String :=
  String.singleton d.openQuote ++ identifier ++ String.singleton d.closeQuote

/-- The address template: the instance form where an instance is named and there is one. -/
def templateFor (d : Dialect) (instanceName : Option String) : String :=
  match instanceName, d.instanceUrlTemplate with
  | some name, some template => if name.isEmpty then d.urlTemplate else template
  | _, _ => d.urlTemplate

/-- The address of a server.  The placeholders are filled in one kind after the other,
so a value that itself holds a placeholder of a later kind has it filled in too. -/
def renderUrl (d : Dialect) (server port directory database : String)
    (instanceName : Option String) : String :=
  let url := d.templateFor instanceName
  let url := Text.replaceAll url "$dbServer" server
  let url := Text.replaceAll url "$dbPort" port
  let url := Text.replaceAll url "$dbDir" directory
  let url := Text.replaceAll url "$dbName" database
  Text.replaceAll url "$instanceName" (instanceName.getD "")

end Dialect

end SqlSession
