/-
Connection settings.

The settings say which product a connection goes to, where its server is, which database
is meant, and as whom to log in.  An explicit address replaces the one that the dialect
would write.
-/
import SqlSession.Sql.Dialect
import SqlSession.Text.Integer

namespace SqlSession

/-- What has to be known to open a connection. -/
structure Config where
  product : Product := .postgreSql
  server : String := "localhost"
  port : Option UInt16 := none
  /-- The directory of a database that is a file. -/
  directory : String := ""
  database : String := ""
  /-- The name of an instance, where a server has several. -/
  instanceName : Option String := none
  user : String := ""
  password : String := ""
  /-- How many seconds a login may take; 0 means any number. -/
  loginTimeout : UInt64 := 15
  /-- The address to use instead of the one that the dialect writes. -/
  url : Option String := none
  deriving DecidableEq, Repr, Inhabited

namespace Config

/-- The address to connect to. -/
def connectionUrl (c : Config) : String :=
  match c.url with
  | some url => url
  | none =>
    let port := (c.port.map fun p => Text.intText p.toNat).getD ""
    c.product.dialect.renderUrl c.server port c.directory c.database c.instanceName

/-- Limit logging in to a span of time; what is less than a second is dropped. -/
def withLoginTimeout (milliseconds : Nat) (c : Config) : Config :=
  { c with loginTimeout := UInt64.ofNat (milliseconds / 1000) }

end Config

end SqlSession
