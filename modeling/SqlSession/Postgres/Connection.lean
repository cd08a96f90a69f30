/-
A connection to the server, and its transactions.

Auto-commit is on at first.  While it is off there is an open transaction: committing and
rolling back end it and begin the next one in the same breath.  A switch that the server
refuses is taken back.
-/
import SqlSession.Action
import SqlSession.Postgres.Server

namespace SqlSession.Postgres

/-- A connection to a server. -/
structure Connection where
  server : Server := {}
  autoCommit : Bool := true
  deriving DecidableEq, Repr

namespace Connection

variable {γ α : Type}

/-- Make a request to the server. -/
def ask (request : Server → Except Failure α × Server) : Action Connection α :=
  fun c =>
    match request c.server with
    | (.ok a, server) => (.ok a, { c with server })
    | (.error f, server) => (.error f.error, { c with server })

/-- Make a request to the server beside a statement or call. -/
def askBeside (request : Server → Except Failure α × Server) : Action (γ × Connection) α :=
  fun s =>
    match ask request s.2 with
    | (r, c) => (r, (s.1, c))

/-! ### Transactions -/

/-- Switch auto-commit.  Switching it off opens a transaction, and switching it on commits
the open one. -/
def setAutoCommit (on : Bool) : Action Connection Unit :=
  fun c =>
    if c.autoCommit = on then (.ok (), c)
    else
      match c.server.simple (if on then "COMMIT" else "BEGIN") with
      | (.ok _, server) => (.ok (), { server, autoCommit := on })
      | (.error f, server) => (.error f.error, { c with server })

/-- End the open transaction with a command and begin the next one; with auto-commit there
is nothing to end. -/
def endTransaction (command : String) : Action Connection Unit :=
  fun c =>
    if c.autoCommit then (.ok (), c)
    else
      match ask (Server.simple (command ++ "; BEGIN")) c with
      | (.ok _, c) => (.ok (), c)
      | (.error e, c) => (.error e, c)

def commit : Action Connection Unit :=
  endTransaction "COMMIT"

def rollback : Action Connection Unit :=
  endTransaction "ROLLBACK"

/-- Whether the server still answers. -/
def isValid : Action Connection Bool :=
  fun c =>
    if c.server.isConnected then
      match c.server.simple "SELECT 1" with
      | (.ok _, server) => (.ok true, { c with server })
      | (.error _, server) => (.ok false, { c with server })
    else (.ok false, c)

end Connection

/-- The error of using what has been closed. -/
def closedError (text : String) : DbError :=
  .other ("statement is closed: " ++ text)

end SqlSession.Postgres
