/-
Logging in.

The settings of a connection give the target of the login; what stands at the target is a
peer that lets the client in, asks for a password first, or refuses, or there is nobody.
A session over a login goes by the name of its database.
-/
import SqlSession.Config
import SqlSession.Postgres.Backend
import SqlSession.Postgres.Target
import SqlSession.Session.Basic

namespace SqlSession.Postgres

/-- How a peer answers a login. -/
inductive Admission where
  | granted
  /-- A password is asked for, and any is right. -/
  | password
  | refused
  deriving DecidableEq, Repr

/-- What stands at the target of a login. -/
structure Peer where
  admission : Admission := .granted
  server : Server := {}

/-- What a client says in a login. -/
inductive LoginEvent where
  | startup (database user : Option String)
  | password (bytes : List UInt8)
  deriving DecidableEq, Repr

/-- The target of the settings.  An explicit address is taken for all of it. -/
def targetOf (c : Config) : Except DbError Target :=
  match c.url with
  | some url =>
    match Target.parse? url with
    | some t => .ok t
    | none => .error (.config "invalid url: invalid connection string")
  | none =>
    if c.database.isEmpty then .error (.config "database name not informed")
    else
      .ok
        { hosts := [c.server]
          ports := c.port.toList
          user := if c.user.isEmpty then none else some c.user
          password := if c.password.isEmpty then none else some (Text.utf8Bytes c.password)
          database := some c.database }

/-- Log in to the peer at a target, if there is one; what is said is listed in order. -/
def login (t : Target) (peer : Option Peer) : Except DbError Connection × List LoginEvent :=
  if t.isComplete then
    match peer with
    | none => (.error (.query "error connecting to server"), [])
    | some peer =>
      let startup := LoginEvent.startup t.database t.user
      match peer.admission, t.password with
      | .granted, _ => (.ok { server := peer.server }, [startup])
      | .refused, _ => (.error Failure.refused.error, [startup])
      | .password, some bytes => (.ok { server := peer.server }, [startup, .password bytes])
      | .password, none => (.error (.query "invalid configuration"), [startup])
  else (.error (.query "invalid configuration"), [])

/-- Open a session by the settings.  Other products than this one have no driver here. -/
def openSession (c : Config) (peer : Option Peer) :
    Except DbError (Session Connection) × List LoginEvent :=
  if c.product = .postgreSql then
    match targetOf c with
    | .error e => (.error e, [])
    | .ok t =>
      match login t peer with
      | (.error e, events) => (.error e, events)
      | (.ok backend, events) =>
        (.ok { backend, product := c.product, databaseId := c.database }, events)
  else
    (.error (.unsupported ("no in-tree driver for " ++ c.product.id
      ++ "; use Session::with_connection")), [])

end SqlSession.Postgres
