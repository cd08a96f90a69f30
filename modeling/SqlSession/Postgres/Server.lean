/-
The server's side of a connection.

The server answers a client's requests one by one from replies that are fixed in advance,
and keeps a log of what it has been asked.  A statement is prepared once and then run with
parameters in the types that the server names; plain texts go by the simple protocol.
When the server hangs up, requests are answered by nothing any more and are not logged.
-/
import SqlSession.ResultSet
import SqlSession.Wire.Decoding
import SqlSession.Wire.Encoding

namespace SqlSession.Postgres

/-! ### Replies -/

/-- A column of an answer. -/
structure Column where
  name : String
  type : Wire.ServerType
  deriving DecidableEq, Repr

/-- The cells of one row, `none` for NULL. -/
abbrev Cells := List (Option Wire.Bytes)

/-- What comes back from running a statement. -/
inductive RunReply where
  | rows (rows : List Cells)
  | count (n : Nat)
  /-- The server reports an error. -/
  | refuse
  /-- The server hangs up. -/
  | hangUp
  deriving DecidableEq, Repr

/-- A statement as the server has prepared it. -/
structure Prepared where
  text : String
  params : List Wire.ServerType := []
  columns : List Column := []
  /-- The replies to its runs; behind the last, a run gives no rows. -/
  runs : List RunReply := []
  deriving DecidableEq, Repr

/-- What comes back from preparing a text. -/
inductive PrepareReply where
  | prepared (params : List Wire.ServerType) (columns : List Column) (runs : List RunReply)
  | refuse
  deriving DecidableEq, Repr

/-- What comes back from a text sent by the simple protocol. -/
inductive SimpleReply where
  | rows (n : Nat)
  | refuse
  | hangUp
  deriving DecidableEq, Repr

/-- A request that has reached the server. -/
inductive Event where
  | parse (text : String)
  | run (text : String) (args : Cells)
  | simple (text : String)
  deriving DecidableEq, Repr

/-- A server with its replies to come and the requests that have been made. -/
structure Server where
  prepares : List PrepareReply := []
  simples : List SimpleReply := []
  isConnected : Bool := true
  log : List Event := []
  deriving DecidableEq, Repr

/-! ### Failures -/

/-- Why a request fails. -/
inductive Failure where
  /-- The server reported an error. -/
  | refused
  /-- The server has hung up. -/
  | closed
  /-- The statement has another number of parameters. -/
  | paramCount (expected given : Nat)
  /-- A parameter, counted from 0, cannot be written in its type. -/
  | param (index : Nat)
  deriving DecidableEq, Repr

namespace Failure

def text : Failure → String
  | .refused => "db error"
  | .closed => "connection closed"
  | .paramCount expected given =>
    "expected " ++ Text.intText expected ++ " parameters but got " ++ Text.intText given
  | .param index => "error serializing parameter " ++ Text.intText index

def error (f : Failure) : DbError :=
  .query f.text

end Failure

/-! ### Requests -/

namespace Server

def logged (event : Event) (s : Server) : Server :=
  { s with log := s.log ++ [event] }

/-- Prepare a text. -/
def prepare (text : String) (s : Server) : Except Failure Prepared × Server :=
  if s.isConnected then
    let s := s.logged (.parse text)
    match s.prepares with
    | [] => (.ok { text }, s)
    | .prepared params columns runs :: rest =>
      (.ok { text, params, columns, runs }, { s with prepares := rest })
    | .refuse :: rest => (.error .refused, { s with prepares := rest })
  else (.error .closed, s)

/-- Send a text by the simple protocol; the answer is the number of rows. -/
def simple (text : String) (s : Server) : Except Failure Nat × Server :=
  if s.isConnected then
    let s := s.logged (.simple text)
    match s.simples with
    | [] => (.ok 0, s)
    | .rows n :: rest => (.ok n, { s with simples := rest })
    | .refuse :: rest => (.error .refused, { s with simples := rest })
    | .hangUp :: rest => (.error .closed, { s with simples := rest, isConnected := false })
  else (.error .closed, s)

/-- Send arguments to a prepared statement. -/
def run (p : Prepared) (args : Cells) (s : Server) : Except Failure RunReply × Prepared × Server :=
  if s.isConnected then
    let s := s.logged (.run p.text args)
    match p.runs with
    | [] => (.ok (.rows []), p, s)
    | .refuse :: rest => (.error .refused, { p with runs := rest }, s)
    | .hangUp :: rest => (.error .closed, { p with runs := rest }, { s with isConnected := false })
    | reply :: rest => (.ok reply, { p with runs := rest }, s)
  else (.error .closed, p, s)

end Server

namespace RunReply

def affected : RunReply → Nat
  | .rows sent => sent.length
  | .count n => n
  | .refuse | .hangUp => 0

def cells : RunReply → List Cells
  | .rows sent => sent
  | _ => []

end RunReply

/-! ### Parameters -/

/-- The parameters in their types; `index` of them have been written. -/
def encodeFrom (index : Nat) : List (Wire.ServerType × Value) → Except Failure Cells
  | [] => .ok []
  | (t, v) :: rest =>
    match Wire.encode t v with
    | .error _ => .error (.param index)
    | .ok cell => (encodeFrom (index + 1) rest).map (cell :: ·)

/-- The parameters of a statement as they are sent. -/
def Prepared.encode (p : Prepared) (params : List Value) : Except Failure Cells :=
  if params.length = p.params.length then encodeFrom 0 (p.params.zip params)
  else .error (.paramCount p.params.length params.length)

/-! ### Answers -/

/-- The cells of a row in the types of their columns; `index` of them have been read. -/
def decodeCells (index : Nat) : List Column → Cells → Except DbError (List Value)
  | column :: columns, cell :: cells =>
    match Wire.decodeCell? column.type cell with
    | some v => (decodeCells (index + 1) columns cells).map (v :: ·)
    | none =>
      .error (.decode column.name ("error deserializing column " ++ Text.intText index))
  | _, _ => .ok []

/-- The rows in the types of their columns. -/
def decodeRows (columns : List Column) : List Cells → Except DbError (List (List Value))
  | [] => .ok []
  | row :: rest =>
    match decodeCells 0 columns row with
    | .error e => .error e
    | .ok values => (decodeRows columns rest).map (values :: ·)

/-- The rows of an answer under the names of their columns. -/
def decodeResult (columns : List Column) (rows : List Cells) : Except DbError ResultSet :=
  (decodeRows columns rows).map fun rows => { columns := columns.map Column.name, rows }

end SqlSession.Postgres
