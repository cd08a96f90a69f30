/-
Prepared statements.

The server prepares a statement when it is first run, and again only after a failure to
prepare it.  A batch is sent as a whole before any answer is looked at; with auto-commit
it runs in a transaction of its own, so that a failing entry leaves none of the others
behind.
-/
import SqlSession.Params
import SqlSession.Postgres.Connection
import SqlSession.Sql.Placeholder

namespace SqlSession.Postgres

/-- A statement of the client. -/
structure Statement where
  text : String
  /-- The server's side, once there is one. -/
  prepared : Option Prepared := none
  params : List Value := []
  /-- The entries of the batch, in order. -/
  batch : List (List Value) := []
  isOpen : Bool := true
  deriving DecidableEq, Repr

namespace Statement

variable {α : Type}

def bind (position : Nat) (v : Value) : Action (Statement × Connection) Unit :=
  fun (st, c) =>
    match Params.bindAt st.params position v with
    | .ok params => (.ok (), ({ st with params }, c))
    | .error e => (.error e, (st, c))

def clearParams (st : Statement) : Statement :=
  { st with params := [] }

def close (st : Statement) : Statement :=
  { st with prepared := none, params := [], batch := [], isOpen := false }

/-- Use a statement that is open. -/
def ifOpen (a : Action (Statement × Connection) α) : Action (Statement × Connection) α :=
  fun s => if s.1.isOpen then a s else (.error (closedError s.1.text), s)

/-- The server's side of the statement, prepared if it is not yet. -/
def ensurePrepared : Action (Statement × Connection) Prepared :=
  ifOpen fun (st, c) =>
    match st.prepared with
    | some p => (.ok p, (st, c))
    | none =>
      match Connection.ask (Server.prepare (Sql.numberPlaceholders st.text)) c with
      | (.ok p, c) => (.ok p, ({ st with prepared := some p }, c))
      | (.error e, c) => (.error e, (st, c))

/-- Run the prepared statement with parameters. -/
def runOnce (p : Prepared) (params : List Value) (s : Server) :
    Except Failure RunReply × Prepared × Server :=
  match p.encode params with
  | .error f => (.error f, p, s)
  | .ok args => s.run p args

/-- Prepare the statement if necessary and run it with the bound parameters; the answer is
the server's side and its reply. -/
def run : Action (Statement × Connection) (Prepared × RunReply) :=
  fun s =>
    match ensurePrepared s with
    | (.error e, s) => (.error e, s)
    | (.ok p, (st, c)) =>
      match runOnce p st.params c.server with
      | (.ok reply, p, server) =>
        (.ok (p, reply), ({ st with prepared := some p }, { c with server }))
      | (.error f, p, server) =>
        (.error f.error, ({ st with prepared := some p }, { c with server }))

def executeUpdate : Action (Statement × Connection) Nat := do
  let (_, reply) ← run
  return reply.affected

def executeQuery : Action (Statement × Connection) ResultSet := do
  let (p, reply) ← run
  Action.ofExcept (decodeResult p.columns reply.cells)

/-- Run any statement; the answer tells whether it produces rows.  A text without
parameters goes by the simple protocol as it is, so that it may hold several
statements. -/
def execute : Action (Statement × Connection) Bool :=
  ifOpen fun (st, c) =>
    if st.params.isEmpty then
      (do
        let rows ← Connection.askBeside (Server.simple st.text)
        return decide (0 < rows) : Action (Statement × Connection) Bool) (st, c)
    else
      (do
        let (p, _) ← run
        return !p.columns.isEmpty : Action (Statement × Connection) Bool) (st, c)

/-! ### Batches -/

/-- The bound parameters move into the batch. -/
def addBatch : Action (Statement × Connection) Unit :=
  ifOpen fun (st, c) =>
    (.ok (), ({ st with params := [], batch := st.batch ++ [st.params] }, c))

/-- Send the entries of a batch one after the other without waiting for answers.  An entry
that cannot be written ends the sending and decides the outcome; otherwise the answers are
looked at in order, and the first failure decides.  That is how a batch of up to thirty
entries is sent.  Of a longer one, the entries behind one that cannot be written are sent as
well, unless that is the first, and the first failure in order decides; this is left out
here. -/
def sendBatch :
    List (List Value) → Prepared → Server → Except Failure (List Nat) × Prepared × Server
  | [], p, s => (.ok [], p, s)
  | entry :: rest, p, s =>
    match p.encode entry with
    | .error f => (.error f, p, s)
    | .ok args =>
      match s.run p args with
      | (reply, p, s') =>
        match sendBatch rest p s' with
        | (r, p, s'') => (answered reply r, p, s'')
where
  /-- The outcome with the answer to one more entry in front; what could not be written
  comes first, then the failures in order. -/
  answered : Except Failure RunReply → Except Failure (List Nat) → Except Failure (List Nat)
    | _, .error (.paramCount expected given) => .error (.paramCount expected given)
    | _, .error (.param index) => .error (.param index)
    | .error f, _ => .error f
    | .ok _, .error f => .error f
    | .ok reply, .ok counts => .ok (reply.affected :: counts)

/-- Run the entries of a batch.  To a server that is known to have hung up nothing is sent
beyond the first entry. -/
def runBatch (batch : List (List Value)) (p : Prepared) (s : Server) :
    Except Failure (List Nat) × Prepared × Server :=
  match batch with
  | [] => (.ok [], p, s)
  | entry :: _ =>
    if s.isConnected then sendBatch batch p s
    else
      match p.encode entry with
      | .error f => (.error f, p, s)
      | .ok _ => (.error .closed, p, s)

/-- End the batch's own transaction: commit if every entry has succeeded, else roll back. -/
def settleBatch (outcome : Except Failure (List Nat)) : Action Connection (List Nat) :=
  fun c =>
    match outcome with
    | .ok counts =>
      match Connection.ask (Server.simple "COMMIT") c with
      | (.ok _, c) => (.ok counts, c)
      | (.error e, c) => (.error e, c)
    | .error f =>
      match c.server.simple "ROLLBACK" with
      | (.ok _, server) => (.error f.error, { c with server })
      | (.error g, server) =>
        (.error (.other (f.text ++ " (rollback failed: " ++ g.text ++ ")")), { c with server })

/-- Run every entry of the batch, which is empty afterwards. -/
def executeBatch : Action (Statement × Connection) (List Nat) :=
  fun s =>
    match ensurePrepared s with
    | (.error e, s) => (.error e, s)
    | (.ok p, (st, c)) =>
      let batch := st.batch
      let st := { st with batch := [] }
      if c.autoCommit then
        match Connection.ask (Server.simple "BEGIN") c with
        | (.error e, c) => (.error e, (st, c))
        | (.ok _, c) =>
          match runBatch batch p c.server with
          | (outcome, p, server) =>
            match settleBatch outcome { c with server } with
            | (r, c) => (r, ({ st with prepared := some p }, c))
      else
        match runBatch batch p c.server with
        | (outcome, p, server) =>
          (outcome.mapError Failure.error, ({ st with prepared := some p }, { c with server }))

end Statement

end SqlSession.Postgres
