/-
A backend that answers from a script.

The script holds a queue of replies for each kind of request; a request takes the first
one, and a queue that is empty, or an entry that says nothing, gives the plain reply.
Every request is logged before its reply is taken.  No server is involved, so that what a
session asks for, and in which order, can be read off the log.
-/
import SqlSession.Backend
import SqlSession.Backend.Results
import SqlSession.Params

namespace SqlSession.Scripted

/-! ### Scripts -/

/-- The replies to one kind of request; an entry that is none stands for the plain reply. -/
abbrev Replies (α : Type) := List (Option (Except DbError α))

/-- The replies about the catalog.  Those about one table stand under its name, and what
is not found is answered by an empty result set. -/
structure CatalogReplies where
  catalogs : Except DbError ResultSet := .ok .empty
  schemas : Except DbError ResultSet := .ok .empty
  tables : Except DbError ResultSet := .ok .empty
  columns : List (String × Except DbError ResultSet) := []
  primaryKeys : List (String × Except DbError ResultSet) := []
  indexInfo : List (String × Except DbError ResultSet) := []

/-- What the backend will answer. -/
structure Script where
  prepare : Replies Unit := []
  prepareCall : Replies Unit := []
  setAutoCommit : Replies Unit := []
  commit : Replies Unit := []
  rollback : Replies Unit := []
  close : Replies Unit := []
  isValid : Replies Bool := []
  executeUpdate : Replies Nat := []
  executeQuery : Replies ResultSet := []
  execute : Replies Bool := []
  addBatch : Replies Unit := []
  executeBatch : Replies (List Nat) := []
  register : Replies Unit := []
  /-- Consulted whenever a call is run or stepped to its next result. -/
  probe : Replies Unit := []
  /-- The results of one run of a call. -/
  calls : Replies (List CallResult) := []
  resultSet : Replies Unit := []
  /-- The positions that refuse to be bound. -/
  bindFailures : List (Nat × DbError) := []
  /-- The values of out parameters. -/
  out : List (Nat × Value) := []
  catalog : CatalogReplies := {}

/-! ### The log -/

/-- A request, with what it was made with. -/
inductive Event where
  | prepare (text : String)
  | prepareCall (procedure : String)
  | setAutoCommit (on : Bool)
  | commit
  | rollback
  | close
  | isValid
  | executeUpdate (text : String) (params : List Value)
  | executeQuery (text : String) (params : List Value)
  | execute (text : String) (params : List Value)
  | addBatch (params : List Value)
  | executeBatch (text : String) (entries : Nat)
  | closeStatement (text : String)
  | register (position : Nat) (type : TypeCode)
  | call (text : String) (params : List Value)
  | resultSet
  | moreResults
  | closeCall (text : String)
  | catalog (request : CatalogRequest)
  deriving DecidableEq, Repr

/-- A connection that follows a script. -/
structure Connection where
  script : Script := {}
  /-- What has been asked so far, in order. -/
  log : List Event := []
  autoCommit : Bool := true

/-- A prepared statement. -/
structure Statement where
  text : String
  params : List Value := []
  /-- How many entries the batch has. -/
  entries : Nat := 0
  deriving DecidableEq, Repr

/-- A prepared call. -/
structure Call where
  text : String
  params : List Value := []
  registered : List Nat := []
  results : CallResults := {}
  deriving DecidableEq, Repr

/-! ### Requests -/

/-- The first reply of a queue, or the plain one. -/
def Replies.take {α : Type} (plain : α) : Replies α → Except DbError α × Replies α
  | [] => (.ok plain, [])
  | none :: rest => (.ok plain, rest)
  | some r :: rest => (r, rest)

namespace Connection

def logged (event : Event) (c : Connection) : Connection :=
  { c with log := c.log ++ [event] }

/-- Take the reply from one of the queues. -/
def reply {α : Type} (plain : α) (queue : Script → Replies α)
    (setQueue : Replies α → Script → Script) : Action Connection α :=
  fun c =>
    match (queue c.script).take plain with
    | (r, rest) => (r, { c with script := setQueue rest c.script })

/-- Log a request and take its reply. -/
def request {α : Type} (event : Event) (plain : α) (queue : Script → Replies α)
    (setQueue : Replies α → Script → Script) : Action Connection α :=
  fun c => reply plain queue setQueue (c.logged event)

/-- A reply about the catalog. -/
def catalogReply (replies : CatalogReplies) : CatalogRequest → Except DbError ResultSet
  | .catalogs => replies.catalogs
  | .schemas => replies.schemas
  | .tables .. => replies.tables
  | .columns _ _ table => (replies.columns.lookup table).getD (.ok .empty)
  | .primaryKeys _ _ table => (replies.primaryKeys.lookup table).getD (.ok .empty)
  | .indexInfo _ _ table => (replies.indexInfo.lookup table).getD (.ok .empty)

end Connection

/-- Use the connection beside a statement or call. -/
def onConnection {γ α : Type} (a : Action Connection α) : Action (γ × Connection) α :=
  fun s =>
    match a s.2 with
    | (r, c) => (r, (s.1, c))

/-- Bind a value, unless the script refuses the position. -/
def bindParam (script : Script) (params : List Value) (position : Nat) (v : Value) :
    Except DbError (List Value) :=
  match script.bindFailures.lookup position with
  | some e => .error e
  | none => Params.bindAt params position v

namespace Statement

def bind (position : Nat) (v : Value) : Action (Statement × Connection) Unit :=
  fun (st, c) =>
    match bindParam c.script st.params position v with
    | .ok params => (.ok (), ({ st with params }, c))
    | .error e => (.error e, (st, c))

def executeUpdate : Action (Statement × Connection) Nat :=
  fun (st, c) =>
    onConnection (Connection.request (.executeUpdate st.text st.params) 0
      Script.executeUpdate (fun q s => { s with executeUpdate := q })) (st, c)

def executeQuery : Action (Statement × Connection) ResultSet :=
  fun (st, c) =>
    onConnection (Connection.request (.executeQuery st.text st.params) .empty
      Script.executeQuery (fun q s => { s with executeQuery := q })) (st, c)

def execute : Action (Statement × Connection) Bool :=
  fun (st, c) =>
    onConnection (Connection.request (.execute st.text st.params) false
      Script.execute (fun q s => { s with execute := q })) (st, c)

/-- The bound values move into the batch, unless the request fails. -/
def addBatch : Action (Statement × Connection) Unit :=
  fun (st, c) =>
    match Connection.request (.addBatch st.params) ()
      Script.addBatch (fun q s => { s with addBatch := q }) c with
    | (.ok (), c) => (.ok (), ({ st with params := [], entries := st.entries + 1 }, c))
    | (.error e, c) => (.error e, (st, c))

/-- Each entry plainly affects one row. -/
def executeBatch : Action (Statement × Connection) (List Nat) :=
  fun (st, c) =>
    match Connection.request (.executeBatch st.text st.entries) (List.replicate st.entries 1)
      Script.executeBatch (fun q s => { s with executeBatch := q }) c with
    | (r, c) => (r, ({ st with entries := 0 }, c))

end Statement

namespace Call

def bind (position : Nat) (v : Value) : Action (Call × Connection) Unit :=
  fun (call, c) =>
    match bindParam c.script call.params position v with
    | .ok params => (.ok (), ({ call with params }, c))
    | .error e => (.error e, (call, c))

def register (position : Nat) (type : TypeCode) : Action (Call × Connection) Unit :=
  fun (call, c) =>
    match Connection.request (.register position type) ()
      Script.register (fun q s => { s with register := q }) c with
    | (.ok (), c) => (.ok (), ({ call with registered := position :: call.registered }, c))
    | (.error e, c) => (.error e, (call, c))

/-- Ask the script whether the probe fails. -/
def probe (event : Event) : Action Connection Unit :=
  Connection.request event () Script.probe (fun q s => { s with probe := q })

def execute : Action (Call × Connection) Bool :=
  fun (call, c) =>
    match probe (.call call.text call.params) c with
    | (.error e, c) => (.error e, (call, c))
    | (.ok (), c) =>
      match Connection.reply [] Script.calls (fun q s => { s with calls := q }) c with
      | (.error e, c) => (.error e, (call, c))
      | (.ok results, c) =>
        let results := CallResults.ofList results
        (.ok results.hasRows, ({ call with results }, c))

def resultSet : Action (Call × Connection) (Option ResultSet) :=
  fun (call, c) =>
    match Connection.request .resultSet ()
      Script.resultSet (fun q s => { s with resultSet := q }) c with
    | (.error e, c) => (.error e, (call, c))
    | (.ok (), c) => (.ok call.results.take.1, ({ call with results := call.results.take.2 }, c))

def query : Action (Call × Connection) ResultSet := do
  let _ ← execute
  return (← resultSet).getD .empty

def moreResults : Action (Call × Connection) Bool :=
  fun (call, c) =>
    match probe .moreResults c with
    | (.error e, c) => (.error e, (call, c))
    | (.ok (), c) =>
      (.ok call.results.next.hasRows, ({ call with results := call.results.next }, c))

def outValue (position : Nat) (call : Call) (c : Connection) : Except DbError (Option Value) :=
  if position ∈ call.registered then .ok (c.script.out.lookup position)
  else .error (.other (Text.intText position ++ " is not an out parameter"))

end Call

instance : Backend Connection where
  Statement := Statement
  Callable := Call
  prepare text := do
    Connection.request (.prepare text) () Script.prepare (fun q s => { s with prepare := q })
    return { text }
  prepareCall procedure := do
    Connection.request (.prepareCall procedure) ()
      Script.prepareCall (fun q s => { s with prepareCall := q })
    return { text := "\x7bcall " ++ procedure ++ "\x7d" }
  setAutoCommit on := do
    Connection.request (.setAutoCommit on) ()
      Script.setAutoCommit (fun q s => { s with setAutoCommit := q })
    Action.modify fun c => { c with autoCommit := on }
  autoCommit := Connection.autoCommit
  commit := Connection.request .commit () Script.commit (fun q s => { s with commit := q })
  rollback := Connection.request .rollback () Script.rollback (fun q s => { s with rollback := q })
  isValid := Connection.request .isValid true Script.isValid (fun q s => { s with isValid := q })
  close := Connection.request .close () Script.close (fun q s => { s with close := q })
  catalog request := fun c =>
    (Connection.catalogReply c.script.catalog request, c.logged (.catalog request))
  bind := Statement.bind
  executeUpdate := Statement.executeUpdate
  executeQuery := Statement.executeQuery
  execute := Statement.execute
  addBatch := Statement.addBatch
  executeBatch := Statement.executeBatch
  closeStatement st c := c.logged (.closeStatement st.text)
  callText := Call.text
  bindCall := Call.bind
  register := Call.register
  executeCall := Call.execute
  queryCall := Call.query
  resultSet := Call.resultSet
  moreResults := Call.moreResults
  updateCount call := call.results.updateCount
  outValue := Call.outValue
  closeCall call c := c.logged (.closeCall call.text)
  resultsLeft call := call.results.pending.length
  resultsLeft_of_failed h := by
    simp only [Call.moreResults] at h
    split at h <;> simp_all
    obtain ⟨-, rfl⟩ := h
    exact Nat.le_refl _
  resultsLeft_of_rows h := by
    simp only [Call.moreResults] at h
    split at h <;> simp at h
    obtain ⟨hr, rfl⟩ := h
    exact CallResults.length_pending_next_of_hasRows hr
  resultsLeft_of_count h hc := by
    simp only [Call.moreResults] at h
    split at h <;> simp at h
    obtain ⟨-, rfl⟩ := h
    exact CallResults.length_pending_next_of_updateCount hc
  resultsLeft_of_taken h := by
    simp only [Call.resultSet] at h
    split at h <;> obtain ⟨-, rfl⟩ := by simpa using h
    · exact Nat.le_refl _
    · simp

end SqlSession.Scripted
