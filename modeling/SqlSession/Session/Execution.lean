/-
Execution.

Each execution prepares the settled text of the active statement, binds the parameters in
order, runs the statement and closes it.  Executions empty the parameters, whether they
succeed or fail; a query that does not fit the active operation is refused before anything
happens and leaves them.
-/
import SqlSession.Session.Basic
import SqlSession.Session.Record

namespace SqlSession

/-- Bind values at a position and those behind it. -/
def bindFrom {τ : Type} (bind : Nat → Value → Action τ Unit) : Nat → List Value → Action τ Unit
  | _, [] => pure ()
  | position, v :: rest => do
    bind position v
    bindFrom bind (position + 1) rest

/-- Bind values from the first position on. -/
def bindAll {τ : Type} (bind : Nat → Value → Action τ Unit) (params : List Value) : Action τ Unit :=
  bindFrom bind 1 params

namespace Session

variable {σ : Type} [Backend σ] {α : Type}

/-- The action, after which there are no parameters. -/
def clearingParams (a : Action (Session σ) α) : Action (Session σ) α :=
  a.andThen fun s => { s with params := [] }

/-! ### Statements -/

/-- Prepare a text and bind its parameters. -/
def opened (text : String) (params : List Value) : Action σ (Backend.Statement σ) :=
  fun b =>
    match Backend.prepare text b with
    | (.error e, b) => (.error e, b)
    | (.ok statement, b) =>
      match bindAll Backend.bind params (statement, b) with
      | (.error e, (_, b)) => (.error e, b)
      | (.ok (), (statement, b)) => (.ok statement, b)

/-- Prepare a text, bind its parameters, use the statement and close it. -/
def runStatement (text : String) (params : List Value)
    (use : Action (Backend.Statement σ × σ) α) : Action σ α :=
  fun b =>
    match opened text params b with
    | (.error e, b) => (.error e, b)
    | (.ok statement, b) =>
      match use (statement, b) with
      | (r, (statement, b)) => (r, Backend.closeStatement statement b)

/-! ### Data changes -/

/-- Run the INSERT, UPDATE or DELETE. -/
def executeChange (operation : Operation) : Action (Session σ) Nat := do
  let text ← compile operation
  let params ← Action.view Session.params
  onConnection (runStatement text params Backend.executeUpdate)

/-- Run the CREATE, which takes no parameters. -/
def executeCreate : Action (Session σ) Nat := do
  let text ← compile .create
  let _ ← onConnection (runStatement text [] Backend.execute)
  return 0

/-- Run the procedure call for its first row count. -/
def executeCall : Action (Session σ) Nat := do
  let params ← Action.view Session.params
  onCall "execute" do
    bindAll Backend.bindCall params
    let _ ← Backend.executeCall
    Action.view fun s => (Backend.updateCount s.1).toNat

/-- Run the active INSERT, UPDATE, DELETE, CREATE or procedure call; the answer is the
number of rows affected. -/
def execute : Action (Session σ) Nat :=
  clearingParams fun s =>
    match s.operation with
    | .insert | .update | .delete => executeChange s.operation s
    | .create => executeCreate s
    | .procedure => executeCall s
    | .none | .select => (.error (.invalidOperation "execute" s.operation), s)

/-! ### Batches -/

/-- Bind the fields of a record at a position and those behind it.  The error names the
record that lacks a field or cannot be bound. -/
def bindFields (record : Record) : Nat → List String → Action (Backend.Statement σ × σ) Unit
  | _, [] => pure ()
  | position, field :: rest =>
    match record.value? field with
    | none => Action.fail (.batch ("field '" ++ field ++ "' not found in record") record.text)
    | some v => fun s =>
      match Backend.bind position (Value.ofJson v) s with
      | (.error e, s) => (.error (.batch e.message record.text), s)
      | (.ok (), s) => bindFields record (position + 1) rest s

/-- Put each record into the batch. -/
def fillBatch (fields : List String) : List Record → Action (Backend.Statement σ × σ) Unit
  | [] => pure ()
  | record :: rest => do
    bindFields record 1 fields
    Backend.addBatch
    fillBatch fields rest

/-- Insert records in one batch; the answer is their row counts. -/
def executeBatch (records : List Record) : Action (Session σ) (List Nat) :=
  clearingParams fun s =>
    match s.operation with
    | .insert =>
      (do
        let text ← compile .insert
        let fields ← Action.view fun s : Session σ => s.inserting.parts.fields
        onConnection <| runStatement text [] <|
          if fields.isEmpty then Action.fail (.missingFields .insert)
          else do
            fillBatch fields records
            Backend.executeBatch : Action (Session σ) (List Nat)) s
    | operation => (.error (.invalidOperation "execute_batch" operation), s)

/-! ### Queries -/

/-- Run the SELECT; the answer is its cursor and the labels to read. -/
def runSelect : Action (Session σ) (ResultSet × Option (List String)) := do
  let text ← compile .select
  let labels ← fun s : Session σ =>
    (Sql.readLabels s.dialect s.selecting.parts.fields s.selecting.parts.aliases, s)
  let params ← Action.view Session.params
  let rs ← onConnection (runStatement text params Backend.executeQuery)
  return (rs, labels)

/-- Run the active SELECT and read its answer. -/
def select? (action : String)
    (read : Except DbError (ResultSet × Option (List String)) → Except DbError α) :
    Action (Session σ) α :=
  fun s =>
    match s.operation with
    | .select =>
      match clearingParams runSelect s with
      | (r, s) => (read r, s)
    | operation => (.error (.invalidOperation action operation), s)

/-- The first row of the active SELECT; without a row, and where the backend says that
there is no data, it is the empty record. -/
def queryUnique : Action (Session σ) Record :=
  select? "query_unique" fun r =>
    match r.bind fun (rs, labels) => rs.firstRecord labels with
    | .error e => if e.isNoData then .ok [] else .error e
    | .ok record => .ok record

/-- The first cell of the active SELECT as a count. -/
def queryCount : Action (Session σ) Int64 :=
  select? "query_count" fun r => r.bind fun (rs, _) => rs.count

end Session

end SqlSession
