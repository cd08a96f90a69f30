/-
Sessions.

A session owns a connection and builds one statement at a time through its setters.  Each
kind of statement has a draft of its own, so that an INSERT between two SELECTs leaves the
SELECT alone; the parameters are shared, and starting a statement empties them.  A setter
changes nothing where the active statement has no such part, except that source, order,
limit and, outside a procedure call, aliases always belong to the SELECT.
-/
import SqlSession.Backend
import SqlSession.Params
import SqlSession.Session.Draft
import SqlSession.Sql.Comment

namespace SqlSession

/-- A procedure call in the making; without a handle there is none. -/
structure CallDraft (Callable : Type) where
  name : String := ""
  fields : List String := []
  aliases : Option (List String) := none
  handle : Option Callable := none

/-- A connection with the statement that is being built for it. -/
structure Session (σ : Type) [Backend σ] where
  backend : σ
  /-- A closed session keeps the state of its backend and no longer uses it. -/
  isOpen : Bool := true
  product : Product
  databaseId : String := ""
  operation : Operation := .none
  /-- The parameters of the next execution. -/
  params : List Value := []
  schema : String := ""
  /-- The text most recently compiled or assigned. -/
  lastSql : String := ""
  selecting : Draft Sql.SelectParts := ⟨{}, none⟩
  inserting : Draft Sql.InsertParts := ⟨{}, none⟩
  updating : Draft Sql.UpdateParts := ⟨{}, none⟩
  deleting : Draft Sql.DeleteParts := ⟨{}, none⟩
  /-- The text of a CREATE. -/
  creating : Option String := none
  calling : CallDraft (Backend.Callable σ) := {}

namespace Session

variable {σ : Type} [Backend σ] {α : Type}

/-- The dialect that texts are compiled in. -/
def dialect (s : Session σ) : Dialect :=
  s.product.dialect

def setDatabaseId (id : String) (s : Session σ) : Session σ :=
  { s with databaseId := id }

/-! ### Starting a statement -/

/-- Make an operation the active one and empty the parameters. -/
def start (operation : Operation) (s : Session σ) : Session σ :=
  { s with operation, params := [] }

/-- Start a SELECT of fields. -/
def select (fields : List String) (s : Session σ) : Session σ :=
  { s with selecting := ⟨{ fields }, none⟩ }.start .select

/-- Start an INSERT into a table. -/
def insert (table : String) (s : Session σ) : Session σ :=
  { s with inserting := ⟨{ table }, none⟩ }.start .insert

/-- Start an UPDATE of a table. -/
def update (table : String) (s : Session σ) : Session σ :=
  { s with updating := ⟨{ table }, none⟩ }.start .update

/-- Start a DELETE from a table. -/
def delete (table : String) (s : Session σ) : Session σ :=
  { s with deleting := ⟨{ table }, none⟩ }.start .delete

/-- Start the statement that a text is.  A text without a statement keyword leaves the
session without an operation. -/
def sql (text : String) (s : Session σ) : Session σ :=
  let operation := Sql.classify text
  let s := { s with lastSql := text }
  let s :=
    match operation with
    | .select => { s with selecting := ⟨{}, some text⟩ }
    | .insert => { s with inserting := ⟨{}, some text⟩ }
    | .update => { s with updating := ⟨{}, some text⟩ }
    | .delete => { s with deleting := ⟨{}, some text⟩ }
    | .create => { s with creating := some text }
    | .none | .procedure => s
  s.start operation

/-! ### Parts -/

/-- Set the fields of the active SELECT, INSERT, UPDATE or procedure call. -/
def setFields (fields : List String) (s : Session σ) : Session σ :=
  match s.operation with
  | .select => { s with selecting.parts.fields := fields }
  | .insert => { s with inserting.parts.fields := fields }
  | .update => { s with updating.parts.fields := fields }
  | .procedure => { s with calling.fields := fields }
  | _ => s

/-- Set the aliases of the active procedure call, or else of the SELECT. -/
def setAliases (aliases : List String) (s : Session σ) : Session σ :=
  match s.operation with
  | .procedure => { s with calling.aliases := some aliases }
  | _ => { s with selecting.parts.aliases := some aliases }

/-- Set what the SELECT selects from. -/
def setSource (source : String) (s : Session σ) : Session σ :=
  { s with selecting.parts.source := source }

/-- Set the predicate of the active SELECT, UPDATE or DELETE. -/
def setCondition (condition : String) (s : Session σ) : Session σ :=
  match s.operation with
  | .select => { s with selecting.parts.condition := condition }
  | .update => { s with updating.parts.condition := condition }
  | .delete => { s with deleting.parts.condition := condition }
  | _ => s

/-- Set the order of the SELECT. -/
def setOrder (order : String) (s : Session σ) : Session σ :=
  { s with selecting.parts.order := order }

/-- Set how many rows the SELECT returns at most; 0 means all. -/
def setLimit (limit : Nat) (s : Session σ) : Session σ :=
  { s with selecting.parts.limit := limit }

/-- Set the schema that qualifies table names. -/
def setSchema (schema : String) (s : Session σ) : Session σ :=
  { s with schema }

/-! ### Parameters -/

/-- Append a parameter. -/
def addParam (v : Value) (s : Session σ) : Session σ :=
  { s with params := s.params ++ [v] }

/-- Set the parameter at a position; position 0 is taken for 1. -/
def setParam (position : Nat) (v : Value) (s : Session σ) : Session σ :=
  { s with params := Params.put s.params (position - 1) v }

/-! ### Texts -/

/-- The text of the draft of an operation. -/
def draftText (operation : Operation) (s : Session σ) : Except DbError String :=
  match operation with
  | .select =>
    s.selecting.compiled fun parts =>
      Sql.compileSelect s.dialect { parts with schema := s.schema }
  | .insert =>
    s.inserting.compiled fun parts =>
      Sql.compileInsert s.dialect s.schema parts.table parts.fields
  | .update =>
    s.updating.compiled fun parts =>
      Sql.compileUpdate s.dialect s.schema parts.table parts.fields parts.condition
  | .delete =>
    s.deleting.compiled fun parts =>
      Sql.compileDelete s.dialect s.schema parts.table parts.condition
  | .create =>
    match s.creating with
    | some text => .ok text
    | none => .error (.invalidOperation "compile" operation)
  | .none | .procedure => .error (.invalidOperation "compile" operation)

/-- The session in which the draft of an operation is settled on a text. -/
def settle (operation : Operation) (text : String) (s : Session σ) : Session σ :=
  let s := { s with lastSql := text }
  match operation with
  | .select => { s with selecting := s.selecting.settle text }
  | .insert => { s with inserting := s.inserting.settle text }
  | .update => { s with updating := s.updating.settle text }
  | .delete => { s with deleting := s.deleting.settle text }
  | _ => s

/-- The text of an operation, settled from now on. -/
def compile (operation : Operation) : Action (Session σ) String :=
  fun s =>
    match s.draftText operation with
    | .ok text => (.ok text, s.settle operation text)
    | .error e => (.error e, s)

/-! ### Reaching the backend -/

/-- Run an action on the connection, which has to be open. -/
def onConnection (a : Action σ α) : Action (Session σ) α :=
  fun s =>
    if s.isOpen then
      match a s.backend with
      | (r, b) => (r, { s with backend := b })
    else (.error (.connection "connection is closed"), s)

/-- Run an action on the connection if it is open; else answer as told. -/
def ifOpen (closed : α) (a : Action σ α) : Action (Session σ) α :=
  fun s => if s.isOpen then onConnection a s else (.ok closed, s)

/-- Run an action on the held procedure call; `action` names what is attempted where none
is held. -/
def onCall (action : String) (a : Action (Backend.Callable σ × σ) α) : Action (Session σ) α :=
  fun s =>
    match s.calling.handle with
    | some call =>
      match a (call, s.backend) with
      | (r, (call, b)) => (r, { s with backend := b, calling.handle := some call })
    | none => (.error (.invalidOperation action .procedure), s)

/-! ### Life cycle -/

/-- Close the held procedure call, if there is one, and hold none. -/
def releaseCall (s : Session σ) : Session σ :=
  match s.calling.handle with
  | some call => { s with backend := Backend.closeCall call s.backend, calling.handle := none }
  | none => s

/-- Start a procedure call such as `update_stock(?, ?)`.  The call held before is closed
once the new one is prepared. -/
def call (procedure : String) : Action (Session σ) Unit := do
  let handle ← onConnection (Backend.prepareCall procedure)
  Action.modify fun s =>
    { s.releaseCall with
      lastSql := Backend.callText handle
      calling := { name := procedure, handle := some handle } }.start .procedure

/-- Forget all drafts and parameters and release the held call; the connection, the schema
and the database id stay. -/
def reset (s : Session σ) : Session σ :=
  let s := s.releaseCall
  { s with
    operation := .none
    params := []
    selecting := ⟨{}, none⟩
    inserting := ⟨{}, none⟩
    updating := ⟨{}, none⟩
    deleting := ⟨{}, none⟩
    creating := none
    calling := {} }

/-- Release everything and close the connection; closing again does nothing. -/
def close : Action (Session σ) Unit :=
  fun s => ((ifOpen () Backend.close).andThen fun s => { s with isOpen := false }) s.reset

/-- Whether the connection is open and answers. -/
def isValid : Action (Session σ) Bool :=
  ifOpen false Backend.isValid

/-- Whether statements commit on their own; a closed session does not say. -/
def autoCommit? (s : Session σ) : Option Bool :=
  if s.isOpen then some (Backend.autoCommit s.backend) else none

/-- Ask about the catalog. -/
def catalog (request : CatalogRequest) : Action (Session σ) ResultSet :=
  onConnection (Backend.catalog request)

/-! ### Transactions

A closed session has no transaction, and there is nothing to do. -/

/-- Let the following statements run in one transaction. -/
def beginTransaction : Action (Session σ) Unit :=
  ifOpen () (Backend.setAutoCommit false)

def commit : Action (Session σ) Unit :=
  ifOpen () Backend.commit

def rollback : Action (Session σ) Unit :=
  ifOpen () Backend.rollback

/-- Commit, and let each statement commit on its own again. -/
def commitTransaction : Action (Session σ) Unit := do
  commit
  ifOpen () (Backend.setAutoCommit true)

end Session

end SqlSession
