/-
Backends.

A backend is what stands behind a session: it prepares statements and procedure calls,
runs them, controls transactions and describes its catalog.  The type `σ` is the state of
the connection, with all that has been said to the server and all that the server will
answer; statements and calls are values that their owner hands back with every use.

A call delivers its results one after the other, and there are finitely many of them:
`resultsLeft` bounds those still to come, and every step to a further result lowers it.
-/
import SqlSession.Action
import SqlSession.ResultSet
import SqlSession.Value.TypeCode

namespace SqlSession

/-- A question about the catalog.  An empty catalog or schema name, or none, means any. -/
inductive CatalogRequest where
  /-- Rows labelled `TABLE_CAT`. -/
  | catalogs
  /-- Rows labelled `TABLE_SCHEM`. -/
  | schemas
  /-- Rows labelled `TABLE_CAT`, `TABLE_SCHEM`, `TABLE_NAME`, `TABLE_TYPE`. -/
  | tables (catalog schema : Option String)
  /-- Rows labelled `COLUMN_NAME`, `DATA_TYPE`, `TYPE_NAME`, `COLUMN_SIZE`, `IS_NULLABLE`,
  `ORDINAL_POSITION`, in that order of the columns. -/
  | columns (catalog schema : Option String) (table : String)
  /-- Rows labelled `COLUMN_NAME`, `KEY_SEQ`. -/
  | primaryKeys (catalog schema : Option String) (table : String)
  /-- Rows labelled `INDEX_NAME`, `NON_UNIQUE`, `COLUMN_NAME`, `ORDINAL_POSITION`. -/
  | indexInfo (catalog schema : Option String) (table : String)
  deriving DecidableEq, Repr

/-- What can be asked of a connection whose state is a `σ`. -/
class Backend (σ : Type) where
  /-- A prepared statement. -/
  Statement : Type
  /-- A prepared procedure call. -/
  Callable : Type
  prepare : String → Action σ Statement
  prepareCall : String → Action σ Callable
  setAutoCommit : Bool → Action σ Unit
  autoCommit : σ → Bool
  commit : Action σ Unit
  rollback : Action σ Unit
  /-- Whether the connection still answers. -/
  isValid : Action σ Bool
  close : Action σ Unit
  catalog : CatalogRequest → Action σ ResultSet
  /-- Bind a value at a position of a statement. -/
  bind : Nat → Value → Action (Statement × σ) Unit
  /-- Run a statement that changes data; the answer is the number of rows affected. -/
  executeUpdate : Action (Statement × σ) Nat
  executeQuery : Action (Statement × σ) ResultSet
  /-- Run any statement; the answer tells whether it produced rows. -/
  execute : Action (Statement × σ) Bool
  /-- Put the bound values into the batch. -/
  addBatch : Action (Statement × σ) Unit
  /-- Run every entry of the batch; the answer is their row counts. -/
  executeBatch : Action (Statement × σ) (List Nat)
  closeStatement : Statement → σ → σ
  /-- The text of a call, as it is sent. -/
  callText : Callable → String
  /-- Bind a value at a position of a call. -/
  bindCall : Nat → Value → Action (Callable × σ) Unit
  /-- Declare a position of a call to be an out parameter. -/
  register : Nat → TypeCode → Action (Callable × σ) Unit
  /-- Run a call; the answer tells whether its first result is a result set. -/
  executeCall : Action (Callable × σ) Bool
  /-- Run a call for its first result set. -/
  queryCall : Action (Callable × σ) ResultSet
  /-- Take the current result, if it is a result set. -/
  resultSet : Action (Callable × σ) (Option ResultSet)
  /-- Go to the next result; the answer tells whether it is a result set. -/
  moreResults : Action (Callable × σ) Bool
  /-- The current result if it is a row count, else -1. -/
  updateCount : Callable → Int
  /-- The value of an out parameter after a run. -/
  outValue : Nat → Callable → σ → Except DbError (Option Value)
  closeCall : Callable → σ → σ
  /-- A bound on the results behind the current one. -/
  resultsLeft : Callable → Nat
  resultsLeft_of_failed : ∀ {s s' : Callable × σ} {e : DbError},
    moreResults s = (.error e, s') → resultsLeft s'.1 ≤ resultsLeft s.1
  resultsLeft_of_rows : ∀ {s s' : Callable × σ},
    moreResults s = (.ok true, s') → resultsLeft s'.1 < resultsLeft s.1
  resultsLeft_of_count : ∀ {s s' : Callable × σ},
    moreResults s = (.ok false, s') → updateCount s'.1 ≠ -1 → resultsLeft s'.1 < resultsLeft s.1
  resultsLeft_of_taken : ∀ {s s' : Callable × σ} {r : Except DbError (Option ResultSet)},
    resultSet s = (r, s') → resultsLeft s'.1 ≤ resultsLeft s.1

end SqlSession
