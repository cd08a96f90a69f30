/-
The methods of a session, as data.

A caller holds a session and calls its methods one after the other, in any order and with
any arguments; each may fail, and the session is used further all the same.  `Method` lists
them, `perform` runs one and `run` a list, so that a statement about every reachable session
is one about every list of methods.  The views of the state that a caller can read between
two calls change nothing and are left out.
-/
import SqlSession.Session.Procedure

namespace SqlSession

/-- A kind of statement that a session puts together from parts. -/
inductive Kind where
  | select
  | insert
  | update
  | delete
  deriving DecidableEq

/-- The operation that builds a kind of statement. -/
def Kind.operation : Kind → Operation
  | .select => .select
  | .insert => .insert
  | .update => .update
  | .delete => .delete

/-- A method of a session with its arguments. -/
inductive Method where
  | setDatabaseId (id : String)
  | select (fields : List String)
  | insert (table : String)
  | update (table : String)
  | delete (table : String)
  | sql (text : String)
  | call (procedure : String)
  | fields (fields : List String)
  | aliases (aliases : List String)
  | source (source : String)
  | condition (condition : String)
  | order (order : String)
  | limit (limit : Nat)
  | schema (schema : String)
  | param (v : Value)
  | paramAt (position : Nat) (v : Value)
  /-- Ask for the text of a statement, which is put together if it is not yet. -/
  | text (kind : Kind)
  | execute
  | executeBatch (records : List Record)
  | query
  | queryUnique
  | queryCount
  | queryProcedure (allResults : Bool)
  | outParam (position : Nat) (type : OutType)
  | reset
  | close
  | isValid
  | catalog (request : CatalogRequest)
  | beginTransaction
  | commit
  | rollback
  | commitTransaction
  deriving DecidableEq

/-- What a method answers. -/
inductive Answer where
  | done
  | text (text : String)
  | count (n : Nat)
  | counts (ns : List Nat)
  | records (records : List Record)
  | record (record : Record)
  | number (n : Int64)
  | flag (b : Bool)
  | rows (rs : ResultSet)
  deriving DecidableEq

namespace Session

variable {σ : Type} [Backend σ] {α : Type}

/-- A session on a connection, with nothing asked of it yet. -/
def fresh (product : Product) (backend : σ) : Session σ :=
  { backend, product }

/-- A method that cannot fail. -/
def step (f : Session σ → Session σ) : Action (Session σ) Answer :=
  fun s => (.ok .done, f s)

/-- A method that may fail. -/
def attempt (answer : α → Answer) (a : Action (Session σ) α) : Action (Session σ) Answer :=
  fun s => ((a s).1.map answer, (a s).2)

/-- Run a method. -/
def perform : Method → Action (Session σ) Answer
  | .setDatabaseId id => step (setDatabaseId id)
  | .select fields => step (select fields)
  | .insert table => step (insert table)
  | .update table => step (update table)
  | .delete table => step (delete table)
  | .sql text => step (sql text)
  | .call procedure => attempt (fun _ => .done) (call procedure)
  | .fields fields => step (setFields fields)
  | .aliases aliases => step (setAliases aliases)
  | .source source => step (setSource source)
  | .condition condition => step (setCondition condition)
  | .order order => step (setOrder order)
  | .limit limit => step (setLimit limit)
  | .schema schema => step (setSchema schema)
  | .param v => step (addParam v)
  | .paramAt position v => step (setParam position v)
  | .text kind => attempt .text (compile kind.operation)
  | .execute => attempt .count execute
  | .executeBatch records => attempt .counts (executeBatch records)
  | .query => attempt .records query
  | .queryUnique => attempt .record queryUnique
  | .queryCount => attempt .number queryCount
  | .queryProcedure allResults => attempt .records (queryProcedure allResults)
  | .outParam position type => attempt (fun _ => .done) (outParam position type)
  | .reset => step reset
  | .close => attempt (fun _ => .done) close
  | .isValid => attempt .flag isValid
  | .catalog request => attempt .rows (catalog request)
  | .beginTransaction => attempt (fun _ => .done) beginTransaction
  | .commit => attempt (fun _ => .done) commit
  | .rollback => attempt (fun _ => .done) rollback
  | .commitTransaction => attempt (fun _ => .done) commitTransaction

/-- The session after some methods, whatever each of them has answered. -/
def run (methods : List Method) (s : Session σ) : Session σ :=
  methods.foldl (fun s m => (perform m s).2) s

@[simp] theorem run_nil (s : Session σ) : run [] s = s := rfl

@[simp] theorem run_cons (m : Method) (ms : List Method) (s : Session σ) :
    run (m :: ms) s = run ms (perform m s).2 := rfl

/-- What holds at first and is kept by every method holds after every run. -/
theorem run_induction {P : Session σ → Prop} (keep : ∀ m s, P s → P (perform m s).2)
    (ms : List Method) {s : Session σ} (h : P s) : P (run ms s) := by
  induction ms generalizing s with
  | nil => exact h
  | cons m ms ih => exact ih (keep m s h)

end Session

end SqlSession
