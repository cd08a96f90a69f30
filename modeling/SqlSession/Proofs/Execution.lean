/-
Executions, once the text is there.

An execution first puts the text of its statement together and, if that fails, does nothing
else.  The equations here say what remains of each execution in either case; none of the
later proofs opens the definitions again.
-/
import SqlSession.Proofs.Connection

namespace SqlSession.Session

open SqlSession.Action

variable {σ : Type} [Backend σ]

/-! ### Texts -/

@[simp] theorem settle_backend (operation : Operation) (text : String) (s : Session σ) :
    (s.settle operation text).backend = s.backend := by
  cases operation <;> rfl

@[simp] theorem settle_isOpen (operation : Operation) (text : String) (s : Session σ) :
    (s.settle operation text).isOpen = s.isOpen := by
  cases operation <;> rfl

@[simp] theorem settle_params (operation : Operation) (text : String) (s : Session σ) :
    (s.settle operation text).params = s.params := by
  cases operation <;> rfl

theorem compile_of_text {operation : Operation} {s : Session σ} {text : String}
    (h : s.draftText operation = .ok text) :
    compile operation s = (.ok text, s.settle operation text) := by
  simp only [compile, h]

theorem compile_of_error {operation : Operation} {s : Session σ} {e : DbError}
    (h : s.draftText operation = .error e) : compile operation s = (.error e, s) := by
  simp only [compile, h]

/-! ### Data changes -/

theorem executeChange_of_error {operation : Operation} {s : Session σ} {e : DbError}
    (h : s.draftText operation = .error e) : executeChange operation s = (.error e, s) :=
  bind_of_error (compile_of_error h)

theorem executeChange_of_text {operation : Operation} {s : Session σ} {text : String}
    (h : s.draftText operation = .ok text) :
    executeChange operation s =
      onConnection (runStatement text s.params Backend.executeUpdate)
        (s.settle operation text) := by
  rw [← settle_params operation text s]
  exact bind_of_ok (compile_of_text h)

theorem executeCreate_of_error {s : Session σ} {e : DbError}
    (h : s.draftText .create = .error e) : executeCreate s = (.error e, s) :=
  bind_of_error (compile_of_error h)

theorem executeCreate_of_text {s : Session σ} {text : String}
    (h : s.draftText .create = .ok text) :
    executeCreate s =
      ((onConnection (runStatement text [] Backend.execute) >>= fun _ => pure 0 :
        Action (Session σ) Nat)) (s.settle .create text) :=
  bind_of_ok (compile_of_text h)

/-- Running the active operation, before the parameters are emptied. -/
def executeActive : Action (Session σ) Nat :=
  fun s =>
    match s.operation with
    | .insert | .update | .delete => executeChange s.operation s
    | .create => executeCreate s
    | .procedure => executeCall s
    | .none | .select => (.error (.invalidOperation "execute" s.operation), s)

theorem execute_eq (s : Session σ) : execute s = clearingParams executeActive s := rfl

/-! ### Batches -/

/-- What a batch does with its statement. -/
def useBatch (fields : List String) (records : List Record) :
    Action (Backend.Statement σ × σ) (List Nat) :=
  if fields.isEmpty then fail (.missingFields .insert)
  else do
    fillBatch fields records
    Backend.executeBatch

/-- Putting the text of the INSERT together and running it for a batch. -/
def insertBatch (records : List Record) : Action (Session σ) (List Nat) := do
  let text ← compile .insert
  let fields ← view fun s : Session σ => s.inserting.parts.fields
  onConnection (runStatement text [] (useBatch fields records))

theorem executeBatch_of_ne (records : List Record) {s : Session σ} (h : s.operation ≠ .insert) :
    executeBatch records s =
      (.error (.invalidOperation "execute_batch" s.operation), { s with params := [] }) := by
  simp only [executeBatch, clearingParams, andThen]

theorem executeBatch_of_insert (records : List Record) {s : Session σ}
    (h : s.operation = .insert) :
    executeBatch records s = clearingParams (insertBatch records) s := by
  simp only [executeBatch, clearingParams, andThen, h]
  rfl

theorem insertBatch_of_error (records : List Record) {s : Session σ} {e : DbError}
    (h : s.draftText .insert = .error e) : insertBatch records s = (.error e, s) :=
  bind_of_error (compile_of_error h)

theorem insertBatch_of_text (records : List Record) {s : Session σ} {text : String}
    (h : s.draftText .insert = .ok text) :
    insertBatch records s =
      onConnection (runStatement text [] (useBatch s.inserting.parts.fields records))
        (s.settle .insert text) :=
  bind_of_ok (compile_of_text h)

/-! ### Queries -/

theorem runSelect_of_error {s : Session σ} {e : DbError} (h : s.draftText .select = .error e) :
    runSelect s = (.error e, s) :=
  bind_of_error (compile_of_error h)

/-- The labels under which the active SELECT is read. -/
def selectLabels (s : Session σ) : Except DbError (Option (List String)) :=
  Sql.readLabels s.dialect s.selecting.parts.fields s.selecting.parts.aliases

theorem runSelect_of_unread {s : Session σ} {text : String} {e : DbError}
    (h : s.draftText .select = .ok text) (hl : s.selectLabels = .error e) :
    runSelect s = (.error e, s.settle .select text) := by
  refine (bind_of_ok (compile_of_text h)).trans (bind_of_error ?_)
  exact congrArg (·, s.settle .select text) hl

theorem runSelect_of_text {s : Session σ} {text : String} {labels : Option (List String)}
    (h : s.draftText .select = .ok text) (hl : s.selectLabels = .ok labels) :
    runSelect s =
      ((onConnection (runStatement text s.params Backend.executeQuery) >>= fun rs =>
        pure (rs, labels) : Action (Session σ) (ResultSet × Option (List String))))
        (s.settle .select text) := by
  have hread : (fun s : Session σ => (s.selectLabels, s)) (s.settle .select text) =
      (.ok labels, s.settle .select text) :=
    congrArg (·, s.settle .select text) hl
  exact (bind_of_ok (compile_of_text h)).trans ((bind_of_ok hread).trans (bind_of_ok rfl))

/-! ### Relations that statements keep to

Until its text is there, an execution leaves the connection alone.  So a relation that allows
everything but requests holds of it if it holds of running the statement.
-/

section Relations

variable {R : Session σ → Session σ → Prop}
  (still : ∀ {s t : Session σ}, t.backend = s.backend → R s t)

include still

theorem obeys_executeChange_of_run {operation : Operation}
    (run : ∀ s text, s.draftText operation = .ok text → R s (onConnection
      (runStatement text s.params Backend.executeUpdate) (s.settle operation text)).2) :
    Obeys R (executeChange operation) := by
  intro s
  cases ht : s.draftText operation with
  | error e =>
      rw [executeChange_of_error ht]
      exact still rfl
  | ok text =>
      rw [executeChange_of_text ht]
      exact run s text ht

theorem obeys_insertBatch_of_run (records : List Record)
    (run : ∀ s text, s.draftText .insert = .ok text → R s (onConnection
      (runStatement text [] (useBatch s.inserting.parts.fields records))
      (s.settle .insert text)).2) :
    Obeys R (insertBatch records) := by
  intro s
  cases ht : s.draftText .insert with
  | error e =>
      rw [insertBatch_of_error records ht]
      exact still rfl
  | ok text =>
      rw [insertBatch_of_text records ht]
      exact run s text ht

theorem obeys_runSelect_of_run
    (run : ∀ s text, s.draftText .select = .ok text → R s (onConnection
      (runStatement text s.params Backend.executeQuery) (s.settle .select text)).2) :
    Obeys R runSelect := by
  intro s
  cases ht : s.draftText .select with
  | error e =>
      rw [runSelect_of_error ht]
      exact still rfl
  | ok text =>
      cases hl : s.selectLabels with
      | error e =>
          rw [runSelect_of_unread ht hl]
          exact still (settle_backend _ _ s)
      | ok labels =>
          rw [runSelect_of_text ht hl, bind_pure_snd]
          exact run s text ht

end Relations

/-! ### Procedure calls -/

/-- What running a call for its row count asks of the call. -/
def executeHeld (params : List Value) : Action (Backend.Callable σ × σ) Nat := do
  bindAll Backend.bindCall params
  let _ ← Backend.executeCall
  view fun s => (Backend.updateCount s.1).toNat

/-- What a query asks of the call. -/
def queryHeld (allResults : Bool) (labels : Option (List String)) (params : List Value) :
    Action (Backend.Callable σ × σ) (List Record) := do
  bindAll Backend.bindCall params
  if allResults then collectResults labels
  else do
    let rs ← Backend.queryCall
    ofExcept (rs.records labels)

/-- The labels under which the results of the active call are read. -/
def callLabels (s : Session σ) : Except DbError (Option (List String)) :=
  Sql.readLabels s.dialect s.calling.fields s.calling.aliases

theorem executeCall_eq (s : Session σ) :
    executeCall s = onCall "execute" (executeHeld s.params) s :=
  bind_of_ok rfl

theorem runCall_of_unread (allResults : Bool) {s : Session σ} {e : DbError}
    (h : s.callLabels = .error e) : runCall allResults s = (.error e, s) := by
  have hread : (fun s : Session σ => (s.callLabels, s)) s = (.error e, s) := congrArg (·, s) h
  exact bind_of_error hread

theorem runCall_of_labels (allResults : Bool) {s : Session σ} {labels : Option (List String)}
    (h : s.callLabels = .ok labels) :
    runCall allResults s = onCall "query_procedure" (queryHeld allResults labels s.params) s := by
  have hread : (fun s : Session σ => (s.callLabels, s)) s = (.ok labels, s) := congrArg (·, s) h
  exact (bind_of_ok hread).trans (bind_of_ok rfl)

end SqlSession.Session
