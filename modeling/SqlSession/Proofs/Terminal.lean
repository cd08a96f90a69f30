/-
The methods that end a statement, and the parameters they leave.

A terminal method runs what the session has built.  The parameters belong to that one
execution, and every terminal method that takes the active operation empties them, wherever
it stops: in putting the text together, in binding, in running or in reading the answer.

`execute` and `executeBatch` take every operation, if only to refuse it.  A query looks at
the operation first and answers before it has begun where it does not fit, and there the
parameters stay as they are.  `params_terminal` says that this is the only way in which
parameters survive.
-/
import SqlSession.Backend.Scripted
import SqlSession.Proofs.Execution
import SqlSession.Proofs.Method

namespace SqlSession

/-- A method that runs what the session has built. -/
inductive Terminal where
  | execute
  | executeBatch (records : List Record)
  | query
  | queryUnique
  | queryCount
  | queryProcedure (allResults : Bool)
  deriving DecidableEq

namespace Terminal

/-- The terminal method among all methods. -/
def method : Terminal → Method
  | .execute => .execute
  | .executeBatch records => .executeBatch records
  | .query => .query
  | .queryUnique => .queryUnique
  | .queryCount => .queryCount
  | .queryProcedure allResults => .queryProcedure allResults

/-- The method's name, as error messages show it. -/
def name : Terminal → String
  | .execute => "execute"
  | .executeBatch _ => "execute_batch"
  | .query => "query"
  | .queryUnique => "query_unique"
  | .queryCount => "query_count"
  | .queryProcedure _ => "query_procedure"

/-- The method begins on this operation.  Only queries look at the operation before they
begin. -/
def takes : Terminal → Operation → Bool
  | .execute, _ | .executeBatch _, _ => true
  | .query, operation => operation == .select || operation == .procedure
  | .queryUnique, operation | .queryCount, operation => operation == .select
  | .queryProcedure _, operation => operation == .procedure

end Terminal

namespace Session

variable {σ : Type} [Backend σ] {α : Type}

@[simp] theorem params_clearingParams (a : Action (Session σ) α) (s : Session σ) :
    (clearingParams a s).2.params = [] := rfl

/-! ### One query at a time -/

/-- A query runs its SELECT and reads what comes of it. -/
theorem select?_of_select (action : String)
    (read : Except DbError (ResultSet × Option (List String)) → Except DbError α)
    {s : Session σ} (h : s.operation = .select) :
    select? action read s = (read (runSelect s).1, { (runSelect s).2 with params := [] }) := by
  simp only [select?, h]
  rfl

theorem params_select? (action : String)
    (read : Except DbError (ResultSet × Option (List String)) → Except DbError α)
    {s : Session σ} (h : s.operation = .select) : (select? action read s).2.params = [] := by
  rw [select?_of_select action read h]

theorem select?_of_ne (action : String)
    (read : Except DbError (ResultSet × Option (List String)) → Except DbError α)
    {s : Session σ} (h : s.operation ≠ .select) :
    select? action read s = (.error (.invalidOperation action s.operation), s) := by
  simp only [select?]

theorem params_queryProcedure (allResults : Bool) {s : Session σ}
    (h : s.operation = .procedure) : (queryProcedure allResults s).2.params = [] := by
  simp only [queryProcedure, h, params_clearingParams]

theorem queryProcedure_of_ne (allResults : Bool) {s : Session σ} (h : s.operation ≠ .procedure) :
    queryProcedure allResults s =
      (.error (.invalidOperation "query_procedure" s.operation), s) := by
  simp only [queryProcedure]

/-! ### What terminal methods do to a session

Each terminal method refuses the operation, or does one thing for it and empties the
parameters.  A relation between sessions that allows refusing and emptying holds of the
method if it holds of the things that it may do.
-/

section Relations

open SqlSession.Action

variable {R : Session σ → Session σ → Prop} (refl : ∀ s, R s s)
  (clear : ∀ {s t}, R s t → R s { t with params := [] })

include refl clear

theorem obeys_execute (change : ∀ operation, Obeys R (executeChange operation))
    (create : Obeys R executeCreate) (procedure : Obeys R executeCall) :
    Obeys R (execute (σ := σ)) := by
  intro s
  have hactive : R s (executeActive s).2 := by
    unfold executeActive
    cases s.operation with
    | none => exact refl s
    | select => exact refl s
    | insert => exact change .insert s
    | update => exact change .update s
    | delete => exact change .delete s
    | create => exact create s
    | procedure => exact procedure s
  rw [execute_eq]
  exact clear hactive

theorem obeys_executeBatch (records : List Record) (batch : Obeys R (insertBatch records)) :
    Obeys R (executeBatch (σ := σ) records) := by
  intro s
  by_cases hop : s.operation = .insert
  · rw [executeBatch_of_insert records hop]
    exact clear (batch s)
  · rw [executeBatch_of_ne records hop]
    exact clear (refl s)

theorem obeys_select? (action : String)
    (read : Except DbError (ResultSet × Option (List String)) → Except DbError α)
    (select : Obeys R runSelect) : Obeys R (select? (σ := σ) action read) := by
  intro s
  by_cases hop : s.operation = .select
  · rw [select?_of_select action read hop]
    exact clear (select s)
  · rw [select?_of_ne action read hop]
    exact refl s

theorem obeys_queryProcedure (allResults : Bool) (procedure : Obeys R (runCall allResults)) :
    Obeys R (queryProcedure (σ := σ) allResults) := by
  intro s
  by_cases hop : s.operation = .procedure
  · simp only [queryProcedure, hop]
    exact clear (procedure s)
  · rw [queryProcedure_of_ne allResults hop]
    exact refl s

theorem obeys_query (select : Obeys R runSelect) (procedure : Obeys R (runCall false)) :
    Obeys R (query (σ := σ)) := by
  intro s
  unfold query
  split
  · exact obeys_queryProcedure refl clear false procedure s
  · exact obeys_select? refl clear _ _ select s

/-- What holds of everything that a terminal method may do holds of the method. -/
theorem obeys_terminal (change : ∀ operation, Obeys R (executeChange operation))
    (create : Obeys R executeCreate) (call : Obeys R executeCall)
    (batch : ∀ records, Obeys R (insertBatch records)) (select : Obeys R runSelect)
    (procedure : ∀ allResults, Obeys R (runCall allResults)) (t : Terminal) :
    Obeys R (perform (σ := σ) t.method) := by
  intro s
  cases t with
  | execute => exact obeys_execute refl clear change create call s
  | executeBatch records => exact obeys_executeBatch refl clear records (batch records) s
  | query => exact obeys_query refl clear select (procedure false) s
  | queryUnique =>
      have h : R s (queryUnique s).2 := obeys_select? refl clear _ _ select s
      exact h
  | queryCount =>
      have h : R s (queryCount s).2 := obeys_select? refl clear _ _ select s
      exact h
  | queryProcedure allResults =>
      exact obeys_queryProcedure refl clear allResults (procedure allResults) s

end Relations

/-! ### Every terminal method -/

/-- A terminal method that does not take the active operation does nothing but say so. -/
theorem perform_of_not_takes {t : Terminal} {s : Session σ} (h : t.takes s.operation = false) :
    perform t.method s = (.error (.invalidOperation t.name s.operation), s) := by
  cases t with
  | execute => cases h
  | executeBatch records => cases h
  | query =>
      have hs : s.operation ≠ .select := by intro hs; simp [Terminal.takes, hs] at h
      have hp : s.operation ≠ .procedure := by intro hp; simp [Terminal.takes, hp] at h
      have hq : query s = (.error (.invalidOperation "query" s.operation), s) := by
        simp only [query]
        exact select?_of_ne "query" _ hs
      simp only [Terminal.method, perform, attempt, hq, Terminal.name]
      rfl
  | queryUnique =>
      have hs : s.operation ≠ .select := by intro hs; simp [Terminal.takes, hs] at h
      simp only [Terminal.method, perform, attempt, queryUnique, select?_of_ne _ _ hs,
        Terminal.name]
      rfl
  | queryCount =>
      have hs : s.operation ≠ .select := by intro hs; simp [Terminal.takes, hs] at h
      simp only [Terminal.method, perform, attempt, queryCount, select?_of_ne _ _ hs,
        Terminal.name]
      rfl
  | queryProcedure allResults =>
      have hp : s.operation ≠ .procedure := by intro hp; simp [Terminal.takes, hp] at h
      simp only [Terminal.method, perform, attempt, queryProcedure_of_ne _ hp, Terminal.name]
      rfl

/-- A terminal method that takes the active operation leaves no parameter, however it ends. -/
theorem params_of_takes {t : Terminal} {s : Session σ} (h : t.takes s.operation = true) :
    (perform t.method s).2.params = [] := by
  cases t with
  | execute => rfl
  | executeBatch records => rfl
  | query =>
      have hop : s.operation = .select ∨ s.operation = .procedure := by
        simpa [Terminal.takes] using h
      show (query s).2.params = []
      rcases hop with hs | hp
      · simp only [query, hs]
        exact params_select? _ _ hs
      · simp only [query, hp]
        exact params_queryProcedure _ hp
  | queryUnique => exact params_select? _ _ (by simpa [Terminal.takes] using h)
  | queryCount => exact params_select? _ _ (by simpa [Terminal.takes] using h)
  | queryProcedure allResults =>
      exact params_queryProcedure _ (by simpa [Terminal.takes] using h)

/--
**Parameters survive a terminal method only where it is refused.**  After any terminal
method, whatever operation is active and whatever the backend answers, the parameters are
empty exactly if they were empty before or the method takes the active operation; where it
does not, it answers with the error that says so and the session stays as it is.
-/
theorem params_terminal (t : Terminal) (s : Session σ) :
    ((perform t.method s).2.params = [] ↔ s.params = [] ∨ t.takes s.operation = true) ∧
      (t.takes s.operation = false →
        perform t.method s = (.error (.invalidOperation t.name s.operation), s)) := by
  refine ⟨?_, perform_of_not_takes⟩
  cases h : t.takes s.operation with
  | true => simp only [params_of_takes h, or_true]
  | false => simp only [perform_of_not_takes h, Bool.false_eq_true, or_false]

/-- A query on an INSERT is refused and leaves the parameter where the next execution finds
it. -/
theorem query_on_insert_keeps_params :
    ¬ ∀ (t : Terminal) (ms : List Method),
      (perform t.method (run ms (fresh .postgreSql ({} : Scripted.Connection)))).2.params = [] := by
  intro h
  have := h .query [.insert "book", .param .null]
  exact absurd this (by decide)

end Session

end SqlSession
