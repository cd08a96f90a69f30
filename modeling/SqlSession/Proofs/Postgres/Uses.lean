/-
What is done with a statement or a call.

Whoever holds a statement or a call may use it in any order and as often as wanted, whatever the
uses before have answered.  In between the connection serves others, so each use comes with the
connection that it finds, which may be any.  What is read off a call, its update count and its out
values, does nothing to it and is no use.

Most laws about calls are about what runs and results leave alone, which is everything but the
results and the out values: `Call.bare` is the call without these.
-/
import SqlSession.Postgres.Call
import SqlSession.Proofs.Action

namespace SqlSession.Postgres

section

variable {Held Use : Type}

/-- What is held after some uses, each of which finds a connection of its own. -/
def useAll (use : Use → Held × Connection → Held × Connection) (uses : List (Connection × Use))
    (held : Held) : Held :=
  uses.foldl (fun held (c, u) => (use u (held, c)).1) held

variable {use : Use → Held × Connection → Held × Connection}

theorem useAll_append (uses uses' : List (Connection × Use)) (held : Held) :
    useAll use (uses ++ uses') held = useAll use uses' (useAll use uses held) :=
  List.foldl_append

/-- What no use undoes is there after any uses. -/
theorem useAll_induction {P : Held → Prop} {uses : List (Connection × Use)}
    (hstep : ∀ u ∈ uses, ∀ held, P held → P (use u.2 (held, u.1)).1) {held : Held} (h : P held) :
    P (useAll use uses held) := by
  induction uses generalizing held with
  | nil => exact h
  | cons u uses ih =>
      exact ih (fun u' hu' => hstep u' (List.mem_cons_of_mem u hu'))
        (hstep u (List.mem_cons_self ..) held h)

/-- What every use leaves alone is as it was. -/
theorem useAll_keeps {β : Type} {f : Held → β} {uses : List (Connection × Use)}
    (h : ∀ u ∈ uses, ∀ t, f (use u.2 t).1 = f t.1) (held : Held) :
    f (useAll use uses held) = f held := by
  refine useAll_induction (P := fun held' : Held => f held' = f held) ?_ rfl
  intro u hu held' hheld'
  exact (h u hu (held', u.1)).trans hheld'

end

namespace Statement

/-- Something that is done with a statement. -/
inductive Use where
  | bind (position : Nat) (v : Value)
  | clearParams
  | executeUpdate
  | executeQuery
  | execute
  | addBatch
  | executeBatch
  | close

/-- The statement and the connection after a use, whatever it has answered. -/
def use : Use → Statement × Connection → Statement × Connection
  | .bind position v, s => (bind position v s).2
  | .clearParams, s => (s.1.clearParams, s.2)
  | .executeUpdate, s => (executeUpdate s).2
  | .executeQuery, s => (executeQuery s).2
  | .execute, s => (execute s).2
  | .addBatch, s => (addBatch s).2
  | .executeBatch, s => (executeBatch s).2
  | .close, s => (s.1.close, s.2)

end Statement

namespace Call

/-- Something that is done with a call. -/
inductive Use where
  | bind (position : Nat) (v : Value)
  | register (position : Nat) (type : TypeCode)
  | execute
  | query
  | resultSet
  | moreResults
  | close

/-- The call and the connection after a use, whatever it has answered. -/
def use : Use → Call × Connection → Call × Connection
  | .bind position v, s => (bind position v s).2
  | .register position type, s => (register position type s).2
  | .execute, s => (execute s).2
  | .query, s => (query s).2
  | .resultSet, s => (resultSet s).2
  | .moreResults, s => (moreResults s).2
  | .close, s => (s.1.close, s.2)

/-- The call without what its runs have given. -/
def bare (call : Call) : Call :=
  { call with results := {}, outValues := [] }

variable {call : Call} {c c' : Connection}

theorem execute_of_closed (h : call.isOpen = false) :
    execute (call, c) = (.error (closedError call.text), (call, c)) := by
  simp [execute, h]

/-- A run begins with nothing of the runs before. -/
theorem execute_of_open (h : call.isOpen = true) (c : Connection) :
    execute (call, c) =
      match runFresh call.bare c with
      | (.error e, c) => (.error e, (call.bare, c))
      | (.ok result, c) =>
        (.ok (call.bare.withResult result).results.hasRows, (call.bare.withResult result, c)) :=
  if_pos h

theorem execute_of_failed {e : DbError} (h : call.isOpen = true)
    (hrun : runFresh call.bare c = (.error e, c')) :
    execute (call, c) = (.error e, (call.bare, c')) := by
  rw [execute_of_open h, hrun]

theorem execute_of_run {result : CallResult} (h : call.isOpen = true)
    (hrun : runFresh call.bare c = (.ok result, c')) :
    execute (call, c) =
      (.ok (call.bare.withResult result).results.hasRows, (call.bare.withResult result, c')) := by
  rw [execute_of_open h, hrun]

theorem bare_withResult (result : CallResult) (call : Call) :
    (call.withResult result).bare = call.bare := by
  unfold withResult
  split
  · rfl
  · split
    · rfl
    · split <;> rfl

theorem bare_execute (t : Call × Connection) : (execute t).2.1.bare = t.1.bare := by
  obtain ⟨call, c⟩ := t
  by_cases hopen : call.isOpen = true
  · rcases hrun : runFresh call.bare c with ⟨e | result, c'⟩
    · rw [execute_of_failed hopen hrun]
      rfl
    · rw [execute_of_run hopen hrun, bare_withResult]
      rfl
  · rw [execute_of_closed (by simpa using hopen)]

/-- What taking a result leaves alone is as the run has left it. -/
theorem query_eq_execute {α : Type} {part : Call → α}
    (h : ∀ call results, part { call with results } = part call) (t : Call × Connection) :
    part (query t).2.1 = part (execute t).2.1 := by
  have hkeeps (found : Bool) : Action.Keeps (fun t : Call × Connection => part t.1)
      (if found then do return (← resultSet).getD .empty else return .empty) := by
    intro t
    cases found with
    | false => rfl
    | true => exact h t.1 t.1.results.take.2
  exact Action.Keeps.bind_eq (a := execute) hkeeps t

theorem bare_query (t : Call × Connection) : (query t).2.1.bare = t.1.bare :=
  (query_eq_execute (fun _ _ => rfl) t).trans (bare_execute t)

end Call

end SqlSession.Postgres
