/-
The results of a procedure call.

A call delivers result sets and row counts one after the other.  The current one can be
looked at, and taken if it is a result set; the others wait in order.
-/
import SqlSession.ResultSet

namespace SqlSession

/-- One result of a procedure call. -/
inductive CallResult where
  | rows (rs : ResultSet)
  | count (n : Int)
  deriving DecidableEq, Repr

/-- The current result of a call and those behind it. -/
structure CallResults where
  current : Option CallResult := none
  pending : List CallResult := []
  deriving DecidableEq, Repr

namespace CallResults

/-- The first of some results is the current one. -/
def ofList (results : List CallResult) : CallResults :=
  ⟨results.head?, results.tail⟩

/-- Go to the next result. -/
def next (r : CallResults) : CallResults :=
  ofList r.pending

/-- The current result is a result set. -/
def hasRows (r : CallResults) : Bool :=
  match r.current with
  | some (.rows _) => true
  | _ => false

/-- Take the current result if it is a result set. -/
def take (r : CallResults) : Option ResultSet × CallResults :=
  match r.current with
  | some (.rows rs) => (some rs, { r with current := none })
  | _ => (none, r)

/-- The current result if it is a row count, else -1. -/
def updateCount (r : CallResults) : Int :=
  match r.current with
  | some (.count n) => n
  | _ => -1

theorem length_pending_next_of_hasRows {r : CallResults} (h : r.next.hasRows = true) :
    r.next.pending.length < r.pending.length := by
  cases hp : r.pending <;> simp_all [next, ofList, hasRows]

theorem length_pending_next_of_updateCount {r : CallResults} (h : r.next.updateCount ≠ -1) :
    r.next.pending.length < r.pending.length := by
  cases hp : r.pending <;> simp_all [next, ofList, updateCount]

@[simp] theorem pending_take (r : CallResults) : r.take.2.pending = r.pending := by
  unfold take
  split <;> rfl

end CallResults

end SqlSession
