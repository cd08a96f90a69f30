/-
Traces of a backend.

What a session asks of its backend, and in which order, is not part of the session's state:
a backend may keep it or forget it.  `Traced σ` is a backend over any other one that passes
every request on unchanged and writes it down, with whether it succeeded.  A statement or a
call gets a number when it is prepared, the length of the log at that moment, so that no
two of them ever share one and the log tells them apart.

A run of a call is written down with the handle that is run, since what the handle holds by
then is what the procedure is called with.
-/
import SqlSession.Session.Procedure

namespace SqlSession

/-- A request to a backend.  Statements and calls go by their numbers. -/
inductive Request (Callable : Type) where
  | prepare (statement : Nat) (text : String)
  | bind (statement position : Nat) (v : Value)
  | executeUpdate (statement : Nat)
  | executeQuery (statement : Nat)
  | execute (statement : Nat)
  | addBatch (statement : Nat)
  | executeBatch (statement : Nat)
  | closeStatement (statement : Nat)
  | prepareCall (call : Nat) (procedure : String)
  | bindCall (call position : Nat) (v : Value)
  | register (call position : Nat) (type : TypeCode)
  | executeCall (call : Nat) (held : Callable)
  | queryCall (call : Nat) (held : Callable)
  | resultSet (call : Nat)
  | moreResults (call : Nat)
  | closeCall (call : Nat)
  | setAutoCommit (on : Bool)
  | commit
  | rollback
  | isValid
  | close
  | catalog (request : CatalogRequest)
  deriving DecidableEq

/-- A request that was made, and whether it succeeded. -/
structure Event (Callable : Type) where
  request : Request Callable
  done : Bool
  deriving DecidableEq

/-- A statement or call with its number. -/
structure Handle (Held : Type) where
  number : Nat
  held : Held

/-- A backend with the log of what it has been asked so far. -/
structure Traced (σ : Type) [Backend σ] where
  inner : σ
  log : List (Event (Backend.Callable σ)) := []

namespace Request

variable {Callable : Type}

/-- The statement that a request uses or closes; preparing it does neither. -/
def statement? : Request Callable → Option Nat
  | .bind n .. | .executeUpdate n | .executeQuery n | .execute n | .addBatch n | .executeBatch n
  | .closeStatement n => some n
  | _ => none

/-- The call that a request uses or closes; preparing it does neither. -/
def call? : Request Callable → Option Nat
  | .bindCall n .. | .register n .. | .executeCall n _ | .queryCall n _ | .resultSet n
  | .moreResults n | .closeCall n => some n
  | _ => none

/-- The call that a request uses; closing it is no use of it. -/
def usesCall? : Request Callable → Option Nat
  | .bindCall n .. | .register n .. | .executeCall n _ | .queryCall n _ | .resultSet n
  | .moreResults n => some n
  | _ => none

theorem call?_of_usesCall? {request : Request Callable} {n : Nat}
    (h : request.usesCall? = some n) : request.call? = some n := by
  cases request <;> first | exact h | cases h

/-- The call that a request is about, be it preparing, using or closing it. -/
def about? : Request Callable → Option Nat
  | .prepareCall n _ => some n
  | request => request.call?

theorem call?_of_about? {request : Request Callable} (h : request.about? = none) :
    request.call? = none := by
  cases request <;> first | exact h | cases h

/-- The handle with which a procedure is run. -/
def run? : Request Callable → Option (Handle Callable)
  | .executeCall n held | .queryCall n held => some ⟨n, held⟩
  | _ => none

end Request

namespace Traced

variable {σ : Type} [Backend σ] {Held α : Type}

/-- Pass a request on and write it down. -/
def ask (request : Request (Backend.Callable σ)) (a : Action σ α) : Action (Traced σ) α :=
  fun t =>
    ((a t.inner).1, ⟨(a t.inner).2, t.log ++ [⟨request, (a t.inner).1.isOk⟩]⟩)

/-- Pass a request about a statement or call on and write it down. -/
def use (request : Nat → Held → Request (Backend.Callable σ)) (a : Action (Held × σ) α) :
    Action (Handle Held × Traced σ) α :=
  fun (h, t) =>
    let answer := a (h.held, t.inner)
    (answer.1, (⟨h.number, answer.2.1⟩,
      ⟨answer.2.2, t.log ++ [⟨request h.number h.held, answer.1.isOk⟩]⟩))

/-- Prepare a statement or call and number it. -/
def prepare (request : Nat → Request (Backend.Callable σ)) (a : Action σ Held) :
    Action (Traced σ) (Handle Held) :=
  fun t =>
    match ask (request t.log.length) a t with
    | (r, t') => (r.map (Handle.mk t.log.length), t')

theorem prepare_of_ok {request : Nat → Request (Backend.Callable σ)} {a : Action σ Held}
    {t : Traced σ} {x : Held} {b : σ} (h : a t.inner = (.ok x, b)) :
    prepare request a t =
      (.ok ⟨t.log.length, x⟩, ⟨b, t.log ++ [⟨request t.log.length, true⟩]⟩) := by
  simp only [prepare, ask, h]
  rfl

theorem prepare_of_error {request : Nat → Request (Backend.Callable σ)} {a : Action σ Held}
    {t : Traced σ} {e : DbError} {b : σ} (h : a t.inner = (.error e, b)) :
    prepare request a t = (.error e, ⟨b, t.log ++ [⟨request t.log.length, false⟩]⟩) := by
  simp only [prepare, ask, h]
  rfl

/-- Close a statement or call, which cannot fail. -/
def release (request : Nat → Request (Backend.Callable σ)) (close : Held → σ → σ)
    (h : Handle Held) (t : Traced σ) : Traced σ :=
  ⟨close h.held t.inner, t.log ++ [⟨request h.number, true⟩]⟩

instance : Backend (Traced σ) where
  Statement := Handle (Backend.Statement σ)
  Callable := Handle (Backend.Callable σ)
  prepare text := prepare (fun n => .prepare n text) (Backend.prepare text)
  prepareCall procedure :=
    prepare (fun n => .prepareCall n procedure) (Backend.prepareCall procedure)
  setAutoCommit on := ask (.setAutoCommit on) (Backend.setAutoCommit on)
  autoCommit t := Backend.autoCommit t.inner
  commit := ask .commit Backend.commit
  rollback := ask .rollback Backend.rollback
  isValid := ask .isValid Backend.isValid
  close := ask .close Backend.close
  catalog request := ask (.catalog request) (Backend.catalog request)
  bind position v := use (fun n _ => .bind n position v) (Backend.bind position v)
  executeUpdate := use (fun n _ => .executeUpdate n) Backend.executeUpdate
  executeQuery := use (fun n _ => .executeQuery n) Backend.executeQuery
  execute := use (fun n _ => .execute n) Backend.execute
  addBatch := use (fun n _ => .addBatch n) Backend.addBatch
  executeBatch := use (fun n _ => .executeBatch n) Backend.executeBatch
  closeStatement := release .closeStatement Backend.closeStatement
  callText h := Backend.callText h.held
  bindCall position v := use (fun n _ => .bindCall n position v) (Backend.bindCall position v)
  register position type :=
    use (fun n _ => .register n position type) (Backend.register position type)
  executeCall := use .executeCall Backend.executeCall
  queryCall := use .queryCall Backend.queryCall
  resultSet := use (fun n _ => .resultSet n) Backend.resultSet
  moreResults := use (fun n _ => .moreResults n) Backend.moreResults
  updateCount h := Backend.updateCount h.held
  outValue position h t := Backend.outValue position h.held t.inner
  closeCall := release .closeCall Backend.closeCall
  resultsLeft h := Backend.resultsLeft h.held
  resultsLeft_of_failed {s s' e} h := by
    obtain ⟨hr, rfl⟩ := Prod.mk.inj h
    exact Backend.resultsLeft_of_failed (Prod.ext hr rfl)
  resultsLeft_of_rows {s s'} h := by
    obtain ⟨hr, rfl⟩ := Prod.mk.inj h
    exact Backend.resultsLeft_of_rows (Prod.ext hr rfl)
  resultsLeft_of_count {s s'} h hc := by
    obtain ⟨hr, rfl⟩ := Prod.mk.inj h
    exact Backend.resultsLeft_of_count (Prod.ext hr rfl) hc
  resultsLeft_of_taken {s s' r} h := by
    obtain ⟨hr, rfl⟩ := Prod.mk.inj h
    exact Backend.resultsLeft_of_taken (Prod.ext hr rfl)

end Traced

end SqlSession
