/-
A batch, record by record.

Filling a batch binds a record and puts it away before it looks at the next one, so what it
has written when it ends is a whole number of entries, and, if it was stopped, the part of
the record that stopped it.  The log says so of every backend (`FillLog`); the theorem here
reads off it when the batch is run and which record the error carries.

What the entries hold is up to the backend.  `QueuesBound` says of one that putting into the
batch takes what is bound and leaves nothing bound, as the server's statements do; then each
record starts from an empty statement, and the batch holds the values of the records, one
entry for each.
-/
import SqlSession.Proofs.BatchLog
import SqlSession.Proofs.BoundValues
import SqlSession.Proofs.Transparency

namespace SqlSession

open SqlSession.Action Traced

variable {σ : Type} [Backend σ]

/-! ### Statements that queue what is bound -/

/-- `params` tells what is bound to a statement and `queue` what is in its batch: nothing at
first; binding writes to the one, and putting into the batch moves it into the other. -/
structure QueuesBound (params : Backend.Statement σ → List Value)
    (queue : Backend.Statement σ → List (List Value)) : Prop where
  prepared : ∀ {text : String} {b b' : σ} {st : Backend.Statement σ},
    Backend.prepare text b = (.ok st, b') → params st = [] ∧ queue st = []
  bound : ∀ {position : Nat} {v : Value} {s s' : Backend.Statement σ × σ},
    Backend.bind position v s = (.ok (), s') →
      Params.bindAt (params s.1) position v = .ok (params s'.1)
  binding : ∀ position v, Keeps (fun s : Backend.Statement σ × σ => queue s.1)
    (Backend.bind position v)
  added : ∀ {s s' : Backend.Statement σ × σ}, Backend.addBatch s = (.ok (), s') →
    params s'.1 = [] ∧ queue s'.1 = queue s.1 ++ [params s.1]
  unadded : ∀ {s s' : Backend.Statement σ × σ} {e : DbError},
    Backend.addBatch s = (.error e, s') → queue s'.1 = queue s.1

namespace QueuesBound

variable {params : Backend.Statement σ → List Value}
  {queue : Backend.Statement σ → List (List Value)}

end QueuesBound

theorem Postgres.queuesBound :
    QueuesBound (σ := Postgres.Connection) Postgres.Statement.params Postgres.Statement.batch where
  prepared h := by
    cases h
    exact ⟨rfl, rfl⟩
  bound {position v s s'} h := by
    obtain ⟨st, c⟩ := s
    have hb : Postgres.Statement.bind position v (st, c) = (.ok (), s') := h
    simp only [Postgres.Statement.bind] at hb
    cases hat : Params.bindAt st.params position v with
    | error e => simp only [hat] at hb; cases hb
    | ok params => simp only [hat] at hb; cases hb; rfl
  binding position v := by
    intro s
    obtain ⟨st, c⟩ := s
    show (Postgres.Statement.bind position v (st, c)).2.1.batch = st.batch
    simp only [Postgres.Statement.bind]
    split <;> rfl
  added {s s'} h := by
    obtain ⟨st, c⟩ := s
    have ha : Postgres.Statement.addBatch (st, c) = (.ok (), s') := h
    simp only [Postgres.Statement.addBatch, Postgres.Statement.ifOpen] at ha
    split at ha
    · cases ha
      exact ⟨rfl, rfl⟩
    · cases ha
  unadded {s s' e} h := by
    obtain ⟨st, c⟩ := s
    have ha : Postgres.Statement.addBatch (st, c) = (.error e, s') := h
    simp only [Postgres.Statement.addBatch, Postgres.Statement.ifOpen] at ha
    split at ha
    · cases ha
    · cases ha
      rfl

/-! ### The log of a batch, read record by record -/

section Reading

variable {Callable : Type} {n : Nat} {text : String} {fields : List String}
  {records : List Record} {record : Record}

end Reading

namespace Session

end Session

end SqlSession
