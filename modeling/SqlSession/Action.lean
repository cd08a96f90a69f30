/-
Actions.

An action computes on a state and may fail.  What it did to the state before it failed
stays done: a statement that was prepared is prepared, whatever happens to it afterwards.
-/
import SqlSession.Error

namespace SqlSession

/-- A computation on a state that may fail. -/
def Action (σ α : Type) : Type :=
  σ → Except DbError α × σ

namespace Action

variable {σ τ α β : Type}

instance : Monad (Action σ) where
  pure x := fun s => (.ok x, s)
  bind a f := fun s =>
    match a s with
    | (.ok x, s') => f x s'
    | (.error e, s') => (.error e, s')

/-- Fail and leave the state alone. -/
def fail (e : DbError) : Action σ α :=
  fun s => (.error e, s)

/-- The outcome is known and does not touch the state. -/
def ofExcept (r : Except DbError α) : Action σ α :=
  fun s => (r, s)

/-- Look at the state. -/
def view (f : σ → α) : Action σ α :=
  fun s => (.ok (f s), s)

/-- Change the state. -/
def modify (f : σ → σ) : Action σ Unit :=
  fun s => (.ok (), f s)

/-- Change the state afterwards, whether the action succeeds or fails. -/
def andThen (a : Action σ α) (f : σ → σ) : Action σ α :=
  fun s =>
    match a s with
    | (r, s') => (r, f s')

/-! ### Laws -/

@[simp] theorem pure_apply (x : α) (s : σ) : (pure x : Action σ α) s = (.ok x, s) := rfl

@[simp] theorem fail_apply (e : DbError) (s : σ) : (fail e : Action σ α) s = (.error e, s) := rfl

@[simp] theorem ofExcept_apply (r : Except DbError α) (s : σ) : ofExcept r s = (r, s) := rfl

theorem bind_of_ok {a : Action σ α} {f : α → Action σ β} {s s' : σ} {x : α}
    (h : a s = (.ok x, s')) : (a >>= f) s = f x s' := by
  simp only [bind, h]

theorem bind_of_error {a : Action σ α} {f : α → Action σ β} {s s' : σ} {e : DbError}
    (h : a s = (.error e, s')) : (a >>= f) s = (.error e, s') := by
  simp only [bind, h]

instance : LawfulMonad (Action σ) :=
  LawfulMonad.mk' _
    (fun a => by
      funext s
      simp only [Functor.map]
      rcases a s with ⟨_ | _, _⟩ <;> rfl)
    (fun _ _ => rfl)
    (fun a f g => by
      funext s
      simp only [bind]
      rcases a s with ⟨_ | _, _⟩ <;> rfl)

end Action

end SqlSession
