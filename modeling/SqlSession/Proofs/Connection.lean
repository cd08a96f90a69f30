/-
How a session reaches its backend.

A session passes a request on when it is open and refuses it when it is closed, and a
request about a procedure call goes to the handle that the session holds.  Whatever the
request is, only the connection and the held handle move; the equations here say where to,
and the lifting lemmas turn a law about requests into one about sessions.
-/
import SqlSession.Proofs.Action
import SqlSession.Session.Procedure

namespace SqlSession.Session

open SqlSession.Action

variable {σ : Type} [Backend σ] {α β : Type}

/-! ### Requests on the connection -/

theorem onConnection_of_open (a : Action σ α) {s : Session σ} (h : s.isOpen = true) :
    onConnection a s = ((a s.backend).1, { s with backend := (a s.backend).2 }) := by
  simp only [onConnection, h, if_true]

theorem onConnection_of_closed (a : Action σ α) {s : Session σ} (h : s.isOpen = false) :
    onConnection a s = (.error (.connection "connection is closed"), s) := by
  simp only [onConnection, h, Bool.false_eq_true, if_false]

theorem ifOpen_of_open (closed : α) (a : Action σ α) {s : Session σ} (h : s.isOpen = true) :
    ifOpen closed a s = onConnection a s := by
  simp only [ifOpen, h, if_true]

theorem ifOpen_of_closed (closed : α) (a : Action σ α) {s : Session σ} (h : s.isOpen = false) :
    ifOpen closed a s = (.ok closed, s) := by
  simp only [ifOpen, h, Bool.false_eq_true, if_false]

/-- A request that moves the connection along `R` moves the session along what follows from
that.  Only an open session makes requests. -/
theorem obeys_onConnection {R : σ → σ → Prop} {Q : Session σ → Session σ → Prop} (hQ : Chains Q)
    (follow : ∀ s b, s.isOpen = true → R s.backend b → Q s { s with backend := b })
    {a : Action σ α} (h : Obeys R a) : Obeys Q (onConnection a) := by
  intro s
  cases hopen : s.isOpen with
  | true =>
      rw [onConnection_of_open a hopen]
      exact follow s _ hopen (h s.backend)
  | false =>
      rw [onConnection_of_closed a hopen]
      exact hQ.refl s

theorem obeys_ifOpen {R : σ → σ → Prop} {Q : Session σ → Session σ → Prop} (hQ : Chains Q)
    (follow : ∀ s b, s.isOpen = true → R s.backend b → Q s { s with backend := b }) (closed : α)
    {a : Action σ α} (h : Obeys R a) : Obeys Q (ifOpen closed a) := by
  intro s
  cases hopen : s.isOpen with
  | true =>
      rw [ifOpen_of_open closed a hopen]
      exact obeys_onConnection hQ follow h s
  | false =>
      rw [ifOpen_of_closed closed a hopen]
      exact hQ.refl s

/-- What does not look at the connection is left alone by every request. -/
theorem keeps_onConnection {part : Session σ → β} (h : ∀ s b, part { s with backend := b } = part s)
    (a : Action σ α) : Keeps part (onConnection a) :=
  obeys_onConnection (R := fun _ _ => True) (chains_keeps part) (fun s b _ _ => h s b)
    fun _ => trivial

theorem keeps_ifOpen {part : Session σ → β} (h : ∀ s b, part { s with backend := b } = part s)
    (closed : α) (a : Action σ α) : Keeps part (ifOpen closed a) :=
  obeys_ifOpen (R := fun _ _ => True) (chains_keeps part) (fun s b _ _ => h s b) closed
    fun _ => trivial

/-! ### Requests to the held call -/

theorem onCall_of_held {action : String} (a : Action (Backend.Callable σ × σ) α) {s : Session σ}
    {call : Backend.Callable σ} (h : s.calling.handle = some call) :
    onCall action a s =
      ((a (call, s.backend)).1,
        { s with
          backend := (a (call, s.backend)).2.2
          calling.handle := some (a (call, s.backend)).2.1 }) := by
  simp only [onCall, h]

theorem onCall_of_none {action : String} (a : Action (Backend.Callable σ × σ) α) {s : Session σ}
    (h : s.calling.handle = none) :
    onCall action a s = (.error (.invalidOperation action .procedure), s) := by
  simp only [onCall, h]

/-- What looks neither at the connection nor at the held handle is left alone by every
request to the held call. -/
theorem keeps_onCall {part : Session σ → β}
    (h : ∀ s b call, part { s with backend := b, calling.handle := some call } = part s)
    (action : String) (a : Action (Backend.Callable σ × σ) α) : Keeps part (onCall action a) := by
  intro s
  cases hh : s.calling.handle with
  | none => rw [onCall_of_none a hh]
  | some call =>
      rw [onCall_of_held a hh]
      exact h s _ _

/-! ### Starting a call -/

theorem call_of_closed (procedure : String) {s : Session σ} (h : s.isOpen = false) :
    call procedure s = (.error (.connection "connection is closed"), s) :=
  bind_of_error (onConnection_of_closed _ h)

theorem call_of_error {procedure : String} {s : Session σ} (h : s.isOpen = true) {e : DbError}
    {b : σ} (hp : Backend.prepareCall procedure s.backend = (.error e, b)) :
    call procedure s = (.error e, { s with backend := b }) := by
  have hc : onConnection (Backend.prepareCall procedure) s =
      (.error e, { s with backend := b }) := by
    rw [onConnection_of_open _ h, hp]
  exact bind_of_error hc

theorem call_of_ok {procedure : String} {s : Session σ} (h : s.isOpen = true)
    {handle : Backend.Callable σ} {b : σ}
    (hp : Backend.prepareCall procedure s.backend = (.ok handle, b)) :
    call procedure s =
      (.ok (), { ({ s with backend := b } : Session σ).releaseCall with
        lastSql := Backend.callText handle
        calling := { name := procedure, handle := some handle } }.start .procedure) := by
  have hc : onConnection (Backend.prepareCall procedure) s =
      (.ok handle, { s with backend := b }) := by
    rw [onConnection_of_open _ h, hp]
  exact bind_of_ok hc

end SqlSession.Session
