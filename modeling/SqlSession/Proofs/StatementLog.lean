/-
The log of one statement.

A statement is prepared, its parameters are bound in order, it is used and it is closed.
`StatementLog` lists the three ways in which the log of that can look: the statement is not
prepared at all, a parameter is refused and the statement is given up as it stands, or all
of it takes place.  What the use itself writes is a parameter, since a statement is used
for one run or for a batch of any length.

The statement that is given up is the one that is never closed.
-/
import SqlSession.Proofs.Connection
import SqlSession.Proofs.Trace

namespace SqlSession

open SqlSession.Action

variable {σ : Type} [Backend σ] {Held α β : Type}

namespace Traced

/-- The events of binding values from a position on, all of which are taken. -/
def boundFrom {Callable : Type} (request : Nat → Value → Request Callable) (position : Nat)
    (vs : List Value) : List (Event Callable) :=
  (vs.zipIdx position).map fun (v, i) => ⟨request i v, true⟩

@[simp] theorem boundFrom_nil {Callable : Type} (request : Nat → Value → Request Callable)
    (position : Nat) : boundFrom request position [] = [] := rfl

@[simp] theorem boundFrom_cons {Callable : Type} (request : Nat → Value → Request Callable)
    (position : Nat) (v : Value) (vs : List Value) :
    boundFrom request position (v :: vs) =
      ⟨request position v, true⟩ :: boundFrom request (position + 1) vs := rfl

theorem mem_boundFrom {Callable : Type} {request : Nat → Value → Request Callable}
    {position : Nat} {vs : List Value} {e : Event Callable}
    (h : e ∈ boundFrom request position vs) :
    ∃ i v, e = ⟨request i v, true⟩ := by
  obtain ⟨⟨v, i⟩, -, rfl⟩ := List.mem_map.mp h
  exact ⟨i, v, rfl⟩

/-! ### What an action on a handle writes -/

/-- The handle keeps its number, and the log grows by events that fit the answer. -/
def Logs (Q : Nat → Except DbError α → List (Event (Backend.Callable σ)) → Prop)
    (a : Action (Handle Held × Traced σ) α) : Prop :=
  ∀ p, (a p).2.1.number = p.1.number ∧
    ∃ ev, (a p).2.2.log = p.2.log ++ ev ∧ Q p.1.number (a p).1 ev

theorem logs_use (request : Nat → Held → Request (Backend.Callable σ))
    (a : Action (Held × σ) α) :
    Logs (fun n r ev => ∃ held, ev = [⟨request n held, r.isOk⟩]) (use request a) :=
  fun p => ⟨rfl, _, rfl, p.1.held, rfl⟩

theorem Logs.bind {Q : Nat → Except DbError α → List (Event (Backend.Callable σ)) → Prop}
    {Q' : Nat → Except DbError β → List (Event (Backend.Callable σ)) → Prop}
    {a : Action (Handle Held × Traced σ) α} {f : α → Action (Handle Held × Traced σ) β}
    (ha : Logs Q a) (hf : ∀ x, Logs Q' (f x)) :
    Logs (fun n r ev =>
      (∃ x ev₁ ev₂, Q n (.ok x) ev₁ ∧ Q' n r ev₂ ∧ ev = ev₁ ++ ev₂) ∨
        ∃ e, r = .error e ∧ Q n (.error e) ev) (a >>= f) := by
  intro p
  obtain ⟨hn, ev₁, hlog, hQ⟩ := ha p
  rcases bind_cases a f p with ⟨x, hx, h⟩ | ⟨e, he, h⟩
  · obtain ⟨hn', ev₂, hlog', hQ'⟩ := hf x (a p).2
    rw [hx] at hQ
    rw [hn] at hn' hQ'
    rw [hlog, List.append_assoc] at hlog'
    rw [h]
    exact ⟨hn', _, hlog', Or.inl ⟨x, ev₁, ev₂, hQ, hQ', rfl⟩⟩
  · rw [he] at hQ
    rw [h]
    exact ⟨hn, ev₁, hlog, Or.inr ⟨e, rfl, hQ⟩⟩

/-! ### Binding -/

/-- What binding values from a position on writes: all of them, or those before the first
one that is refused, and that one. -/
inductive BindLog {Callable : Type} (request : Nat → Value → Request Callable) (position : Nat)
    (vs : List Value) : Except DbError Unit → List (Event Callable) → Prop
  | all : BindLog request position vs (.ok ()) (boundFrom request position vs)
  | refused (e : DbError) (done : List Value) (v : Value) (rest : List Value)
      (split : vs = done ++ v :: rest) :
      BindLog request position vs (.error e)
        (boundFrom request position done ++ [⟨request (position + done.length) v, false⟩])

theorem BindLog.cons {Callable : Type} {request : Nat → Value → Request Callable}
    {position : Nat} {v : Value} {vs : List Value} {r : Except DbError Unit}
    {ev : List (Event Callable)} (h : BindLog request (position + 1) vs r ev) :
    BindLog request position (v :: vs) r (⟨request position v, true⟩ :: ev) := by
  cases h with
  | all => exact .all
  | refused e done w rest split =>
      have hs : v :: vs = v :: done ++ w :: rest := by rw [split]; rfl
      have hrefused : BindLog request position (v :: vs) _ _ := .refused e _ _ _ hs
      rwa [boundFrom_cons, List.length_cons, ← Nat.add_assoc, Nat.add_right_comm] at hrefused

theorem logs_bindFrom (request : Nat → Nat → Value → Request (Backend.Callable σ))
    (b : Nat → Value → Action (Held × σ) Unit) (vs : List Value) : ∀ position,
    Logs (fun n => BindLog (request n) position vs)
      (bindFrom (fun i v => use (fun n _ => request n i v) (b i v)) position vs) := by
  induction vs with
  | nil => intro position p; exact ⟨rfl, [], (List.append_nil _).symm, .all⟩
  | cons v vs ih =>
      intro position p
      have hp := (logs_use (fun n _ => request n position v) (b position v)).bind
        (fun _ => ih (position + 1)) p
      obtain ⟨hn, ev, hlog, ⟨x, ev₁, ev₂, ⟨_, rfl⟩, hrest, rfl⟩ | ⟨e, hr, _, rfl⟩⟩ := hp
      · refine ⟨hn, _, hlog, ?_⟩
        exact hrest.cons
      · refine ⟨hn, _, hlog, ?_⟩
        have hrefused : BindLog (request p.1.number) position (v :: vs) (.error e) _ :=
          .refused e [] v vs rfl
        rw [← hr] at hrefused
        exact hrefused

theorem logs_bindAll (params : List Value) :
    Logs (fun n => BindLog (.bind n) 1 params) (bindAll (Backend.bind (σ := Traced σ)) params) :=
  logs_bindFrom Request.bind Backend.bind params 1

theorem logs_bindAllCall (params : List Value) :
    Logs (fun n => BindLog (.bindCall n) 1 params)
      (bindAll (Backend.bindCall (σ := Traced σ)) params) :=
  logs_bindFrom Request.bindCall Backend.bindCall params 1

/-! ### From preparing to closing -/

/-- The log of a statement that gets the number `n`.  Of the use it says what `Q` says. -/
inductive StatementLog {Callable : Type} (n : Nat) (text : String) (params : List Value)
    (Q : Except DbError α → List (Event Callable) → Prop) :
    Except DbError α → List (Event Callable) → Prop
  /-- The statement is not prepared. -/
  | refused (e : DbError) : StatementLog n text params Q (.error e) [⟨.prepare n text, false⟩]
  /-- A parameter is not taken, and the statement is left as it is. -/
  | abandoned (e : DbError) (done : List Value) (v : Value) (rest : List Value)
      (split : params = done ++ v :: rest) :
      StatementLog n text params Q (.error e)
        (⟨.prepare n text, true⟩ :: boundFrom (.bind n) 1 done
          ++ [⟨.bind n (1 + done.length) v, false⟩])
  /-- The statement is used, with whatever success, and closed. -/
  | closed (r : Except DbError α) (ev : List (Event Callable)) (used : Q r ev) :
      StatementLog n text params Q r
        (⟨.prepare n text, true⟩ :: boundFrom (.bind n) 1 params ++ ev
          ++ [⟨.closeStatement n, true⟩])

theorem StatementLog.mono {Callable : Type} {n : Nat} {text : String} {params : List Value}
    {Q Q' : Except DbError α → List (Event Callable) → Prop} {r : Except DbError α}
    {ev : List (Event Callable)} (hQ : ∀ r ev, Q r ev → Q' r ev)
    (h : StatementLog n text params Q r ev) : StatementLog n text params Q' r ev := by
  cases h with
  | refused e => exact .refused e
  | abandoned e done v rest split => exact .abandoned e done v rest split
  | closed r ev used => exact .closed r ev (hQ r ev used)

/-- What is written up to the use of a statement. -/
theorem mem_opened {Callable : Type} {n : Nat} {text : String} {vs : List Value}
    {e : Event Callable} (h : e ∈ ⟨.prepare n text, true⟩ :: boundFrom (.bind n) 1 vs) :
    e = ⟨.prepare n text, true⟩ ∨ ∃ position v, e = ⟨.bind n position v, true⟩ :=
  (List.mem_cons.mp h).imp_right mem_boundFrom

theorem mem_closed {Callable : Type} {n : Nat} {text : String} {vs : List Value}
    {ev : List (Event Callable)} {e : Event Callable}
    (h : e ∈ ⟨.prepare n text, true⟩ :: boundFrom (.bind n) 1 vs ++ ev
      ++ [⟨.closeStatement n, true⟩]) :
    e = ⟨.prepare n text, true⟩ ∨ (∃ position v, e = ⟨.bind n position v, true⟩) ∨ e ∈ ev ∨
      e = ⟨.closeStatement n, true⟩ := by
  rcases List.mem_append.mp h with h | h
  · rcases List.mem_append.mp h with h | h
    · rcases mem_opened h with h | h
      · exact Or.inl h
      · exact Or.inr (Or.inl h)
    · exact Or.inr (Or.inr (Or.inl h))
  · exact Or.inr (Or.inr (Or.inr (List.mem_singleton.mp h)))

/-- Apart from its use, all that is written of a statement prepares, binds or closes it. -/
theorem StatementLog.mem_cases {Callable : Type} {n : Nat} {text : String} {params : List Value}
    {P : Event Callable → Prop} {r : Except DbError α} {ev : List (Event Callable)}
    (h : StatementLog n text params (fun _ ev => ∀ e ∈ ev, P e) r ev) :
    ∀ e ∈ ev, (∃ done, e = ⟨.prepare n text, done⟩) ∨
      (∃ position v done, e = ⟨.bind n position v, done⟩) ∨ P e ∨
      e = ⟨.closeStatement n, true⟩ := by
  intro e he
  cases h with
  | refused error => exact Or.inl ⟨false, List.mem_singleton.mp he⟩
  | abandoned error done v rest split =>
      rcases List.mem_append.mp he with he | he
      · rcases mem_opened he with h | ⟨position, w, h⟩
        · exact Or.inl ⟨true, h⟩
        · exact Or.inr (Or.inl ⟨position, w, true, h⟩)
      · exact Or.inr (Or.inl ⟨_, v, false, List.mem_singleton.mp he⟩)
  | closed r ev used =>
      rcases mem_closed he with h | ⟨position, w, h⟩ | h | h
      · exact Or.inl ⟨true, h⟩
      · exact Or.inr (Or.inl ⟨position, w, true, h⟩)
      · exact Or.inr (Or.inr (Or.inl (used e h)))
      · exact Or.inr (Or.inr (Or.inr h))

end Traced

namespace Session

open Traced

/-- A statement gets its number from the log and writes one of the three logs behind it. -/
theorem runStatement_log (text : String) (params : List Value)
    {use : Action (Handle (Backend.Statement σ) × Traced σ) α}
    {Q : Nat → Except DbError α → List (Event (Backend.Callable σ)) → Prop} (hQ : Logs Q use)
    (t : Traced σ) :
    ∃ ev, (runStatement (σ := Traced σ) text params use t).2.log = t.log ++ ev ∧
      StatementLog t.log.length text params (Q t.log.length)
        (runStatement (σ := Traced σ) text params use t).1 ev := by
  rcases hp : Backend.prepare text t.inner with ⟨e | st, b⟩
  · have ht : Backend.prepare text t = _ := prepare_of_error hp
    simp only [runStatement, opened, ht]
    exact ⟨_, rfl, .refused e⟩
  · have ht : Backend.prepare text t = _ := prepare_of_ok hp
    obtain ⟨hn, ev, hlog, hbound⟩ := logs_bindAll params
      (⟨t.log.length, st⟩, ⟨b, t.log ++ [⟨.prepare t.log.length text, true⟩]⟩)
    simp only [runStatement, opened, ht]
    rcases hbind : bindAll (Backend.bind (σ := Traced σ)) params _ with ⟨e | _, h, u⟩ <;>
      rw [hbind] at hn hlog hbound
    · cases hbound with
      | refused e done v rest split =>
          refine ⟨_, ?_, .abandoned e done v rest split⟩
          show u.log = _
          rw [show u.log = _ from hlog]
          simp only [List.append_assoc, List.cons_append, List.nil_append]
    · cases hbound
      obtain ⟨hn', ev, hlog', hused⟩ := hQ (h, u)
      have hnumber : h.number = t.log.length := hn
      simp only [hnumber] at hn' hused
      refine ⟨_, ?_, .closed _ ev hused⟩
      show (use (h, u)).2.2.log ++ [⟨.closeStatement (use (h, u)).2.1.number, true⟩] = _
      rw [hn', hlog', show u.log = _ from hlog]
      simp only [List.append_assoc, List.cons_append, List.nil_append]

/-- On the connection of a session, a statement writes one of these logs, unless the session is
closed. -/
theorem onConnection_log (text : String) (params : List Value)
    {use : Action (Handle (Backend.Statement σ) × Traced σ) α}
    {Q : Nat → Except DbError α → List (Event (Backend.Callable σ)) → Prop} (hQ : Logs Q use)
    (s : Session (Traced σ)) :
    (onConnection (runStatement (σ := Traced σ) text params use) s).2 = s ∨
      ∃ r ev, (onConnection (runStatement (σ := Traced σ) text params use) s).2.backend.log =
          s.backend.log ++ ev ∧
        StatementLog s.backend.log.length text params (Q s.backend.log.length) r ev := by
  cases hopen : s.isOpen with
  | false =>
      rw [onConnection_of_closed _ hopen]
      exact Or.inl rfl
  | true =>
      obtain ⟨ev, hlog, hev⟩ := runStatement_log text params hQ s.backend
      rw [onConnection_of_open _ hopen]
      exact Or.inr ⟨_, ev, hlog, hev⟩

end Session

end SqlSession
