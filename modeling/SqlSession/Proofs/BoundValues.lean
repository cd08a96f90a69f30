/-
What a call keeps bound.

The session binds its parameters anew for each execution, but it binds them to a call that
outlives the execution, and binding writes over what stands at a position and removes
nothing.  `KeepsBound` says of a backend that its calls work so; both backends here do.  What
follows is `params_bindAll`: after a list is bound, the call holds that list and, behind it,
whatever was bound beyond its end before.
-/
import SqlSession.Backend.Scripted
import SqlSession.Postgres.Backend
import SqlSession.Proofs.Action
import SqlSession.Session.Execution

namespace SqlSession

open SqlSession.Action

variable {σ : Type} [Backend σ] {α : Type}

/-! ### Positional parameters -/

/-- Writing behind a list or over it puts the value at its place. -/
theorem Params.put_append (done rest : List Value) (v : Value) :
    Params.put (done ++ rest) done.length v = done ++ v :: rest.drop 1 := by
  induction done with
  | nil => cases rest <;> rfl
  | cons w done ih => exact congrArg (w :: ·) ih

theorem Params.bindAt_append (done rest : List Value) (v : Value) :
    Params.bindAt (done ++ rest) (1 + done.length) v = .ok (done ++ v :: rest.drop 1) := by
  rw [Nat.add_comm]
  exact congrArg Except.ok (Params.put_append done rest v)

/-- The list is as long as the highest position that was written. -/
theorem Params.length_bindAt {params params' : List Value} {position : Nat} {v : Value}
    (h : Params.bindAt params position v = .ok params') :
    params'.length = max params.length position := by
  cases position with
  | zero => cases h
  | succ i =>
      cases h
      exact Params.length_put params i v

section Binding

variable {τ : Type} (held : τ → List Value) {bind : Nat → Value → Action τ Unit}
  (bound : ∀ {position : Nat} {v : Value} {s s' : τ}, bind position v s = (.ok (), s') →
    Params.bindAt (held s) position v = .ok (held s'))

include bound

theorem held_bindFrom (vs : List Value) : ∀ {done rest : List Value} {s s' : τ},
    held s = done ++ rest → bindFrom bind (1 + done.length) vs s = (.ok (), s') →
      held s' = done ++ vs ++ rest.drop vs.length := by
  induction vs with
  | nil =>
      intro done rest s s' hs hbind
      cases hbind
      rw [hs, List.append_nil, List.length_nil, List.drop_zero]
  | cons v vs ih =>
      intro done rest s s' hs hbind
      rcases hb : bind (1 + done.length) v s with ⟨e | _, t⟩
      · rw [bindFrom, bind_of_error hb] at hbind
        cases hbind
      · rw [bindFrom, bind_of_ok hb] at hbind
        have ht := bound hb
        rw [hs, Params.bindAt_append] at ht
        -- the value just bound joins those before the rest of the list
        have ht : held t = (done ++ [v]) ++ rest.drop 1 := by
          rw [List.append_assoc]
          exact (Except.ok.inj ht).symm
        have hposition : 1 + done.length + 1 = 1 + (done ++ [v]).length := by
          rw [List.length_append, List.length_singleton, Nat.add_assoc]
        rw [hposition] at hbind
        rw [ih ht hbind, List.drop_drop, List.length_cons, List.append_assoc done,
          Nat.add_comm 1]
        rfl

/-- Where each value is bound as `Params.bindAt` binds it, a list is bound over what stands at
its positions, and what stands behind them stays. -/
theorem held_bindAll {vs : List Value} {s s' : τ} (hbind : bindAll bind vs s = (.ok (), s')) :
    held s' = vs ++ (held s).drop vs.length :=
  held_bindFrom held bound vs (List.nil_append (held s)).symm hbind

end Binding

/-! ### Calls that keep what is bound -/

/-- `params` tells what is bound to a call: nothing at first, and later what binding has
written; nothing else that is asked of a call changes it. -/
structure KeepsBound (params : Backend.Callable σ → List Value) : Prop where
  prepared : ∀ {procedure : String} {b b' : σ} {call : Backend.Callable σ},
    Backend.prepareCall procedure b = (.ok call, b') → params call = []
  bound : ∀ {position : Nat} {v : Value} {s s' : Backend.Callable σ × σ},
    Backend.bindCall position v s = (.ok (), s') →
      Params.bindAt (params s.1) position v = .ok (params s'.1)
  refused : ∀ {position : Nat} {v : Value} {s s' : Backend.Callable σ × σ} {e : DbError},
    Backend.bindCall position v s = (.error e, s') → params s'.1 = params s.1
  register : ∀ position type, Keeps (fun s : Backend.Callable σ × σ => params s.1)
    (Backend.register position type)
  executeCall : Keeps (fun s : Backend.Callable σ × σ => params s.1) Backend.executeCall
  queryCall : Keeps (fun s : Backend.Callable σ × σ => params s.1) Backend.queryCall
  resultSet : Keeps (fun s : Backend.Callable σ × σ => params s.1) Backend.resultSet
  moreResults : Keeps (fun s : Backend.Callable σ × σ => params s.1) Backend.moreResults

namespace KeepsBound

variable {params : Backend.Callable σ → List Value}

/-- A call to which a list is bound holds it, and what was bound beyond its end before. -/
theorem bindAll (h : KeepsBound params) {vs : List Value} {s s' : Backend.Callable σ × σ}
    (hbind : SqlSession.bindAll Backend.bindCall vs s = (.ok (), s')) :
    params s'.1 = vs ++ (params s.1).drop vs.length :=
  held_bindAll (fun s : Backend.Callable σ × σ => params s.1) h.bound hbind

end KeepsBound

/-! ### The backends -/

namespace Scripted

theorem Call.params_execute : Keeps (fun s : Call × Connection => s.1.params) Call.execute := by
  intro s
  obtain ⟨call, c⟩ := s
  unfold Call.execute
  simp only
  split
  · rfl
  · split <;> rfl

theorem Call.params_resultSet : Keeps (fun s : Call × Connection => s.1.params) Call.resultSet := by
  intro s
  obtain ⟨call, c⟩ := s
  unfold Call.resultSet
  simp only
  split <;> rfl

theorem keepsBound : KeepsBound (σ := Connection) Call.params where
  prepared {procedure b b' call} h := by
    rcases hr : Connection.request (.prepareCall procedure) ()
      Script.prepareCall (fun q s => { s with prepareCall := q }) b with ⟨e | _, c⟩
    · have hp : Backend.prepareCall procedure b = _ := bind_of_error hr
      cases h.symm.trans hp
    · have hp : Backend.prepareCall procedure b = _ := bind_of_ok hr
      cases h.symm.trans hp
      rfl
  bound {position v s s'} h := by
    obtain ⟨call, c⟩ := s
    have hb : Call.bind position v (call, c) = (.ok (), s') := h
    simp only [Call.bind, bindParam] at hb
    cases hl : c.script.bindFailures.lookup position with
    | some e => simp only [hl] at hb; cases hb
    | none =>
        cases hat : Params.bindAt call.params position v with
        | error e => simp only [hl, hat] at hb; cases hb
        | ok params => simp only [hl, hat] at hb; cases hb; rfl
  refused {position v s s' e} h := by
    obtain ⟨call, c⟩ := s
    have hb : Call.bind position v (call, c) = (.error e, s') := h
    simp only [Call.bind] at hb
    cases hat : bindParam c.script call.params position v with
    | error e => simp only [hat] at hb; cases hb; rfl
    | ok params => simp only [hat] at hb; cases hb
  register position type := by
    intro s
    obtain ⟨call, c⟩ := s
    show (Call.register position type (call, c)).2.1.params = call.params
    simp only [Call.register]
    split <;> rfl
  executeCall := Call.params_execute
  queryCall := Obeys.bind (chains_keeps _) Call.params_execute fun _ =>
    Obeys.bind (chains_keeps _) Call.params_resultSet fun _ _ => rfl
  resultSet := Call.params_resultSet
  moreResults := by
    intro s
    obtain ⟨call, c⟩ := s
    show (Call.moreResults (call, c)).2.1.params = call.params
    simp only [Call.moreResults]
    split <;> rfl

end Scripted

namespace Postgres

theorem Call.params_withResult (result : CallResult) (call : Call) :
    (call.withResult result).params = call.params := by
  unfold Call.withResult
  split
  · rfl
  · split
    · rfl
    · split <;> rfl

theorem Call.params_execute : Keeps (fun s : Call × Connection => s.1.params) Call.execute := by
  intro s
  obtain ⟨call, c⟩ := s
  unfold Call.execute
  simp only
  split
  · split
    · rfl
    · exact Call.params_withResult _ _
  · rfl

theorem keepsBound : KeepsBound (σ := Connection) Call.params where
  prepared {procedure b b' call} h := by cases h; rfl
  bound {position v s s'} h := by
    obtain ⟨call, c⟩ := s
    have hb : Call.bind position v (call, c) = (.ok (), s') := h
    simp only [Call.bind] at hb
    cases hat : Params.bindAt call.params position v with
    | error e => simp only [hat] at hb; cases hb
    | ok params => simp only [hat] at hb; cases hb; rfl
  refused {position v s s' e} h := by
    obtain ⟨call, c⟩ := s
    have hb : Call.bind position v (call, c) = (.error e, s') := h
    simp only [Call.bind] at hb
    cases hat : Params.bindAt call.params position v with
    | error e => simp only [hat] at hb; cases hb; rfl
    | ok params => simp only [hat] at hb; cases hb
  register position type := by
    intro s
    obtain ⟨call, c⟩ := s
    show (Call.register position type (call, c)).2.1.params = call.params
    simp only [Call.register]
    split <;> rfl
  executeCall := Call.params_execute
  queryCall := by
    refine Obeys.bind (chains_keeps _) Call.params_execute fun hasRows => ?_
    split
    · exact Obeys.bind (chains_keeps _) (fun _ => rfl) fun _ _ => rfl
    · exact fun _ => rfl
  resultSet := fun _ => rfl
  moreResults := fun _ => rfl

end Postgres

end SqlSession
