/-
The log of one run of a call.

Everything that an execution asks of the held call goes by the number that the call got when
it was prepared, and nothing that it asks is about a statement or closes the call.
-/
import SqlSession.Proofs.Collecting
import SqlSession.Proofs.Execution
import SqlSession.Proofs.Trace

namespace SqlSession

open SqlSession.Action

variable {σ : Type} [Backend σ] {Held α : Type}

namespace Traced

/-- The handle keeps its number, and the log grows by events that `P` allows for it. -/
def GrowsBy (P : Nat → Event (Backend.Callable σ) → Prop) (p q : Handle Held × Traced σ) : Prop :=
  q.1.number = p.1.number ∧ ∃ ev, q.2.log = p.2.log ++ ev ∧ ∀ e ∈ ev, P p.1.number e

variable {P : Nat → Event (Backend.Callable σ) → Prop}

theorem chains_growsBy : Chains (fun p q : Handle Held × Traced σ => GrowsBy P p q) where
  refl p := ⟨rfl, [], (List.append_nil _).symm, fun e he => absurd he List.not_mem_nil⟩
  trans := by
    intro p q r hpq hqr
    obtain ⟨hn, ev, hlog, h⟩ := hpq
    obtain ⟨hn', ev', hlog', h'⟩ := hqr
    refine ⟨hn'.trans hn, ev ++ ev', by rw [hlog', hlog, List.append_assoc], fun e he => ?_⟩
    rcases List.mem_append.mp he with he | he
    · exact h e he
    · rw [← hn]
      exact h' e he

theorem growsBy_use {request : Nat → Held → Request (Backend.Callable σ)}
    (h : ∀ n held done, P n ⟨request n held, done⟩) (a : Action (Held × σ) α) :
    Obeys (GrowsBy P) (use request a) := by
  intro p
  refine ⟨rfl, _, rfl, fun e he => ?_⟩
  rw [List.mem_singleton.mp he]
  exact h _ _ _

/-- The event is a request to the call with the number. -/
def ToCall (n : Nat) (e : Event (Backend.Callable σ)) : Prop :=
  e.request.call? = some n

/-- The event is a use of the call with the number. -/
def UsesCall (n : Nat) (e : Event (Backend.Callable σ)) : Prop :=
  e.request.usesCall? = some n

theorem toCall_of_usesCall {n : Nat} {e : Event (Backend.Callable σ)} (h : UsesCall n e) :
    ToCall n e :=
  Request.call?_of_usesCall? h

end Traced

open Traced

/-- What letting go of a call writes, if there is one. -/
def closing {Callable : Type} (held : Option Nat) : List (Event Callable) :=
  held.toList.map fun n => ⟨.closeCall n, true⟩

theorem mem_closing {Callable : Type} {held : Option Nat} {e : Event Callable}
    (h : e ∈ closing held) : ∃ n, held = some n ∧ e = ⟨.closeCall n, true⟩ := by
  obtain ⟨n, hn, rfl⟩ := List.mem_map.mp h
  exact ⟨n, Option.mem_toList.mp hn, rfl⟩

/-- Binding moves the state along whatever relation binding one value moves it along. -/
theorem obeys_bindFrom {τ : Type} {R : τ → τ → Prop} (hR : Chains R)
    {b : Nat → Value → Action τ Unit} (h : ∀ position v, Obeys R (b position v)) (vs : List Value) :
    ∀ position, Obeys R (bindFrom b position vs) := by
  induction vs with
  | nil => intro position; exact hR.refl
  | cons v vs ih => intro position; exact Obeys.bind hR (h position v) fun _ => ih (position + 1)

namespace Session

theorem usesCall_bindAll (params : List Value) :
    Obeys (GrowsBy (UsesCall (σ := σ))) (bindAll (Backend.bindCall (σ := Traced σ)) params) :=
  obeys_bindFrom chains_growsBy (fun _ _ => growsBy_use (fun _ _ _ => rfl) _) params 1

theorem usesCall_collectResults (labels : Option (List String)) :
    Obeys (GrowsBy (UsesCall (σ := σ))) (collectResults (σ := Traced σ) labels) :=
  obeys_collectResults (σ := Traced σ) labels chains_growsBy (growsBy_use (fun _ _ _ => rfl) _)
    (growsBy_use (fun _ _ _ => rfl) _) (growsBy_use (fun _ _ _ => rfl) _)

theorem usesCall_executeHeld (params : List Value) :
    Obeys (GrowsBy (UsesCall (σ := σ))) (executeHeld (σ := Traced σ) params) := by
  refine Obeys.bind chains_growsBy (usesCall_bindAll params) fun _ => ?_
  exact Obeys.bind chains_growsBy (growsBy_use (fun _ _ _ => rfl) _) fun _ =>
    Obeys.of_fixed chains_growsBy fun _ => rfl

theorem usesCall_queryHeld (allResults : Bool) (labels : Option (List String))
    (params : List Value) :
    Obeys (GrowsBy (UsesCall (σ := σ))) (queryHeld (σ := Traced σ) allResults labels params) := by
  refine Obeys.bind chains_growsBy (usesCall_bindAll params) fun _ => ?_
  split
  · exact usesCall_collectResults labels
  · exact Obeys.bind chains_growsBy (growsBy_use (fun _ _ _ => rfl) _) fun _ =>
      Obeys.of_fixed chains_growsBy fun _ => rfl

/-- What a session asks of the call it holds is written down as just that. -/
theorem log_onCall {a : Action (Handle (Backend.Callable σ) × Traced σ) α} (action : String)
    (h : Obeys (GrowsBy (UsesCall (σ := σ))) a) (s : Session (Traced σ)) :
    ∃ ev, (onCall (σ := Traced σ) action a s).2.backend.log = s.backend.log ++ ev ∧
      ∀ e ∈ ev, ∃ n, ToCall (σ := σ) n e := by
  cases hh : s.calling.handle with
  | none =>
      rw [onCall_of_none _ hh]
      exact ⟨[], (List.append_nil _).symm, fun e he => absurd he List.not_mem_nil⟩
  | some call =>
      obtain ⟨-, ev, hlog, hev⟩ := h (call, s.backend)
      rw [onCall_of_held _ hh]
      exact ⟨ev, hlog, fun e he => ⟨_, toCall_of_usesCall (hev e he)⟩⟩

theorem log_executeCall (s : Session (Traced σ)) :
    ∃ ev, (executeCall s).2.backend.log = s.backend.log ++ ev ∧
      ∀ e ∈ ev, ∃ n, ToCall (σ := σ) n e := by
  rw [executeCall_eq]
  exact log_onCall "execute" (usesCall_executeHeld s.params) s

theorem log_runCall (allResults : Bool) (s : Session (Traced σ)) :
    ∃ ev, (runCall allResults s).2.backend.log = s.backend.log ++ ev ∧
      ∀ e ∈ ev, ∃ n, ToCall (σ := σ) n e := by
  rcases hl : s.callLabels with e | labels
  · rw [runCall_of_unread allResults hl]
    exact ⟨[], (List.append_nil _).symm, fun e he => absurd he List.not_mem_nil⟩
  · rw [runCall_of_labels allResults hl]
    exact log_onCall "query_procedure" (usesCall_queryHeld allResults labels s.params) s

/-! ### Letting go of the held call -/

/-- The number of the held call. -/
def heldCall (s : Session (Traced σ)) : Option Nat :=
  s.calling.handle.map Handle.number

@[simp] theorem releaseCall_isOpen (s : Session σ) : s.releaseCall.isOpen = s.isOpen := by
  unfold releaseCall
  split <;> rfl

theorem releaseCall_log (s : Session (Traced σ)) :
    s.releaseCall.backend.log = s.backend.log ++ closing s.heldCall := by
  unfold releaseCall heldCall
  cases s.calling.handle with
  | none => exact (List.append_nil _).symm
  | some call => rfl

end Session

end SqlSession
