/-
The steps of an execution of a call.

What is asked of a call changes what it holds only by binding, and then by as much as the log
says: after any requests the call holds as many values as the highest position at which one
was bound.  And what is run is the call with what it holds at that moment, which is the list
just bound and whatever earlier lists have left beyond its end.
-/
import SqlSession.Proofs.BoundValues
import SqlSession.Proofs.CallLog
import SqlSession.Proofs.StatementLog
import SqlSession.Proofs.Transparency

namespace SqlSession

open SqlSession.Action Traced

variable {σ : Type} [Backend σ] {α Callable : Type}

/-- No value was bound to the call beyond a position. -/
def BoundUpTo (n k : Nat) (log : List (Event Callable)) : Prop :=
  ∀ position v, ⟨.bindCall n position v, true⟩ ∈ log → position ≤ k

theorem boundUpTo_nil (n k : Nat) : BoundUpTo n k ([] : List (Event Callable)) :=
  fun _ _ h => absurd h List.not_mem_nil

theorem boundUpTo_append {n k : Nat} {log log' : List (Event Callable)} :
    BoundUpTo n k (log ++ log') ↔ BoundUpTo n k log ∧ BoundUpTo n k log' := by
  constructor
  · intro h
    exact ⟨fun i v hm => h i v (List.mem_append_left _ hm),
      fun i v hm => h i v (List.mem_append_right _ hm)⟩
  · intro h i v hm
    exact (List.mem_append.mp hm).elim (h.1 i v) (h.2 i v)

/-- Events that are not about the call bind nothing to it. -/
theorem boundUpTo_of_other {n k : Nat} {log : List (Event Callable)}
    (h : ∀ e ∈ log, e.request.call? ≠ some n) : BoundUpTo n k log :=
  fun _ _ hm => absurd rfl (h _ hm)

/-! ### Requests to a call -/

section Requests

variable (params : Backend.Callable σ → List Value)

/-- The log grows by events about the call, and the call by what they bind. -/
structure CallStep (p q : Handle (Backend.Callable σ) × Traced σ) : Prop where
  number : q.1.number = p.1.number
  log : ∃ ev, q.2.log = p.2.log ++ ev ∧ (∀ e ∈ ev, ToCall p.1.number e) ∧
    ∀ k, (params q.1.held).length ≤ k ↔
      (params p.1.held).length ≤ k ∧ BoundUpTo p.1.number k ev

/-- The call keeps what is bound to it, and whatever is run is the call with just that. -/
structure RunStep (p q : Handle (Backend.Callable σ) × Traced σ) : Prop where
  number : q.1.number = p.1.number
  held : params q.1.held = params p.1.held
  log : ∃ ev, q.2.log = p.2.log ++ ev ∧ ∀ e ∈ ev, ∀ r, e.request.run? = some r →
    r.number = p.1.number ∧ params r.held = params p.1.held

variable {params}

theorem chains_callStep : Chains (CallStep params) where
  refl p := ⟨rfl, [], (List.append_nil _).symm, fun _ he => absurd he List.not_mem_nil,
    fun k => ⟨fun h => ⟨h, boundUpTo_nil _ k⟩, And.left⟩⟩
  trans := by
    intro p q r hpq hqr
    obtain ⟨hn, ev, hlog, hto, hk⟩ := hpq
    obtain ⟨hn', ev', hlog', hto', hk'⟩ := hqr
    rw [hn] at hto' hk'
    refine ⟨hn'.trans hn, ev ++ ev', by rw [hlog', hlog, List.append_assoc], ?_, fun k => ?_⟩
    · intro e he
      exact (List.mem_append.mp he).elim (hto e) (hto' e)
    · rw [hk', hk, boundUpTo_append, and_assoc]

theorem chains_runStep : Chains (RunStep params) where
  refl p := ⟨rfl, rfl, [], (List.append_nil _).symm, fun _ he => absurd he List.not_mem_nil⟩
  trans := by
    intro p q r hpq hqr
    obtain ⟨hn, hheld, ev, hlog, h⟩ := hpq
    obtain ⟨hn', hheld', ev', hlog', h'⟩ := hqr
    rw [hn, hheld] at h'
    refine ⟨hn'.trans hn, hheld'.trans hheld, ev ++ ev', by rw [hlog', hlog, List.append_assoc], ?_⟩
    intro e he
    exact (List.mem_append.mp he).elim (h e) (h' e)

/-- A request that binds nothing. -/
theorem callStep_use {request : Nat → Backend.Callable σ → Request (Backend.Callable σ)}
    (hto : ∀ n held, (request n held).call? = some n)
    (hbind : ∀ n held m i v, request n held ≠ .bindCall m i v)
    {a : Action (Backend.Callable σ × σ) α}
    (ha : Keeps (fun s : Backend.Callable σ × σ => params s.1) a) :
    Obeys (CallStep params) (use request a) := by
  intro p
  refine ⟨rfl, _, rfl, fun e he => ?_, fun k => ?_⟩
  · rw [List.mem_singleton.mp he]
    exact hto _ _
  · have hsame : params (use request a p).2.1.held = params p.1.held := ha (p.1.held, p.2.inner)
    rw [hsame]
    refine ⟨fun h => ⟨h, fun i v hm => ?_⟩, And.left⟩
    have heq := congrArg Event.request (List.mem_singleton.mp hm)
    exact absurd heq.symm (hbind _ _ _ _ _)

theorem boundUpTo_bound {n k position : Nat} {v : Value} :
    BoundUpTo n k [(⟨.bindCall n position v, true⟩ : Event Callable)] ↔ position ≤ k := by
  constructor
  · intro h
    exact h position v (List.mem_singleton_self _)
  · intro h i w hm
    cases List.mem_singleton.mp hm
    exact h

theorem boundUpTo_refused (n k position : Nat) (v : Value) :
    BoundUpTo n k [(⟨.bindCall n position v, false⟩ : Event Callable)] := by
  intro i w hm
  cases List.mem_singleton.mp hm

theorem callStep_bind (hK : KeepsBound params) (position : Nat) (v : Value) :
    Obeys (CallStep params) (Backend.bindCall (σ := Traced σ) position v) := by
  intro p
  refine ⟨rfl, [⟨.bindCall p.1.number position v,
    (Backend.bindCall position v (p.1.held, p.2.inner)).1.isOk⟩], rfl, fun e he => ?_, fun k => ?_⟩
  · rw [List.mem_singleton.mp he]
    rfl
  · show (params (Backend.bindCall position v (p.1.held, p.2.inner)).2.1).length ≤ k ↔ _
    rcases hb : Backend.bindCall position v (p.1.held, p.2.inner) with ⟨e | _, q⟩
    · have hsame : params q.1 = params p.1.held := hK.refused hb
      rw [hsame]
      exact ⟨fun h => ⟨h, boundUpTo_refused _ k _ _⟩, And.left⟩
    · have hlength : (params q.1).length = max (params p.1.held).length position :=
        Params.length_bindAt (hK.bound hb)
      show (params q.1).length ≤ k ↔
        (params p.1.held).length ≤ k ∧ BoundUpTo p.1.number k [⟨.bindCall _ position v, true⟩]
      rw [hlength, boundUpTo_bound]
      omega

theorem runStep_use {request : Nat → Backend.Callable σ → Request (Backend.Callable σ)}
    (hrun : ∀ n held r, (request n held).run? = some r → r = ⟨n, held⟩)
    {a : Action (Backend.Callable σ × σ) α}
    (ha : Keeps (fun s : Backend.Callable σ × σ => params s.1) a) :
    Obeys (RunStep params) (use request a) := by
  intro p
  refine ⟨rfl, ha (p.1.held, p.2.inner), _, rfl, fun e he r hr => ?_⟩
  rw [List.mem_singleton.mp he] at hr
  rw [hrun _ _ _ hr]
  exact ⟨rfl, rfl⟩

end Requests

/-! ### Executions of a call -/

/-- What an execution of a call runs: the list that it binds, and what was bound beyond. -/
def RunsWith (params : Backend.Callable σ → List Value) (vs : List Value)
    (p q : Handle (Backend.Callable σ) × Traced σ) : Prop :=
  ∃ ev, q.2.log = p.2.log ++ ev ∧ ∀ e ∈ ev, ∀ r, e.request.run? = some r →
    r.number = p.1.number ∧ params r.held = vs ++ (params p.1.held).drop vs.length

/-- Binding runs nothing. -/
theorem run?_of_bindLog {n position : Nat} {vs : List Value} {r : Except DbError Unit}
    {ev : List (Event Callable)} (h : BindLog (.bindCall n) position vs r ev) :
    ∀ e ∈ ev, e.request.run? = none := by
  intro e he
  cases h with
  | all =>
      obtain ⟨i, v, rfl⟩ := mem_boundFrom he
      rfl
  | refused error done v rest split =>
      rcases List.mem_append.mp he with he | he
      · obtain ⟨i, v, rfl⟩ := mem_boundFrom he
        rfl
      · rw [List.mem_singleton.mp he]
        rfl

section Executions

variable {params : Backend.Callable σ → List Value} (hK : KeepsBound params)

include hK

theorem callStep_collectResults (labels : Option (List String)) :
    Obeys (CallStep params) (Session.collectResults (σ := Traced σ) labels) :=
  Session.obeys_collectResults (σ := Traced σ) labels chains_callStep
    (callStep_use (fun _ _ => rfl) (by intro _ _ _ _ _ h; cases h) hK.executeCall)
    (callStep_use (fun _ _ => rfl) (by intro _ _ _ _ _ h; cases h) hK.moreResults)
    (callStep_use (fun _ _ => rfl) (by intro _ _ _ _ _ h; cases h) hK.resultSet)

theorem runStep_collectResults (labels : Option (List String)) :
    Obeys (RunStep params) (Session.collectResults (σ := Traced σ) labels) :=
  Session.obeys_collectResults (σ := Traced σ) labels chains_runStep
    (runStep_use (by intro _ _ _ h; cases h; rfl) hK.executeCall)
    (runStep_use (by intro _ _ _ h; cases h) hK.moreResults)
    (runStep_use (by intro _ _ _ h; cases h) hK.resultSet)

theorem callStep_bindAll (vs : List Value) :
    Obeys (CallStep params) (bindAll (Backend.bindCall (σ := Traced σ)) vs) :=
  obeys_bindFrom chains_callStep (callStep_bind hK) vs 1

theorem callStep_executeHeld (vs : List Value) :
    Obeys (CallStep params) (Session.executeHeld (σ := Traced σ) vs) := by
  refine Obeys.bind chains_callStep (callStep_bindAll hK vs) fun _ => ?_
  refine Obeys.bind chains_callStep ?_ fun _ => Obeys.of_fixed chains_callStep fun _ => rfl
  exact callStep_use (fun _ _ => rfl) (by intro _ _ _ _ _ h; cases h) hK.executeCall

theorem callStep_queryHeld (allResults : Bool) (labels : Option (List String)) (vs : List Value) :
    Obeys (CallStep params) (Session.queryHeld (σ := Traced σ) allResults labels vs) := by
  refine Obeys.bind chains_callStep (callStep_bindAll hK vs) fun _ => ?_
  split
  · exact callStep_collectResults hK labels
  · refine Obeys.bind chains_callStep ?_ fun _ => Obeys.of_fixed chains_callStep fun _ => rfl
    exact callStep_use (fun _ _ => rfl) (by intro _ _ _ _ _ h; cases h) hK.queryCall

/-- The traced call holds what the call behind it holds. -/
theorem params_bindAll {vs : List Value} {p q : Handle (Backend.Callable σ) × Traced σ}
    (h : bindAll (Backend.bindCall (σ := Traced σ)) vs p = (.ok (), q)) :
    params q.1.held = vs ++ (params p.1.held).drop vs.length := by
  have hsim : Simulates forgetPair (bindAll (Backend.bindCall (σ := Traced σ)) vs)
      (bindAll (Backend.bindCall (σ := σ)) vs) :=
    simulates_pair_iff.mpr (agrees_bindFrom answersAlike_inner.bindCall vs 1)
  have hplain := hsim p
  rw [h] at hplain
  exact hK.bindAll hplain

/-- Whatever comes after the binding runs the call with what is then bound. -/
theorem runsWith_bindAll {vs : List Value}
    {rest : Unit → Action (Handle (Backend.Callable σ) × Traced σ) α}
    (hrest : Obeys (RunStep params) (rest ())) :
    Obeys (RunsWith params vs) (bindAll (Backend.bindCall (σ := Traced σ)) vs >>= rest) := by
  intro p
  obtain ⟨hn, ev, hlog, hbound⟩ := logs_bindAllCall vs p
  have hquiet := run?_of_bindLog hbound
  rcases bind_cases (bindAll (Backend.bindCall (σ := Traced σ)) vs) rest p with
    ⟨x, hx, h⟩ | ⟨e, -, h⟩ <;> rw [h]
  · have hheld := params_bindAll hK (Prod.ext hx rfl)
    obtain ⟨-, -, ev', hlog', hruns⟩ := hrest (bindAll (Backend.bindCall (σ := Traced σ)) vs p).2
    refine ⟨ev ++ ev', by rw [← List.append_assoc, ← hlog]; exact hlog', fun e he r hr => ?_⟩
    rcases List.mem_append.mp he with he | he
    · rw [hquiet e he] at hr
      cases hr
    · obtain ⟨hnumber, hparams⟩ := hruns e he r hr
      exact ⟨hnumber.trans hn, hparams.trans hheld⟩
  · refine ⟨ev, hlog, fun e he r hr => ?_⟩
    rw [hquiet e he] at hr
    cases hr

theorem runsWith_executeHeld (vs : List Value) :
    Obeys (RunsWith params vs) (Session.executeHeld (σ := Traced σ) vs) := by
  refine runsWith_bindAll hK (Obeys.bind chains_runStep ?_ fun _ =>
    Obeys.of_fixed chains_runStep fun _ => rfl)
  exact runStep_use (by intro _ _ _ h; cases h; rfl) hK.executeCall

theorem runsWith_queryHeld (allResults : Bool) (labels : Option (List String)) (vs : List Value) :
    Obeys (RunsWith params vs) (Session.queryHeld (σ := Traced σ) allResults labels vs) := by
  refine runsWith_bindAll hK ?_
  split
  · exact runStep_collectResults hK labels
  · refine Obeys.bind chains_runStep ?_ fun _ => Obeys.of_fixed chains_runStep fun _ => rfl
    exact runStep_use (by intro _ _ _ h; cases h; rfl) hK.queryCall

end Executions

end SqlSession
