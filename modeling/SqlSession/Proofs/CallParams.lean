/-
What a procedure is called with.

The parameters of a session are emptied by every execution, but what they were bound to is
the held call, which is not.  So an execution calls the procedure with its own parameters
and, behind them, with what earlier executions of the same call have bound beyond their end.
`call_params_iff` says this for every method after every run, and reads off the log when
nothing is left over: exactly if nothing was ever bound to this call at a higher position,
not even by an execution that failed midway.

The invariant is `Accounted`: the held call holds as many values as the highest position in
the log at which one was bound to it.  It rests on the numbers of the calls, which are never
used again.
-/
import SqlSession.Proofs.CallSteps
import SqlSession.Proofs.Requests
import SqlSession.Proofs.Transparency

namespace SqlSession

open SqlSession.Action Traced

variable {σ : Type} [Backend σ] {α : Type}

/-! ### Requests that are about no call -/

/-- The log grows by events that are about no call. -/
def Quiet (t u : Traced σ) : Prop :=
  ∃ ev, u.log = t.log ++ ev ∧ ∀ e ∈ ev, e.request.call? = none

/-- Every request that is about no call, a statement's among them, adds such events. -/
theorem permits_quiet : Permits (Quiet (σ := σ)) :=
  permits_grows fun _ h => Request.call?_of_about? h

namespace Session

/-! ### The invariant -/

variable (params : Backend.Callable σ → List Value)

/-- The numbers of calls are taken from the log, and the held call holds as many values as
the highest position at which the log has one bound to it. -/
structure Accounted (s : Session (Traced σ)) : Prop where
  numbered : ∀ e ∈ s.backend.log, ∀ n, e.request.call? = some n → n < s.backend.log.length
  held : ∀ h, s.calling.handle = some h → h.number < s.backend.log.length ∧
    ∀ k, (params h.held).length ≤ k ↔ BoundUpTo h.number k s.backend.log

/-- The invariant is kept, and no call is run. -/
structure Idles (s t : Session (Traced σ)) : Prop where
  accounted : Accounted params s → Accounted params t
  log : ∃ ev, t.backend.log = s.backend.log ++ ev ∧ ∀ e ∈ ev, e.request.run? = none

variable {params}

theorem accounted_traced (product : Product) (backend : σ) :
    Accounted params (traced product backend) :=
  ⟨fun _ he => absurd he List.not_mem_nil, nofun⟩

theorem chains_idles : Chains (Idles params) where
  refl _ := ⟨id, [], (List.append_nil _).symm, fun _ he => absurd he List.not_mem_nil⟩
  trans := by
    intro s t u hst htu
    obtain ⟨ha, ev, hlog, h⟩ := hst
    obtain ⟨ha', ev', hlog', h'⟩ := htu
    refine ⟨ha' ∘ ha, ev ++ ev', by rw [hlog', hlog, List.append_assoc], fun e he => ?_⟩
    exact (List.mem_append.mp he).elim (h e) (h' e)

theorem run?_of_call? {request : Request (Backend.Callable σ)} (h : request.call? = none) :
    request.run? = none := by
  cases request <;> first | rfl | cases h

/-- What is about no call leaves the held one as it is. -/
theorem idles_quiet {s : Session (Traced σ)} {b : Traced σ} (h : Quiet s.backend b) :
    Idles params s { s with backend := b } := by
  obtain ⟨ev, hlog, hev⟩ := h
  refine ⟨fun ⟨hnumbered, hheld⟩ => ⟨?_, ?_⟩, ev, hlog, fun e he => run?_of_call? (hev e he)⟩
  · show ∀ e ∈ b.log, ∀ n, e.request.call? = some n → n < b.log.length
    rw [hlog, List.length_append]
    intro e he n hn
    rcases List.mem_append.mp he with he | he
    · exact Nat.lt_of_lt_of_le (hnumbered e he n hn) (Nat.le_add_right _ _)
    · rw [hev e he] at hn
      cases hn
  · intro call hcall
    obtain ⟨hlt, hk⟩ := hheld call hcall
    show call.number < b.log.length ∧ ∀ k, _ ↔ BoundUpTo call.number k b.log
    rw [hlog, List.length_append]
    refine ⟨Nat.lt_of_lt_of_le hlt (Nat.le_add_right _ _), fun k => ?_⟩
    rw [hk, boundUpTo_append]
    refine ⟨fun h => ⟨h, boundUpTo_of_other fun e he => ?_⟩, And.left⟩
    rw [hev e he]
    exact nofun

theorem idles_same {s t : Session (Traced σ)} (hb : t.backend = s.backend)
    (hh : t.calling.handle = s.calling.handle) : Idles params s t where
  accounted := by
    intro hs
    exact ⟨by rw [hb]; exact hs.numbered, by rw [hb, hh]; exact hs.held⟩
  log := ⟨[], by rw [hb, List.append_nil], fun _ he => absurd he List.not_mem_nil⟩

theorem idles_of_sameCall {s t : Session (Traced σ)} (h : SameCall s t) : Idles params s t :=
  idles_same h.backend h.handle

/-- A request to the held call keeps the account of what is bound to it. -/
theorem accounted_onCall {a : Action (Handle (Backend.Callable σ) × Traced σ) α}
    (h : Obeys (CallStep params) a) (action : String) {s : Session (Traced σ)}
    (hs : Accounted params s) : Accounted params (onCall (σ := Traced σ) action a s).2 := by
  cases hh : s.calling.handle with
  | none =>
      rw [onCall_of_none _ hh]
      exact hs
  | some call =>
      obtain ⟨hn, ev, hlog, hto, hk⟩ := h (call, s.backend)
      obtain ⟨hlt, hheld⟩ := hs.held call hh
      have hlog : (a (call, s.backend)).2.2.log = s.backend.log ++ ev := hlog
      rw [onCall_of_held _ hh]
      constructor
      · show ∀ e ∈ (a (call, s.backend)).2.2.log, ∀ n, _ → n < (a (call, s.backend)).2.2.log.length
        rw [hlog, List.length_append]
        intro e he n hnumber
        rcases List.mem_append.mp he with he | he
        · exact Nat.lt_of_lt_of_le (hs.numbered e he n hnumber) (Nat.le_add_right _ _)
        · cases hnumber.symm.trans (hto e he)
          exact Nat.lt_of_lt_of_le hlt (Nat.le_add_right _ _)
      · intro held h
        cases h
        show _ < (a (call, s.backend)).2.2.log.length ∧
          ∀ k, _ ↔ BoundUpTo _ k (a (call, s.backend)).2.2.log
        rw [hn, hlog, List.length_append]
        refine ⟨Nat.lt_of_lt_of_le hlt (Nat.le_add_right _ _), fun k => ?_⟩
        rw [hk, hheld, boundUpTo_append]

theorem handle_releaseCall (s : Session (Traced σ)) : (releaseCall s).calling.handle = none := by
  cases hh : s.calling.handle with
  | none => simp only [releaseCall, hh]
  | some call => simp only [releaseCall, hh]

/-- Closing the held call binds nothing, and no call is held then. -/
theorem idles_releaseCall (s : Session (Traced σ)) : Idles params s (releaseCall s) := by
  refine ⟨fun hs => ⟨?_, ?_⟩, _, releaseCall_log s, fun e he => ?_⟩
  · rw [releaseCall_log, List.length_append]
    intro e he n hn
    rcases List.mem_append.mp he with he | he
    · exact Nat.lt_of_lt_of_le (hs.numbered e he n hn) (Nat.le_add_right _ _)
    · obtain ⟨m, hm, rfl⟩ := mem_closing he
      obtain ⟨call, hcall, rfl⟩ := Option.map_eq_some_iff.mp hm
      cases hn
      exact Nat.lt_of_lt_of_le (hs.held call hcall).1 (Nat.le_add_right _ _)
  · rw [handle_releaseCall]
    intro held h
    cases h
  · obtain ⟨m, -, rfl⟩ := mem_closing he
    rfl

/-- A call that is prepared gets a number that the log does not have yet, and holds nothing. -/
theorem idles_call (hK : KeepsBound params) (procedure : String) (s : Session (Traced σ)) :
    Idles params s (call (σ := Traced σ) procedure s).2 := by
  cases hopen : s.isOpen with
  | false =>
      rw [call_of_closed procedure hopen]
      exact chains_idles.refl s
  | true =>
      rcases hp : Backend.prepareCall procedure s.backend.inner with ⟨e | held, b⟩
      · rw [call_of_error hopen (prepare_of_error hp)]
        exact idles_quiet ⟨_, rfl, fun e he => by rw [List.mem_singleton.mp he]; rfl⟩
      · rw [call_of_ok hopen (prepare_of_ok hp)]
        let prepared : Session (Traced σ) := { s with
          backend := ⟨b, s.backend.log ++ [⟨.prepareCall s.backend.log.length procedure, true⟩]⟩ }
        have hquiet : Idles params s prepared :=
          idles_quiet ⟨_, rfl, fun e he => by rw [List.mem_singleton.mp he]; rfl⟩
        have hreleased := chains_idles.trans hquiet (idles_releaseCall prepared)
        refine ⟨fun hs => ⟨(hreleased.accounted hs).numbered, ?_⟩, hreleased.log⟩
        intro held' h
        cases h
        show s.backend.log.length < prepared.releaseCall.backend.log.length ∧
          ∀ k, (params held).length ≤ k ↔
            BoundUpTo s.backend.log.length k prepared.releaseCall.backend.log
        rw [releaseCall_log, hK.prepared hp]
        constructor
        · simp only [prepared, List.length_append, List.length_singleton]
          omega
        · intro k
          have hlog' : BoundUpTo s.backend.log.length k s.backend.log :=
            boundUpTo_of_other fun e he hn => Nat.lt_irrefl _ (hs.numbered e he _ hn)
          have hprepare : BoundUpTo s.backend.log.length k
              [(⟨.prepareCall s.backend.log.length procedure, true⟩ :
                Event (Backend.Callable σ))] :=
            boundUpTo_of_other fun e he => by rw [List.mem_singleton.mp he]; exact nofun
          have hclose : BoundUpTo s.backend.log.length k
              (closing prepared.heldCall : List (Event (Backend.Callable σ))) := by
            intro i v hm
            obtain ⟨m, -, hclosed⟩ := mem_closing hm
            cases hclosed
          exact ⟨fun _ => boundUpTo_append.mpr ⟨boundUpTo_append.mpr ⟨hlog', hprepare⟩, hclose⟩,
            fun _ => Nat.zero_le k⟩

/-! ### Methods that end the call or register with it -/

theorem idles_reset (s : Session (Traced σ)) : Idles params s (reset s) :=
  chains_idles.trans (idles_releaseCall s) (idles_same rfl (handle_releaseCall s).symm)

theorem idles_close : Obeys (Idles params) (close (σ := Traced σ)) := by
  intro s
  have hclose : Idles params (reset s) (ifOpen () (Backend.close (σ := Traced σ)) (reset s)).2 :=
    obeys_ifOpen chains_idles (fun _ _ _ => idles_quiet) () permits_quiet.close (reset s)
  exact chains_idles.trans (idles_reset s) (chains_idles.trans hclose (idles_same rfl rfl))

theorem idles_register (hK : KeepsBound params) (position : Nat) (type : TypeCode) :
    Obeys (Idles params)
      (onCall (σ := Traced σ) "out_param" (Backend.register position type)) := by
  intro s
  refine ⟨accounted_onCall (callStep_use (fun _ _ => rfl) (by intro _ _ _ _ _ h; cases h)
    (hK.register position type)) "out_param", ?_⟩
  cases hh : s.calling.handle with
  | none =>
      rw [onCall_of_none _ hh]
      exact ⟨[], (List.append_nil _).symm, fun _ he => absurd he List.not_mem_nil⟩
  | some call =>
      rw [onCall_of_held _ hh]
      exact ⟨_, rfl, fun e he => by rw [List.mem_singleton.mp he]; rfl⟩

/-! ### Methods that run the call -/

/-- The invariant is kept, and whatever is run is the held call, with the parameters of the
session and behind them what was bound beyond. -/
structure MethodStep (params : Backend.Callable σ → List Value) (s t : Session (Traced σ)) :
    Prop where
  accounted : Accounted params s → Accounted params t
  log : ∃ ev, t.backend.log = s.backend.log ++ ev ∧ ∀ e ∈ ev, ∀ r, e.request.run? = some r →
    ∃ call, s.calling.handle = some call ∧ r.number = call.number ∧
      params r.held = s.params ++ (params call.held).drop s.params.length

theorem methodStep_of_idles {s t : Session (Traced σ)} (h : Idles params s t) :
    MethodStep params s t := by
  obtain ⟨ev, hlog, hev⟩ := h.log
  refine ⟨h.accounted, ev, hlog, fun e he r hr => ?_⟩
  rw [hev e he] at hr
  cases hr

theorem methodStep_onCall {a : Action (Handle (Backend.Callable σ) × Traced σ) α}
    {s : Session (Traced σ)} (hstep : Obeys (CallStep params) a)
    (hruns : Obeys (RunsWith params s.params) a) (action : String) :
    MethodStep params s (onCall (σ := Traced σ) action a s).2 := by
  refine ⟨accounted_onCall hstep action, ?_⟩
  cases hh : s.calling.handle with
  | none =>
      rw [onCall_of_none _ hh]
      exact ⟨[], (List.append_nil _).symm, fun _ he => absurd he List.not_mem_nil⟩
  | some call =>
      obtain ⟨ev, hlog, hev⟩ := hruns (call, s.backend)
      rw [onCall_of_held _ hh]
      exact ⟨ev, hlog, fun e he r hr => ⟨call, rfl, hev e he r hr⟩⟩

theorem methodStep_executeCall (hK : KeepsBound params) (s : Session (Traced σ)) :
    MethodStep params s (executeCall s).2 := by
  rw [executeCall_eq]
  exact methodStep_onCall (callStep_executeHeld hK _) (runsWith_executeHeld hK _) "execute"

theorem methodStep_runCall (hK : KeepsBound params) (allResults : Bool) (s : Session (Traced σ)) :
    MethodStep params s (runCall allResults s).2 := by
  cases hl : s.callLabels with
  | error e =>
      rw [runCall_of_unread allResults hl]
      exact methodStep_of_idles (chains_idles.refl s)
  | ok labels =>
      rw [runCall_of_labels allResults hl]
      exact methodStep_onCall (callStep_queryHeld hK allResults labels _)
        (runsWith_queryHeld hK allResults labels _) "query_procedure"

theorem methodStep_perform (hK : KeepsBound params) (m : Method) (s : Session (Traced σ)) :
    MethodStep params s (perform m s).2 := by
  cases hm : m.keepsCall with
  | true =>
      refine obeys_perform permits_quiet chains_idles idles_of_sameCall
        (fun _ _ _ => idles_quiet) methodStep_of_idles (fun {_ t} h => ?_)
        (methodStep_executeCall hK) (methodStep_runCall hK) (idles_register hK) hm s
      have hcleared : Idles params t { t with params := [] } := idles_same rfl rfl
      exact ⟨fun hs => hcleared.accounted (h.accounted hs), h.log⟩
  | false =>
      cases m with
      | call procedure => exact methodStep_of_idles (idles_call hK procedure s)
      | reset => exact methodStep_of_idles (idles_reset s)
      | close => exact methodStep_of_idles (idles_close s)
      | _ => cases hm

theorem accounted_run (hK : KeepsBound params) (product : Product) (backend : σ)
    (ms : List Method) : Accounted params (run ms (traced product backend)) :=
  run_induction (fun m s => (methodStep_perform hK m s).accounted) ms
    (accounted_traced product backend)

/--
**A procedure is called with its parameters exactly if nothing was bound beyond them.**  Over
any backend whose calls keep what is bound to them, whatever method is called after whatever
run, each run of a procedure is one of the held call, with the parameters of the session at
that moment and, behind them, what the call held beyond their number.  So it is called with
just these parameters if and only if the log has nothing that was ever bound to this call at
a higher position.
-/
theorem call_params_iff (hK : KeepsBound params) (product : Product) (backend : σ)
    (ms : List Method) (m : Method) :
    let s := run ms (traced product backend)
    ∃ ev, (perform m s).2.backend.log = s.backend.log ++ ev ∧
      ∀ e ∈ ev, ∀ r, e.request.run? = some r →
        ∃ call, s.calling.handle = some call ∧ r.number = call.number ∧
          params r.held = s.params ++ (params call.held).drop s.params.length ∧
          (params r.held = s.params ↔
            BoundUpTo call.number s.params.length s.backend.log) := by
  intro s
  obtain ⟨ev, hlog, hev⟩ := (methodStep_perform hK m s).log
  refine ⟨ev, hlog, fun e he r hr => ?_⟩
  obtain ⟨call, hcall, hnumber, hparams⟩ := hev e he r hr
  refine ⟨call, hcall, hnumber, hparams, ?_⟩
  have hheld := ((accounted_run hK product backend ms).held call hcall).2 s.params.length
  rw [hparams, ← hheld]
  constructor
  · intro h
    have hlength := congrArg List.length h
    rw [List.length_append, List.length_drop] at hlength
    omega
  · intro h
    rw [List.drop_eq_nil_of_le h, List.append_nil]

/-- The second execution of a call whose first one had two parameters. -/
theorem call_params_of_restock :
    KeepsBound (σ := Scripted.Connection) Scripted.Call.params ∧
      let s := run [.call "restock(?, ?)", .param (.bool true), .param (.bool false), .execute,
        .param .null] (traced .postgreSql ({} : Scripted.Connection))
      ∃ ev, (perform .execute s).2.backend.log = s.backend.log ++ ev ∧
        ∀ e ∈ ev, ∀ r, e.request.run? = some r →
          ∃ call, s.calling.handle = some call ∧ r.number = call.number ∧
            r.held.params = s.params ++ call.held.params.drop s.params.length ∧
            (r.held.params = s.params ↔
              BoundUpTo call.number s.params.length s.backend.log) :=
  ⟨Scripted.keepsBound, call_params_iff Scripted.keepsBound .postgreSql {} _ .execute⟩

/-- That execution calls the procedure with a value of the first one. -/
theorem restock_is_called_with_stale_value :
    ¬∀ (c : Scripted.Connection) (ms : List Method) (m : Method) (ev : List (Event Scripted.Call))
      (n : Nat) (held : Scripted.Call),
      (perform m (run ms (traced .postgreSql c))).2.backend.log =
          (run ms (traced .postgreSql c)).backend.log ++ ev →
        ⟨.executeCall n held, true⟩ ∈ ev →
          held.params = (run ms (traced .postgreSql c)).params := by
  intro h
  have hparams := h {}
    [.call "restock(?, ?)", .param (.bool true), .param (.bool false), .execute, .param .null]
    .execute
    [⟨.bindCall 0 1 .null, true⟩,
      ⟨.executeCall 0
        { text := "\x7bcall restock(?, ?)\x7d", params := [.null, .bool false] }, true⟩]
    0 { text := "\x7bcall restock(?, ?)\x7d", params := [.null, .bool false] } rfl (by decide)
  exact absurd hparams (by decide)

end Session

end SqlSession
