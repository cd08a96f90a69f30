/-
The life of a procedure call.

A session holds at most one call, and between two methods that is the only one that is open.
A call is opened when it is prepared, and it ends when the session lets it go: another call
takes its place, the session is reset, or it is closed.  Nothing else closes it, and nothing
is asked of it before or after.

The log tells all of this, since every call has a number of its own.  `Tidy` is the invariant:
the open calls of the log are the held one, and the log is in order.  A method that keeps the
call only adds requests about no call and uses of the held one (`Serves`); the three methods
that end a call add its closing, and then no call is open but the new one, if there is one.
-/
import SqlSession.Proofs.Requests
import SqlSession.Proofs.Transparency

namespace SqlSession

open SqlSession.Action Traced

variable {σ : Type} [Backend σ] {α Callable : Type}

/-! ### Open calls -/

/-- The call that an event opens. -/
def Event.opens? : Event Callable → Option Nat
  | ⟨.prepareCall n _, true⟩ => some n
  | _ => none

/-- The call that an event closes. -/
def Event.closes? : Event Callable → Option Nat
  | ⟨.closeCall n, _⟩ => some n
  | _ => none

/-- The log has the call opened and not closed. -/
def OpenCall (n : Nat) (log : List (Event Callable)) : Prop :=
  (∃ e ∈ log, e.opens? = some n) ∧ ∀ e ∈ log, e.closes? ≠ some n

/-- Whatever is asked of a call, be it a use or its closing, is asked while it is open. -/
def Orderly (log : List (Event Callable)) : Prop :=
  ∀ before e after, log = before ++ e :: after →
    ∀ n, e.request.call? = some n → OpenCall n before

theorem call?_of_closes? {e : Event Callable} {n : Nat} (h : e.closes? = some n) :
    e.request.call? = some n := by
  obtain ⟨request, done⟩ := e
  cases request <;> first | exact h | cases h

/-- A use of a call neither opens nor closes one. -/
theorem event_of_usesCall {e : Event (Backend.Callable σ)} {n : Nat} (h : UsesCall n e) :
    e.opens? = none ∧ e.closes? = none ∧ e.request.call? = some n := by
  obtain ⟨request, done⟩ := e
  cases request <;> first | exact ⟨rfl, rfl, h⟩ | cases h

/-- Neither does what is about no call. -/
theorem event_of_about? {e : Event Callable} (h : e.request.about? = none) :
    e.opens? = none ∧ e.closes? = none ∧ e.request.call? = none := by
  obtain ⟨request, done⟩ := e
  cases request <;> first | exact ⟨rfl, rfl, h⟩ | cases h

theorem not_openCall_nil (n : Nat) : ¬OpenCall n ([] : List (Event Callable)) := by
  rintro ⟨⟨e, he, -⟩, -⟩
  exact List.not_mem_nil he

theorem openCall_append {n : Nat} {log ev : List (Event Callable)} (hopens : ∀ e ∈ ev, e.opens? = none)
    (hcloses : ∀ e ∈ ev, e.closes? = none) : OpenCall n (log ++ ev) ↔ OpenCall n log := by
  constructor
  · rintro ⟨⟨e, he, hn⟩, hlog⟩
    refine ⟨⟨e, ?_, hn⟩, fun e he => hlog e (List.mem_append_left _ he)⟩
    refine (List.mem_append.mp he).resolve_right fun hev => ?_
    rw [hopens e hev] at hn
    cases hn
  · rintro ⟨⟨e, he, hn⟩, hlog⟩
    refine ⟨⟨e, List.mem_append_left _ he, hn⟩, fun e he => ?_⟩
    rcases List.mem_append.mp he with he | he
    · exact hlog e he
    · rw [hcloses e he]
      exact nofun

theorem orderly_nil : Orderly ([] : List (Event Callable)) := by
  intro before e after h
  cases before <;> cases h

theorem Orderly.concat {log : List (Event Callable)} (h : Orderly log) {e : Event Callable}
    (he : ∀ n, e.request.call? = some n → OpenCall n log) : Orderly (log ++ [e]) := by
  intro before x after heq n hn
  rcases List.eq_nil_or_concat after with rfl | ⟨after, last, rfl⟩
  · obtain ⟨rfl, hx⟩ := List.append_inj' heq rfl
    cases hx
    exact he n hn
  · rw [List.concat_eq_append, ← List.cons_append, ← List.append_assoc] at heq
    exact h before x after (List.append_inj' heq rfl).1 n hn

/-- Uses of open calls keep the log in order. -/
theorem Orderly.append {log ev : List (Event Callable)} (h : Orderly log)
    (hopens : ∀ e ∈ ev, e.opens? = none) (hcloses : ∀ e ∈ ev, e.closes? = none)
    (hcall : ∀ e ∈ ev, ∀ n, e.request.call? = some n → OpenCall n log) : Orderly (log ++ ev) := by
  induction ev generalizing log with
  | nil => rwa [List.append_nil]
  | cons e ev ih =>
      have hhead : e ∈ e :: ev := List.mem_cons_self ..
      have htail {x : Event Callable} (hx : x ∈ ev) : x ∈ e :: ev := List.mem_cons_of_mem e hx
      have hone {n : Nat} (hn : OpenCall n log) : OpenCall n (log ++ [e]) := by
        refine (openCall_append ?_ ?_).mpr hn <;> intro x hx <;> rw [List.mem_singleton.mp hx]
        · exact hopens e hhead
        · exact hcloses e hhead
      rw [← List.singleton_append, ← List.append_assoc]
      exact ih (h.concat fun n hn => hcall e hhead n hn) (fun x hx => hopens x (htail hx))
        (fun x hx => hcloses x (htail hx)) fun x hx n hn => hone (hcall x (htail hx) n hn)

/-! ### Closing the held call -/

theorem openCall_closing {n : Nat} {log : List (Event Callable)} {held : Option Nat} :
    OpenCall n (log ++ closing held) ↔ OpenCall n log ∧ held ≠ some n := by
  cases held with
  | none =>
      simp only [closing, Option.toList_none, List.map_nil, List.append_nil, ne_eq, reduceCtorEq,
        not_false_eq_true, and_true]
  | some m =>
      simp only [closing, Option.toList_some, List.map_cons, List.map_nil, OpenCall,
        List.mem_append, List.mem_singleton, or_imp, forall_and, forall_eq, or_and_right,
        exists_or, exists_eq_left, Event.opens?, Event.closes?, reduceCtorEq, or_false, ne_eq,
        and_assoc]

theorem Orderly.closing {log : List (Event Callable)} {held : Option Nat} (h : Orderly log)
    (hheld : ∀ n, held = some n → OpenCall n log) : Orderly (log ++ SqlSession.closing held) := by
  cases held with
  | none =>
      show Orderly (log ++ [])
      rwa [List.append_nil]
  | some m => exact h.concat fun n hn => hheld n hn

/-- The method lets go of the held call: it starts another one, and succeeds, or it ends them
all. -/
def Method.releases (m : Method) (answer : Except DbError Answer) : Bool :=
  match m with
  | .call _ => answer.isOk
  | .reset | .close => true
  | _ => false

theorem Method.not_releases {m : Method} (h : m.keepsCall = true) (answer : Except DbError Answer) :
    m.releases answer = false := by
  cases m <;> first | rfl | cases h

namespace Session

/-! ### The invariant -/

/-- What holds of the held call and the log between two methods. -/
structure Tidy (s : Session (Traced σ)) : Prop where
  /-- The open call is the held one. -/
  held : ∀ n, OpenCall n s.backend.log ↔ s.heldCall = some n
  orderly : Orderly s.backend.log
  /-- The numbers are taken from the log. -/
  numbered : ∀ e ∈ s.backend.log, ∀ n, e.opens? = some n → n < s.backend.log.length
  procedure : s.operation = .procedure → s.heldCall ≠ none
  closed : s.isOpen = false → s.heldCall = none

theorem Tidy.lt_of_open {s : Session (Traced σ)} (h : Tidy s) {n : Nat}
    (hn : OpenCall n s.backend.log) : n < s.backend.log.length := by
  obtain ⟨⟨e, he, hopens⟩, -⟩ := hn
  exact h.numbered e he n hopens

/-- A number that the log does not have yet is not closed in it. -/
theorem Tidy.not_closes {s : Session (Traced σ)} (h : Tidy s) :
    ∀ e ∈ s.backend.log, e.closes? ≠ some s.backend.log.length := by
  intro e he hcloses
  obtain ⟨before, after, hlog⟩ := List.append_of_mem he
  obtain ⟨⟨e', he', hopens⟩, -⟩ := h.orderly before e after hlog _ (call?_of_closes? hcloses)
  have hmem : e' ∈ s.backend.log := hlog ▸ List.mem_append_left _ he'
  exact Nat.lt_irrefl _ (h.numbered e' hmem _ hopens)

theorem tidy_traced (product : Product) (backend : σ) : Tidy (traced product backend) where
  held n := ⟨fun h => absurd h (not_openCall_nil n), nofun⟩
  orderly := orderly_nil
  numbered _ he := absurd he List.not_mem_nil
  procedure := nofun
  closed := nofun

/-! ### Methods that keep the call -/

/-- The held call is kept and at most used, and a closed session asks nothing. -/
structure Serves (s t : Session (Traced σ)) : Prop where
  held : t.heldCall = s.heldCall
  isOpen : t.isOpen = s.isOpen
  operation : t.operation = .procedure → s.operation = .procedure
  log : ∃ ev, t.backend.log = s.backend.log ++ ev ∧ ∀ e ∈ ev,
    e.opens? = none ∧ e.closes? = none ∧ ∀ n, e.request.call? = some n → s.heldCall = some n
  closed : s.isOpen = false → s.heldCall = none → t.backend = s.backend

theorem chains_serves : Chains (Serves (σ := σ)) where
  refl _ := ⟨rfl, rfl, id, ⟨[], (List.append_nil _).symm, fun _ he => absurd he List.not_mem_nil⟩,
    fun _ _ => rfl⟩
  trans := by
    intro s t u hst htu
    obtain ⟨ev, hlog, hev⟩ := hst.log
    obtain ⟨ev', hlog', hev'⟩ := htu.log
    rw [hst.held] at hev'
    exact
      { held := htu.held.trans hst.held
        isOpen := htu.isOpen.trans hst.isOpen
        operation := hst.operation ∘ htu.operation
        log := by
          refine ⟨ev ++ ev', by rw [hlog', hlog, List.append_assoc], fun e he => ?_⟩
          exact (List.mem_append.mp he).elim (hev e) (hev' e)
        closed := fun hclosed hheld => by
          rw [htu.closed (hst.isOpen.trans hclosed) (hst.held.trans hheld)]
          exact hst.closed hclosed hheld }

theorem serves_of_sameCall {s t : Session (Traced σ)} (h : SameCall s t) : Serves s t where
  held := by rw [heldCall, heldCall, h.handle]
  isOpen := h.isOpen
  operation := h.operation
  log := ⟨[], by rw [h.backend, List.append_nil], fun _ he => absurd he List.not_mem_nil⟩
  closed _ _ := h.backend

/-- An open session may make requests that are about no call. -/
theorem serves_of_grows (s : Session (Traced σ)) (b : Traced σ) (hopen : s.isOpen = true)
    (h : Grows (fun e => e.request.about? = none) s.backend b) :
    Serves s { s with backend := b } where
  held := rfl
  isOpen := rfl
  operation := id
  log := by
    obtain ⟨ev, hlog, hev⟩ := h
    refine ⟨ev, hlog, fun e he => ?_⟩
    obtain ⟨hopens, hcloses, hcall⟩ := event_of_about? (hev e he)
    refine ⟨hopens, hcloses, fun n hn => ?_⟩
    rw [hcall] at hn
    cases hn
  closed hclosed := by
    rw [hopen] at hclosed
    cases hclosed

theorem serves_onCall {a : Action (Handle (Backend.Callable σ) × Traced σ) α} (action : String)
    (h : Obeys (GrowsBy (UsesCall (σ := σ))) a) :
    Obeys Serves (onCall (σ := Traced σ) action a) := by
  intro s
  cases hh : s.calling.handle with
  | none =>
      rw [onCall_of_none _ hh]
      exact chains_serves.refl s
  | some call =>
      obtain ⟨hn, ev, hlog, hev⟩ := h (call, s.backend)
      have hheld : s.heldCall = some call.number := by rw [heldCall, hh]; rfl
      rw [onCall_of_held _ hh]
      exact
        { held := (congrArg some hn).trans hheld.symm
          isOpen := rfl
          operation := id
          log := by
            refine ⟨ev, hlog, fun e he => ?_⟩
            obtain ⟨hopens, hcloses, hcall⟩ := event_of_usesCall (hev e he)
            refine ⟨hopens, hcloses, fun n hn => ?_⟩
            rw [hheld, ← hcall, hn]
          closed := fun _ hnone => by
            rw [hheld] at hnone
            cases hnone }

theorem serves_executeCall : Obeys Serves (executeCall (σ := Traced σ)) := by
  intro s
  rw [executeCall_eq]
  exact serves_onCall "execute" (usesCall_executeHeld s.params) s

theorem serves_runCall (allResults : Bool) : Obeys Serves (runCall (σ := Traced σ) allResults) := by
  intro s
  cases hl : s.callLabels with
  | error e =>
      rw [runCall_of_unread allResults hl]
      exact chains_serves.refl s
  | ok labels =>
      rw [runCall_of_labels allResults hl]
      exact serves_onCall "query_procedure" (usesCall_queryHeld allResults labels s.params) s

theorem serves_perform {m : Method} (hm : m.keepsCall = true) :
    Obeys Serves (perform (σ := Traced σ) m) :=
  obeys_perform (permits_grows fun _ h => h) chains_serves serves_of_sameCall serves_of_grows
    id (fun h => chains_serves.trans h (serves_of_sameCall ⟨rfl, rfl, rfl, id⟩)) serves_executeCall
    serves_runCall
    (fun _ _ => serves_onCall "out_param" (growsBy_use (fun _ _ _ => rfl) _)) hm

theorem tidy_of_serves {s t : Session (Traced σ)} (h : Serves s t) (hs : Tidy s) : Tidy t := by
  obtain ⟨ev, hlog, hev⟩ := h.log
  have hopens : ∀ e ∈ ev, e.opens? = none := fun e he => (hev e he).1
  have hcloses : ∀ e ∈ ev, e.closes? = none := fun e he => (hev e he).2.1
  exact
    { held := fun n => by
        rw [hlog, openCall_append hopens hcloses, hs.held, h.held]
      orderly := by
        rw [hlog]
        exact hs.orderly.append hopens hcloses fun e he n hn => (hs.held n).mpr ((hev e he).2.2 n hn)
      numbered := by
        rw [hlog, List.length_append]
        intro e he n hn
        rcases List.mem_append.mp he with he | he
        · exact Nat.lt_of_lt_of_le (hs.numbered e he n hn) (Nat.le_add_right _ _)
        · rw [hopens e he] at hn
          cases hn
      procedure := fun hop => by
        rw [h.held]
        exact hs.procedure (h.operation hop)
      closed := fun hclosed => by
        rw [h.held]
        exact hs.closed (h.isOpen.symm.trans hclosed) }

/-! ### Methods that end a call -/

/-- Once the held call is let go of, no call is open, and the log is still in order. -/
theorem tidy_of_released {s t : Session (Traced σ)} (hs : Tidy s)
    (hlog : t.backend.log = s.backend.log ++ closing s.heldCall) (hheld : t.heldCall = none)
    (hop : t.operation ≠ .procedure) : Tidy t where
  held n := by
    rw [hlog, openCall_closing, hs.held, hheld]
    simp only [and_not_self_iff, ne_eq, reduceCtorEq]
  orderly := by
    rw [hlog]
    exact hs.orderly.closing fun n => (hs.held n).mpr
  numbered := by
    rw [hlog, List.length_append]
    intro e he n hn
    rcases List.mem_append.mp he with he | he
    · exact Nat.lt_of_lt_of_le (hs.numbered e he n hn) (Nat.le_add_right _ _)
    · obtain ⟨m, -, rfl⟩ := List.mem_map.mp he
      cases hn
  procedure h := absurd h hop
  closed _ := hheld

theorem tidy_reset {s : Session (Traced σ)} (hs : Tidy s) : Tidy (reset s) :=
  tidy_of_released hs (releaseCall_log s) rfl nofun

theorem serves_close_reset (s : Session (Traced σ)) :
    Serves (reset s) (ifOpen () (Backend.close (σ := Traced σ)) (reset s)).2 :=
  obeys_ifOpen chains_serves serves_of_grows ()
    (permits_grows (σ := σ) fun _ h => h).close (reset s)

theorem heldCall_close (s : Session (Traced σ)) : (close s).2.heldCall = none :=
  (serves_close_reset s).held

theorem tidy_close {s : Session (Traced σ)} (hs : Tidy s) : Tidy (close s).2 := by
  have hreset := tidy_of_serves (serves_close_reset s) (tidy_reset hs)
  exact
    { hreset with
      procedure := hreset.procedure
      closed := fun _ => heldCall_close s }

/-- A call that is not prepared leaves all but the connection as it is. -/
theorem call_of_failed {procedure : String} {s : Session (Traced σ)} {e : DbError}
    (h : (call (σ := Traced σ) procedure s).1 = .error e) :
    (call (σ := Traced σ) procedure s).2 =
        { s with backend := (call (σ := Traced σ) procedure s).2.backend } ∧
      Serves s (call (σ := Traced σ) procedure s).2 := by
  by_cases hopen : s.isOpen = true
  · rcases hp : Backend.prepareCall procedure s.backend.inner with ⟨e' | held, b⟩
    · rw [call_of_error hopen (prepare_of_error hp)]
      refine ⟨rfl, rfl, rfl, id, ⟨_, rfl, fun x hx => ?_⟩, fun hclosed => ?_⟩
      · rw [List.mem_singleton.mp hx]
        exact ⟨rfl, rfl, nofun⟩
      · rw [hopen] at hclosed
        cases hclosed
    · rw [call_of_ok hopen (prepare_of_ok hp)] at h
      cases h
  · rw [call_of_closed procedure (Bool.eq_false_iff.mpr hopen)]
    exact ⟨rfl, chains_serves.refl s⟩

/-- A call that is prepared gets the next number and takes the place of the held one, which
is closed behind it. -/
theorem call_of_prepared {procedure : String} {s : Session (Traced σ)}
    (h : (call (σ := Traced σ) procedure s).1 = .ok ()) :
    (call (σ := Traced σ) procedure s).2.backend.log =
        s.backend.log ++ [⟨.prepareCall s.backend.log.length procedure, true⟩]
          ++ closing s.heldCall ∧
      (call (σ := Traced σ) procedure s).2.heldCall = some s.backend.log.length ∧
      (call (σ := Traced σ) procedure s).2.isOpen = true ∧ s.isOpen = true := by
  cases hopen : s.isOpen with
  | false =>
      rw [call_of_closed procedure hopen] at h
      cases h
  | true =>
      rcases hp : Backend.prepareCall procedure s.backend.inner with ⟨e | held, b⟩
      · rw [call_of_error hopen (prepare_of_error hp)] at h
        cases h
      · rw [call_of_ok hopen (prepare_of_ok hp)]
        exact ⟨releaseCall_log _, rfl, (releaseCall_isOpen _).trans hopen, rfl⟩

/-- A number that is opened anew is open beside those that are. -/
theorem openCall_prepared {s : Session (Traced σ)} (hs : Tidy s) (procedure : String) (n : Nat) :
    OpenCall n (s.backend.log ++ [⟨.prepareCall s.backend.log.length procedure, true⟩]) ↔
      OpenCall n s.backend.log ∨ n = s.backend.log.length := by
  constructor
  · rintro ⟨⟨e, he, hn⟩, hlog⟩
    rcases List.mem_append.mp he with he | he
    · exact Or.inl ⟨⟨e, he, hn⟩, fun e he => hlog e (List.mem_append_left _ he)⟩
    · rw [List.mem_singleton.mp he] at hn
      cases hn
      exact Or.inr rfl
  · intro h
    have hnew : ∀ e ∈ [(⟨.prepareCall s.backend.log.length procedure, true⟩ :
        Event (Backend.Callable σ))], e.closes? ≠ some n := by
      intro e he
      rw [List.mem_singleton.mp he]
      exact nofun
    rcases h with ⟨⟨e, he, hn⟩, hlog⟩ | rfl
    · exact ⟨⟨e, List.mem_append_left _ he, hn⟩, fun e he =>
        (List.mem_append.mp he).elim (hlog e) (hnew e)⟩
    · exact ⟨⟨_, List.mem_append_right _ (List.mem_singleton_self _), rfl⟩, fun e he =>
        (List.mem_append.mp he).elim (hs.not_closes e) (hnew e)⟩

theorem tidy_call {procedure : String} {s : Session (Traced σ)} (hs : Tidy s) :
    Tidy (call (σ := Traced σ) procedure s).2 := by
  cases h : (call (σ := Traced σ) procedure s).1 with
  | error e => exact tidy_of_serves (call_of_failed h).2 hs
  | ok _ =>
      obtain ⟨hlog, hheld, hopen, -⟩ := call_of_prepared h
      -- the log between preparing the new call and closing the old one
      let log := s.backend.log ++
        [(⟨.prepareCall s.backend.log.length procedure, true⟩ : Event (Backend.Callable σ))]
      have hprepared : Orderly log := hs.orderly.concat fun n hn => nomatch hn
      exact
        { held := fun n => by
            rw [hlog, openCall_closing, openCall_prepared hs, hs.held, hheld]
            constructor
            · rintro ⟨h | rfl, hne⟩
              · exact absurd h hne
              · rfl
            · intro h
              cases h
              refine ⟨Or.inr rfl, fun h => ?_⟩
              exact Nat.lt_irrefl _ (hs.lt_of_open ((hs.held _).mpr h))
          orderly := by
            rw [hlog]
            refine hprepared.closing fun n hn => (openCall_prepared hs procedure n).mpr ?_
            exact Or.inl ((hs.held n).mpr hn)
          numbered := by
            rw [hlog, List.length_append, List.length_append, List.length_singleton]
            intro e he n hn
            rcases List.mem_append.mp he with he | he
            · rcases List.mem_append.mp he with he | he
              · have := hs.numbered e he n hn
                omega
              · rw [List.mem_singleton.mp he] at hn
                cases hn
                omega
            · obtain ⟨m, -, rfl⟩ := List.mem_map.mp he
              cases hn
          procedure := fun _ => by
            rw [hheld]
            exact nofun
          closed := fun hclosed => by
            rw [hopen] at hclosed
            cases hclosed }

/-! ### Every method -/

theorem answer_call {procedure : String} {s : Session (Traced σ)} {e : DbError}
    (h : (perform (σ := Traced σ) (.call procedure) s).1 = .error e) :
    (call (σ := Traced σ) procedure s).1 = .error e := by
  have h : (call (σ := Traced σ) procedure s).1.map (fun _ => Answer.done) = .error e := h
  cases hc : (call (σ := Traced σ) procedure s).1 with
  | ok _ =>
      rw [hc] at h
      cases h
  | error e' =>
      rw [hc] at h
      cases h
      rfl

theorem tidy_perform (m : Method) (s : Session (Traced σ)) (hs : Tidy s) :
    Tidy (perform m s).2 := by
  cases hm : m.keepsCall with
  | true => exact tidy_of_serves (serves_perform hm s) hs
  | false =>
      cases m with
      | call procedure => exact tidy_call hs
      | reset => exact tidy_reset hs
      | close => exact tidy_close hs
      | _ => cases hm

theorem tidy_run (product : Product) (backend : σ) (ms : List Method) :
    Tidy (run ms (traced product backend)) :=
  run_induction tidy_perform ms (tidy_traced product backend)

/-- The open call stays open unless the method lets go of it. -/
theorem openCall_perform {s : Session (Traced σ)} (hs : Tidy s) (m : Method) {n : Nat}
    (hn : OpenCall n s.backend.log) :
    OpenCall n (perform m s).2.backend.log ↔ m.releases (perform m s).1 = false := by
  have hheld := (hs.held n).mp hn
  rw [(tidy_perform m s hs).held n]
  cases hm : m.keepsCall with
  | true => simp only [(serves_perform hm s).held, hheld, Method.not_releases hm]
  | false =>
      cases m with
      | call procedure =>
          show (call (σ := Traced σ) procedure s).2.heldCall = some n ↔
            ((call (σ := Traced σ) procedure s).1.map fun _ => Answer.done).isOk = false
          cases h : (call (σ := Traced σ) procedure s).1 with
          | error e => simp only [(call_of_failed h).2.held, hheld, Except.map, Except.isOk,
              Except.toBool]
          | ok _ =>
              have hne : s.backend.log.length ≠ n := (Nat.ne_of_lt (hs.lt_of_open hn)).symm
              simp only [(call_of_prepared h).2.1, Option.some.injEq, hne, Except.map, Except.isOk,
                Except.toBool, Bool.true_eq_false]
      | reset =>
          show (none : Option Nat) = some n ↔ true = false
          simp only [reduceCtorEq]
      | close =>
          show (close s).2.heldCall = some n ↔ true = false
          simp only [heldCall_close, reduceCtorEq]
      | _ => cases hm

/-! ### Closed sessions -/

theorem isOpen_perform {m : Method} {s : Session (Traced σ)} (h : s.isOpen = false) :
    (perform m s).2.isOpen = false := by
  cases hm : m.keepsCall with
  | true => exact (serves_perform hm s).isOpen.trans h
  | false =>
      cases m with
      | call procedure =>
          show (call (σ := Traced σ) procedure s).2.isOpen = false
          rw [call_of_closed procedure h]
          exact h
      | reset => exact (releaseCall_isOpen s).trans h
      | close => rfl
      | _ => cases hm

/-- A closed session stays closed. -/
theorem isOpen_run {ms : List Method} {s : Session (Traced σ)} (h : s.isOpen = false) :
    (run ms s).isOpen = false :=
  run_induction (P := fun s => s.isOpen = false) (fun _ _ => isOpen_perform) ms h

theorem isOpen_run_of_close {ms : List Method} (s : Session (Traced σ)) (h : .close ∈ ms) :
    (run ms s).isOpen = false := by
  induction ms generalizing s with
  | nil => cases h
  | cons m ms ih =>
      rcases List.mem_cons.mp h with rfl | h
      · exact isOpen_run (s := (perform .close s).2) rfl
      · exact ih _ h

/-- A closed session asks its backend for nothing. -/
theorem backend_perform_of_closed {s : Session (Traced σ)} (hs : Tidy s) (h : s.isOpen = false)
    (m : Method) : (perform m s).2.backend = s.backend := by
  have hheld := hs.closed h
  have hhandle : s.calling.handle = none := Option.map_eq_none_iff.mp hheld
  have hrelease : s.releaseCall.backend = s.backend := by simp only [releaseCall, hhandle]
  cases hm : m.keepsCall with
  | true => exact (serves_perform hm s).closed h hheld
  | false =>
      cases m with
      | call procedure =>
          show (call (σ := Traced σ) procedure s).2.backend = s.backend
          rw [call_of_closed procedure h]
      | reset => exact hrelease
      | close =>
          have hclosed := (serves_close_reset s).closed ((releaseCall_isOpen s).trans h) rfl
          exact hclosed.trans hrelease
      | _ => cases hm

/--
**A call lives from its preparation until the session lets go of it.**  After any run over any
backend, whatever each method has answered: the open calls are the held one and no other; the
next method closes the open call exactly if it is a `call` that succeeds, a `reset` or a
`close`; all that the log has about a call, its closing included, was asked while the call was
open, so that no call is closed twice or used afterwards; a `call` that fails changes nothing
but the connection; a procedure call that is the active operation is held; and once the
session was closed its backend is asked for nothing.
-/
theorem call_open_until_released (product : Product) (backend : σ) (ms : List Method)
    (m : Method) :
    let s := run ms (traced product backend)
    let out := perform m s
    (∀ n, OpenCall n s.backend.log ↔ s.heldCall = some n) ∧
      (∀ n, OpenCall n s.backend.log →
        (OpenCall n out.2.backend.log ↔ m.releases out.1 = false)) ∧
      Orderly out.2.backend.log ∧
      (∀ procedure e, m = .call procedure → out.1 = .error e →
        out.2 = { s with backend := out.2.backend }) ∧
      (s.operation = .procedure → ∃ call, s.calling.handle = some call) ∧
      (.close ∈ ms → out.2.backend = s.backend ∧ s.autoCommit? = none ∧
        ∀ position, s.outValue position = .ok none) := by
  intro s out
  have hs : Tidy s := tidy_run product backend ms
  refine ⟨hs.held, fun n => openCall_perform hs m, (tidy_perform m s hs).orderly, ?_, ?_, ?_⟩
  · rintro procedure e rfl h
    exact (call_of_failed (answer_call h)).1
  · intro hop
    obtain ⟨n, hn⟩ := Option.ne_none_iff_exists'.mp (hs.procedure hop)
    obtain ⟨call, hcall, -⟩ := Option.map_eq_some_iff.mp hn
    exact ⟨call, hcall⟩
  · intro hclose
    have hclosed : s.isOpen = false := isOpen_run_of_close _ hclose
    have hhandle : s.calling.handle = none := Option.map_eq_none_iff.mp (hs.closed hclosed)
    refine ⟨backend_perform_of_closed hs hclosed m, ?_, fun position => ?_⟩
    · simp only [autoCommit?, hclosed, Bool.false_eq_true, if_false]
    · simp only [outValue, hhandle]

end Session

end SqlSession
