/-
The release of statements.

A terminal method prepares at most one statement and closes it before it returns, once and
after everything else that it asks of it.  Running it, filling its batch and reading its
answer may all fail in between.  The one step behind which nobody closes the statement is
the binding of a parameter: a parameter that is refused ends the method with the statement
open.  `statement_released_iff` says that this is the only case, and that the statement is
then not closed at all.
-/
import SqlSession.Backend.Scripted
import SqlSession.Proofs.BatchLog
import SqlSession.Proofs.CallLog
import SqlSession.Proofs.Terminal
import SqlSession.Proofs.Transparency

namespace SqlSession

open SqlSession.Action Traced

variable {σ : Type} [Backend σ] {α Callable : Type}

/-- The statement is closed exactly once, and nothing is asked of it afterwards. -/
def Released (n : Nat) (ev : List (Event Callable)) : Prop :=
  ∃ before after, ev = before ++ ⟨.closeStatement n, true⟩ :: after ∧
    ⟨.closeStatement n, true⟩ ∉ before ∧ ∀ e ∈ after, e.request.statement? ≠ some n

/-- A parameter of the statement is refused. -/
def Refused (n : Nat) (ev : List (Event Callable)) : Prop :=
  ∃ position v, ⟨.bind n position v, false⟩ ∈ ev

/-- The request runs the statement. -/
def Runs (n : Nat) (e : Event Callable) : Prop :=
  e.request = .executeUpdate n ∨ e.request = .executeQuery n ∨ e.request = .execute n

/-- The request fills or runs the batch of the statement. -/
def Batches (n : Nat) (e : Event Callable) : Prop :=
  Fills n e ∨ e.request = .executeBatch n

/-- The request uses the statement and does not close it. -/
def Uses (n : Nat) (e : Event Callable) : Prop :=
  Runs n e ∨ Batches n e

theorem not_uses_close (n m : Nat) (done : Bool) :
    ¬Uses n (⟨.closeStatement m, done⟩ : Event Callable) := by
  rintro ((h | h | h) | ((h | ⟨_, _, h⟩) | h)) <;> cases h

theorem not_uses_prepare (n m : Nat) (text : String) (done : Bool) :
    ¬Uses n (⟨.prepare m text, done⟩ : Event Callable) := by
  rintro ((h | h | h) | ((h | ⟨_, _, h⟩) | h)) <;> cases h

theorem not_runs_bind (n m position : Nat) (v : Value) (done : Bool) :
    ¬Runs n (⟨.bind m position v, done⟩ : Event Callable) := by
  rintro (h | h | h) <;> cases h

/-! ### One statement -/

theorem close_mem_of_released {n : Nat} {ev : List (Event Callable)} (h : Released n ev) :
    ⟨.closeStatement n, true⟩ ∈ ev := by
  obtain ⟨before, after, rfl, -, -⟩ := h
  exact List.mem_append_right _ (List.mem_cons_self ..)

/-- A log that ends in its only close is one of a released statement. -/
theorem released_of_close_last {n : Nat} {ev : List (Event Callable)}
    (h : ⟨.closeStatement n, true⟩ ∉ ev) : Released n (ev ++ [⟨.closeStatement n, true⟩]) :=
  ⟨ev, [], rfl, h, fun _ he => absurd he List.not_mem_nil⟩

/-- A statement that is used, however that goes, is released. -/
theorem released_of_used {n : Nat} {text : String} {params : List Value}
    {ev : List (Event Callable)} (h : ∀ e ∈ ev, Uses n e) :
    Released n (⟨.prepare n text, true⟩ :: boundFrom (.bind n) 1 params ++ ev
      ++ [⟨.closeStatement n, true⟩]) := by
  refine released_of_close_last fun hmem => ?_
  rcases List.mem_append.mp hmem with hmem | hmem
  · rcases mem_opened hmem with heq | ⟨position, v, heq⟩ <;> cases heq
  · exact not_uses_close _ _ _ (h _ hmem)

/-- All that a log prepares is the statement that it is about. -/
theorem number_of_prepared {n m : Nat} {text text' : String} {params : List Value}
    {r : Except DbError α} {ev : List (Event Callable)}
    (h : StatementLog n text params (fun _ ev => ∀ e ∈ ev, Uses n e) r ev)
    (hprepared : ⟨.prepare m text', true⟩ ∈ ev) : m = n := by
  rcases h.mem_cases _ hprepared with ⟨done, heq⟩ | ⟨position, v, done, heq⟩ | huses | heq
  · cases heq
    rfl
  · cases heq
  · exact absurd huses (not_uses_prepare _ _ _ _)
  · cases heq

/-- A statement that is given up at a parameter is never closed. -/
theorem abandoned_not_closed (n : Nat) (text : String) (done : List Value) (v : Value) :
    (⟨.closeStatement n, true⟩ : Event Callable) ∉
      ⟨.prepare n text, true⟩ :: boundFrom (.bind n) 1 done
        ++ [⟨.bind n (1 + done.length) v, false⟩] := by
  intro hmem
  rcases List.mem_append.mp hmem with hmem | hmem
  · rcases mem_opened hmem with heq | ⟨position, v, heq⟩ <;> cases heq
  · cases List.mem_singleton.mp hmem

/-- No parameter of a statement that gets to be run is refused. -/
theorem not_refused_of_run {n : Nat} {text : String} {params : List Value}
    {ev : List (Event Callable)} (h : ∀ e ∈ ev, Runs n e) :
    ¬Refused n (⟨.prepare n text, true⟩ :: boundFrom (.bind n) 1 params ++ ev
      ++ [⟨.closeStatement n, true⟩]) := by
  intro hrefused
  obtain ⟨i, v, hmem⟩ := hrefused
  rcases mem_closed hmem with heq | ⟨position, v, heq⟩ | hmem | heq
  · cases heq
  · cases heq
  · exact not_runs_bind _ _ _ _ _ (h _ hmem)
  · cases heq

/-- A statement that is prepared in order to be run is released exactly if none of its
parameters is refused, and else it is not closed. -/
theorem release_of_run {n m : Nat} {text text' : String} {params : List Value}
    {r : Except DbError α} {ev : List (Event Callable)}
    (h : StatementLog n text params (fun _ ev => ∀ e ∈ ev, Runs n e) r ev)
    (hprepared : ⟨.prepare m text', true⟩ ∈ ev) :
    (Released m ev ↔ ¬Refused m ev) ∧ (¬Released m ev → ⟨.closeStatement m, true⟩ ∉ ev) := by
  obtain rfl : m = n :=
    number_of_prepared (h.mono fun r ev hev e he => Or.inl (hev e he)) hprepared
  cases h with
  | refused e => cases List.mem_singleton.mp hprepared
  | abandoned e done v rest split =>
      have hclose : (⟨.closeStatement m, true⟩ : Event Callable) ∉ _ :=
        abandoned_not_closed m text done v
      refine ⟨⟨fun hr => absurd (close_mem_of_released hr) hclose, fun hr => ?_⟩, fun _ => hclose⟩
      exact absurd ⟨_, v, List.mem_append_right _ (List.mem_singleton_self _)⟩ hr
  | closed r ev used =>
      have hreleased : Released m (⟨.prepare m text, true⟩ :: boundFrom (.bind m) 1 params ++ ev
          ++ [⟨.closeStatement m, true⟩]) :=
        released_of_used fun e he => Or.inl (used e he)
      exact ⟨⟨fun _ => not_refused_of_run used, fun _ => hreleased⟩, fun hr => absurd hreleased hr⟩

/-- A statement that is prepared for a batch is released, since it has no parameters before
the records. -/
theorem release_of_batch {n m : Nat} {text text' : String} {r : Except DbError α}
    {ev : List (Event Callable)}
    (h : StatementLog n text [] (fun _ ev => ∀ e ∈ ev, Batches n e) r ev)
    (hprepared : ⟨.prepare m text', true⟩ ∈ ev) : Released m ev := by
  obtain rfl : m = n :=
    number_of_prepared (h.mono fun r ev hev e he => Or.inr (hev e he)) hprepared
  cases h with
  | refused e => cases List.mem_singleton.mp hprepared
  | abandoned e done v rest split => cases done <;> cases split
  | closed r ev used => exact released_of_used fun e he => Or.inr (used e he)

/-! ### Terminal methods -/

/-- The method runs a batch. -/
def Terminal.isBatch : Terminal → Bool
  | .executeBatch _ => true
  | _ => false

/-- What a terminal method writes. -/
inductive TerminalLog (isBatch : Bool) (ev : List (Event (Backend.Callable σ))) : Prop
  /-- Nothing, or requests to the held call. -/
  | call (h : ∀ e ∈ ev, ∃ n, ToCall n e)
  | run {α : Type} (n : Nat) (text : String) (params : List Value) (r : Except DbError α)
      (hbatch : isBatch = false)
      (h : StatementLog n text params (fun _ ev => ∀ e ∈ ev, Runs n e) r ev)
  | batch {α : Type} (n : Nat) (text : String) (r : Except DbError α) (hbatch : isBatch = true)
      (h : StatementLog n text [] (fun _ ev => ∀ e ∈ ev, Batches n e) r ev)

theorem TerminalLog.nil (isBatch : Bool) : TerminalLog (σ := σ) isBatch [] :=
  .call fun _ he => absurd he List.not_mem_nil

namespace Session

/-- The session's log grows by what a terminal method writes. -/
def Writes (isBatch : Bool) (s t : Session (Traced σ)) : Prop :=
  ∃ ev, t.backend.log = s.backend.log ++ ev ∧ TerminalLog isBatch ev

theorem writes_nothing {isBatch : Bool} {s t : Session (Traced σ)} (h : t.backend = s.backend) :
    Writes isBatch s t :=
  ⟨[], by rw [h, List.append_nil], .nil isBatch⟩

theorem logs_runs {Held : Type} {request : Nat → Request (Backend.Callable σ)}
    (h : ∀ n done, Runs n ⟨request n, done⟩) (a : Action (Held × σ) α) :
    Logs (fun n _ ev => ∀ e ∈ ev, Runs n e) (use (fun n _ => request n) a) := by
  intro p
  refine ⟨rfl, _, rfl, fun e he => ?_⟩
  rw [List.mem_singleton.mp he]
  exact h _ _

/-- A statement that is run on the connection writes its log, if the session is open. -/
theorem writes_run (text : String) (params : List Value)
    {use : Action (Handle (Backend.Statement σ) × Traced σ) α}
    (h : Logs (fun n _ ev => ∀ e ∈ ev, Runs n e) use) (s : Session (Traced σ)) :
    Writes false s (onConnection (runStatement (σ := Traced σ) text params use) s).2 := by
  rcases onConnection_log text params h s with hsame | ⟨r, ev, hlog, hev⟩
  · rw [hsame]
    exact writes_nothing rfl
  · exact ⟨ev, hlog, .run _ _ _ _ rfl hev⟩

theorem writes_batch (text : String) (fields : List String) (records : List Record)
    (s : Session (Traced σ)) :
    Writes true s (onConnection (runStatement (σ := Traced σ) text []
      (useBatch fields records)) s).2 := by
  rcases onConnection_log text [] (logs_batch fields records) s with hsame | ⟨r, ev, hlog, hev⟩
  · rw [hsame]
    exact writes_nothing rfl
  · exact ⟨ev, hlog, .batch _ _ _ rfl (hev.mono fun _ _ h => h.only)⟩

theorem writes_of_settled {isBatch : Bool} {operation : Operation} {text : String}
    {s t : Session (Traced σ)} (h : Writes isBatch (s.settle operation text) t) :
    Writes isBatch s t := by
  rwa [Writes, settle_backend] at h

theorem writes_executeChange (operation : Operation) :
    Obeys (Writes (σ := σ) false) (executeChange operation) :=
  obeys_executeChange_of_run writes_nothing fun s text _ =>
    writes_of_settled (writes_run text s.params (logs_runs (fun _ _ => Or.inl rfl) _) _)

theorem writes_executeCreate (s : Session (Traced σ)) : Writes false s (executeCreate s).2 := by
  have hrun : Logs (fun n _ ev => ∀ e ∈ ev, Runs n e) (Backend.execute (σ := Traced σ)) :=
    logs_runs (fun _ _ => Or.inr (Or.inr rfl)) _
  cases ht : s.draftText .create with
  | error e =>
      rw [executeCreate_of_error ht]
      exact writes_nothing rfl
  | ok text =>
      rw [executeCreate_of_text ht, bind_pure_snd]
      exact writes_of_settled (writes_run text [] hrun _)

theorem writes_runSelect : Obeys (Writes (σ := σ) false) runSelect :=
  obeys_runSelect_of_run writes_nothing fun s text _ =>
    writes_of_settled (writes_run text s.params (logs_runs (fun _ _ => Or.inr (Or.inl rfl)) _) _)

theorem writes_insertBatch (records : List Record) :
    Obeys (Writes (σ := σ) true) (insertBatch records) :=
  obeys_insertBatch_of_run writes_nothing records fun _ text _ =>
    writes_of_settled (writes_batch text _ records _)

/-- What is asked of the held call is no statement's. -/
theorem writes_call {s t : Session (Traced σ)}
    (h : ∃ ev, t.backend.log = s.backend.log ++ ev ∧ ∀ e ∈ ev, ∃ n, ToCall (σ := σ) n e) :
    Writes false s t := by
  obtain ⟨ev, hlog, hev⟩ := h
  exact ⟨ev, hlog, .call hev⟩

theorem writes_terminal (t : Terminal) (s : Session (Traced σ)) :
    Writes t.isBatch s (perform t.method s).2 := by
  have hrefl : ∀ {isBatch : Bool} (s : Session (Traced σ)), Writes isBatch s s :=
    fun _ => writes_nothing rfl
  have hcall : ∀ allResults, Obeys (Writes (σ := σ) false) (runCall allResults) :=
    fun allResults s => writes_call (log_runCall allResults s)
  cases t with
  | execute =>
      exact obeys_execute hrefl id writes_executeChange writes_executeCreate
        (fun s => writes_call (log_executeCall s)) s
  | executeBatch records => exact obeys_executeBatch hrefl id records (writes_insertBatch records) s
  | query => exact obeys_query hrefl id writes_runSelect (hcall false) s
  | queryUnique =>
      have h : Writes false s (queryUnique s).2 := obeys_select? hrefl id _ _ writes_runSelect s
      exact h
  | queryCount =>
      have h : Writes false s (queryCount s).2 := obeys_select? hrefl id _ _ writes_runSelect s
      exact h
  | queryProcedure allResults =>
      exact obeys_queryProcedure hrefl id allResults (hcall allResults) s

/--
**A statement is released unless one of its parameters is refused.**  Whatever a terminal
method prepares, it closes exactly once and asks nothing of afterwards, before it returns
and however it ends; the exception is a statement outside a batch whose parameter the
backend refuses, and that one is not closed.
-/
theorem statement_released_iff (t : Terminal) (s : Session (Traced σ)) :
    ∃ ev, (perform t.method s).2.backend.log = s.backend.log ++ ev ∧
      ∀ n text, ⟨.prepare n text, true⟩ ∈ ev →
        (Released n ev ↔ t.isBatch = true ∨ ¬Refused n ev) ∧
          (¬Released n ev → ⟨.closeStatement n, true⟩ ∉ ev) := by
  obtain ⟨ev, hlog, hwritten⟩ := writes_terminal t s
  refine ⟨ev, hlog, fun n text hprepared => ?_⟩
  cases hwritten with
  | call h =>
      obtain ⟨m, hm⟩ := h _ hprepared
      cases hm
  | run m text' params r hbatch h =>
      simpa only [hbatch, Bool.false_eq_true, false_or] using release_of_run h hprepared
  | batch m text' r hbatch h =>
      have hreleased := release_of_batch h hprepared
      exact ⟨⟨fun _ => Or.inl hbatch, fun _ => hreleased⟩, fun hr => absurd hreleased hr⟩

/-- An INSERT whose only parameter the backend refuses: the statement is prepared, and
nothing closes it. -/
theorem refused_parameter_leaves_open :
    ¬∀ (t : Terminal) (c : Scripted.Connection) (ms : List Method)
      (ev : List (Event Scripted.Call)) (n : Nat) (text : String),
      (perform t.method (run ms (traced .postgreSql c))).2.backend.log =
          (run ms (traced .postgreSql c)).backend.log ++ ev →
        ⟨.prepare n text, true⟩ ∈ ev → Released n ev := by
  intro h
  have hreleased := h .execute { script := { bindFailures := [(1, .other "refused")] } }
    [.insert "book", .fields ["title"], .param .null]
    [⟨.prepare 0 "insert into book (title) values (?)", true⟩, ⟨.bind 0 1 .null, false⟩]
    0 "insert into book (title) values (?)" rfl (by decide)
  exact absurd (close_mem_of_released hreleased) (by decide)

end Session

end SqlSession
