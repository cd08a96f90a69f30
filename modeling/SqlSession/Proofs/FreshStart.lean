/-
Starting a statement forgets the past.

A statement that is started takes nothing over from those before it: neither texts nor parts
of other statements, nor aliases and limits that were set for none of them, nor a call that is
still held.  Two sessions over backends that answer alike may have had any past; once the same
statement is started in both, they are alike, and every method keeps them so, setters of parts
of other statements included.  So every later execution asks the same of both backends and
answers the same, as long as the same was called on both sessions.

A call that the past has left behind is closed one day, in one session perhaps and not in the
other.  That this makes no difference to what the backend answers is part of what it means
that the backends answer alike from now on: `Outlives`.
-/
import SqlSession.Proofs.AlikeSessions
import SqlSession.Proofs.Requests
import SqlSession.Proofs.SameRequests
import SqlSession.Proofs.Transparency

namespace SqlSession

open SqlSession.Action

/-- Closing a call that the past has left changes nothing for those who have not got it. -/
structure Outlives {σ τ : Type} [Backend σ] [Backend τ] (R : σ → τ → Prop)
    (left : Option (Backend.Callable σ)) (right : Option (Backend.Callable τ)) : Prop where
  closeLeft : ∀ call ∈ left, ∀ {s : σ} {t : τ}, R s t → R (Backend.closeCall call s) t
  closeRight : ∀ call ∈ right, ∀ {s : σ} {t : τ}, R s t → R s (Backend.closeCall call t)

/-- A method that starts a statement. -/
inductive Start where
  | select (fields : List String)
  | insert (table : String)
  | update (table : String)
  | delete (table : String)
  | sql (text : String)
  | call (procedure : String)
  deriving DecidableEq

/-- The start among all methods. -/
def Start.method : Start → Method
  | .select fields => .select fields
  | .insert table => .insert table
  | .update table => .update table
  | .delete table => .delete table
  | .sql text => .sql text
  | .call procedure => .call procedure

namespace Session

variable {σ τ α β : Type} [Backend σ] [Backend τ] {R : σ → τ → Prop}
  {S : Backend.Statement σ → Backend.Statement τ → Prop}
  {C : Backend.Callable σ → Backend.Callable τ → Prop} {left : Option (Backend.Callable σ)}
  {right : Option (Backend.Callable τ)} {operation : Operation} {s s' : Session σ}
  {t t' : Session τ}

/-! ### Setters -/

theorem alike_setDatabaseId (id : String) (h : Alike R C left right operation s t) :
    Alike R C left right operation (setDatabaseId id s) (setDatabaseId id t) := by
  refine h.unmoved ⟨rfl, rfl, rfl, ?_⟩ ⟨rfl, rfl, rfl, ?_⟩ <;> cases operation <;> rfl

theorem alike_setSchema (schema : String) (h : Alike R C left right operation s t) :
    Alike R C left right operation (setSchema schema s) (setSchema schema t) :=
  { h with
    schema := rfl
    draft := by
      have hdraft := h.draft
      cases operation <;> exact hdraft }

theorem alike_withParams {params params' : List Value} (hparams : params = params')
    (h : Alike R C left right operation s t) :
    Alike R C left right operation { s with params } { t with params := params' } := by
  refine h.redraft rfl rfl rfl rfl hparams ?_
  have hdraft := h.draft
  cases operation <;> exact hdraft

theorem alike_addParam (v : Value) (h : Alike R C left right operation s t) :
    Alike R C left right operation (addParam v s) (addParam v t) :=
  alike_withParams (by rw [h.params]) h

theorem alike_setParam (position : Nat) (v : Value) (h : Alike R C left right operation s t) :
    Alike R C left right operation (setParam position v s) (setParam position v t) :=
  alike_withParams (by rw [h.params]) h

/-- What is set in the SELECT is part of the active statement, or of none that is active. -/
theorem alike_setSelect (f : Sql.SelectParts → Sql.SelectParts)
    (h : Alike R C left right operation s t) :
    Alike R C left right operation { s with selecting.parts := f s.selecting.parts }
      { t with selecting.parts := f t.selecting.parts } := by
  refine h.redraft rfl rfl rfl rfl h.params ?_
  have hdraft := h.draft
  cases operation <;> simp_all [activeDraft]

theorem alike_setFields (fields : List String) (h : Alike R C left right operation s t) :
    Alike R C left right operation (setFields fields s) (setFields fields t) := by
  have hdraft := h.draft
  cases operation <;> simp only [setFields, h.here, h.there] <;>
    first
    | exact h
    | exact h.redraft rfl rfl h.here.symm h.there.symm h.params (by simp_all [activeDraft])

theorem alike_setAliases (aliases : List String) (h : Alike R C left right operation s t) :
    Alike R C left right operation (setAliases aliases s) (setAliases aliases t) := by
  have hdraft := h.draft
  cases operation <;> simp only [setAliases, h.here, h.there] <;>
    exact h.redraft rfl rfl h.here.symm h.there.symm h.params (by simp_all [activeDraft])

theorem alike_setCondition (condition : String) (h : Alike R C left right operation s t) :
    Alike R C left right operation (setCondition condition s) (setCondition condition t) := by
  have hdraft := h.draft
  cases operation <;> simp only [setCondition, h.here, h.there] <;>
    first
    | exact h
    | exact h.redraft rfl rfl h.here.symm h.there.symm h.params (by simp_all [activeDraft])

/-! ### Starts -/

/-- A statement that is no procedure call begins alike wherever the sessions come from. -/
theorem Met.begun (h : Met R C left right s t) (hs : s'.seat = s.seat) (ht : t'.seat = t.seat)
    (hne : operation ≠ .procedure) (here : s'.operation = operation)
    (there : t'.operation = operation) (params : s'.params = t'.params)
    (draft : s'.activeDraft operation = t'.activeDraft operation) :
    Alike R C left right operation s' t' where
  toMet := h.of_seat hs ht
  here := here
  there := there
  params := params
  draft := draft
  called hop := absurd hop hne

theorem alike_sql (text : String) (h : Met R C left right s t) :
    Alike R C left right (Sql.classify text) (sql text s) (sql text t) := by
  have hne := classify_ne_procedure text
  unfold sql
  cases hop : Sql.classify text <;>
    first
    | exact absurd hop hne
    | exact h.begun rfl rfl nofun rfl rfl rfl rfl

/-- Letting go of the held call leaves everything but the connection as it is. -/
theorem releaseCall_eq (s : Session σ) :
    releaseCall s = { s with backend := (releaseCall s).backend, calling.handle := none } := by
  cases s with
  | mk backend isOpen product databaseId operation params schema lastSql selecting inserting
      updating deleting creating calling =>
      cases calling with
      | mk name fields aliases handle => cases handle <;> rfl

section Calls

variable (alike : AnswersAlike R S C) (outlives : Outlives R left right)
include alike outlives

theorem Met.releasedBackend (h : Met R C left right s t) :
    R (releaseCall s).backend (releaseCall t).backend := by
  have hconnections := h.backend
  have hholding := h.holding
  unfold releaseCall
  cases hs : s.calling.handle with
  | none =>
      cases ht : t.calling.handle with
      | none => exact hconnections
      | some y =>
          rw [hs, ht] at hholding
          cases hholding with
          | leftOver => exact outlives.closeRight y rfl hconnections
  | some x =>
      cases ht : t.calling.handle with
      | none =>
          rw [hs, ht] at hholding
          cases hholding with
          | leftOver => exact outlives.closeLeft x rfl hconnections
      | some y =>
          rw [hs, ht] at hholding
          cases hholding with
          | leftOver => exact outlives.closeRight y rfl (outlives.closeLeft x rfl hconnections)
          | calls hcalls => exact alike.closeCall hcalls hconnections

/-- Sessions that let go of what they hold, if they do, have met as before. -/
theorem Met.released (h : Met R C left right s t) :
    Met R C left right (releaseCall s) (releaseCall t) := by
  have hconnections := h.releasedBackend alike outlives
  rw [releaseCall_eq s, releaseCall_eq t]
  exact { h with backend := hconnections, holding := .nothing }

theorem alike_reset (h : Met R C left right s t) :
    Alike R C left right .none (reset s) (reset t) :=
  { h.released alike outlives with
    holding := .nothing
    here := rfl
    there := rfl
    params := rfl
    draft := rfl
    called := nofun }

theorem alike_close (h : Met R C left right s t) :
    SameAnswer Eq (close s).1 (close t).1 ∧
      Alike R C left right .none (close s).2 (close t).2 := by
  have hclose := (agrees_ifOpen () alike.close).andThen (fun s t hst =>
    (⟨{ hst.toMet with isOpen := rfl }, hst.here, hst.there, hst.params, rfl, hst.called⟩ :
      Alike R C left right .none { s with isOpen := false } { t with isOpen := false }))
  exact hclose _ _ (alike_reset alike outlives h)

/-- A call that succeeds in one session succeeds in the other, and both hold it then. -/
theorem alike_call_of_ok {procedure : String} (h : Met R C left right s t)
    (hok : (call procedure s).1 = .ok ()) :
    Alike R C left right .procedure (call procedure s).2 (call procedure t).2 := by
  cases hopen : s.isOpen with
  | false =>
      rw [call_of_closed procedure hopen] at hok
      cases hok
  | true =>
      have hopen' : t.isOpen = true := h.isOpen ▸ hopen
      rcases hp : Backend.prepareCall procedure s.backend with ⟨r, b⟩
      obtain ⟨r', b', hp', hr, hb⟩ := (alike.prepareCall procedure).step h.backend hp
      cases hr with
      | error e =>
          rw [call_of_error hopen hp] at hok
          cases hok
      | @ok x y hcalls =>
          rw [call_of_ok hopen hp, call_of_ok hopen' hp']
          have hmet : Met R C left right { s with backend := b } { t with backend := b' } :=
            { h with backend := hb }
          exact
            { hmet.released alike outlives with
              holding := .calls hcalls
              here := rfl
              there := rfl
              params := rfl
              draft := rfl
              called := fun _ => ⟨x, y, rfl, rfl, hcalls⟩ }

/-- A call that fails begins nothing, and it fails in both sessions. -/
theorem alike_call (procedure : String) (h : Alike R C left right operation s t) :
    ∃ operation', Alike R C left right operation' (call procedure s).2 (call procedure t).2 := by
  have hprepare : Agrees (Alike R C left right operation) C
      (onConnection (Backend.prepareCall procedure))
      (onConnection (Backend.prepareCall procedure)) :=
    agrees_onConnection (alike.prepareCall procedure)
  rcases hs : onConnection (Backend.prepareCall procedure) s with ⟨e | x, s₁⟩
  · obtain ⟨r, t₁, ht, hr, hrest⟩ := hprepare.step h hs
    cases hr
    have hs' : call procedure s = (.error e, s₁) := bind_of_error hs
    have ht' : call procedure t = (.error e, t₁) := bind_of_error ht
    rw [hs', ht']
    exact ⟨operation, hrest⟩
  · have hok : (call procedure s).1 = .ok () := congrArg Prod.fst (bind_of_ok hs)
    exact ⟨.procedure, alike_call_of_ok alike outlives h.toMet hok⟩

/-- Sessions that have met are alike once the same statement is started in both; that a call
could be prepared is enough for one of them. -/
theorem alike_start (h : Met R C left right s t) (start : Start)
    (hstart : (perform start.method s).1 = .ok .done) :
    ∃ operation, Alike R C left right operation (perform start.method s).2
      (perform start.method t).2 := by
  cases start with
  | select fields => exact ⟨.select, h.begun rfl rfl nofun rfl rfl rfl rfl⟩
  | insert table => exact ⟨.insert, h.begun rfl rfl nofun rfl rfl rfl rfl⟩
  | update table => exact ⟨.update, h.begun rfl rfl nofun rfl rfl rfl rfl⟩
  | delete table => exact ⟨.delete, h.begun rfl rfl nofun rfl rfl rfl rfl⟩
  | sql text => exact ⟨_, alike_sql text h⟩
  | call procedure =>
      refine ⟨.procedure, alike_call_of_ok alike outlives h ?_⟩
      rcases hcall : (call procedure s).1 with e | _
      · simp only [Start.method, perform, attempt, hcall] at hstart
        cases hstart
      · rfl

end Calls

/-! ### Runs -/

section Runs

variable (alike : AnswersAlike R S C)
include alike

theorem agrees_outParam (position : Nat) (type : OutType) :
    Agrees (Alike R C left right operation) Eq (outParam (σ := σ) position type)
      (outParam (σ := τ) position type) := by
  intro s t h
  simp only [outParam, h.here, h.there]
  cases operation with
  | procedure =>
      refine Agrees.bind (W := Eq) (agrees_onCall "out_param" (alike.register _ _)) ?_ s t h
      exact fun _ _ _ _ _ hst => ⟨.ok rfl, alike_setParam position .null hst⟩
  | _ => exact ⟨.error _, h⟩

variable (outlives : Outlives R left right)
include outlives

/-- Sessions that are alike stay alike, whatever is called on both. -/
theorem alike_perform (m : Method) (h : Alike R C left right operation s t) :
    ∃ operation', Alike R C left right operation' (perform m s).2 (perform m t).2 := by
  have hterminal (x : Terminal) : ∃ operation',
      Alike R C left right operation' (perform x.method s).2 (perform x.method t).2 :=
    ⟨operation, (agrees_terminal alike x s t h).2⟩
  have hrequest {α : Type} {answer : α → Answer} {a : Action (Session σ) α}
      {b : Action (Session τ) α} (hab : Agrees (Alike R C left right operation) Eq a b) :
      ∃ operation', Alike R C left right operation' (attempt answer a s).2 (attempt answer b t).2 :=
    ⟨operation, (hab s t h).2⟩
  cases m with
  | setDatabaseId id => exact ⟨_, alike_setDatabaseId id h⟩
  | select fields => exact alike_start alike outlives h.toMet (.select fields) rfl
  | insert table => exact alike_start alike outlives h.toMet (.insert table) rfl
  | update table => exact alike_start alike outlives h.toMet (.update table) rfl
  | delete table => exact alike_start alike outlives h.toMet (.delete table) rfl
  | sql text => exact alike_start alike outlives h.toMet (.sql text) rfl
  | call procedure => exact alike_call alike outlives procedure h
  | fields fields => exact ⟨_, alike_setFields fields h⟩
  | aliases aliases => exact ⟨_, alike_setAliases aliases h⟩
  | source source => exact ⟨_, alike_setSelect (fun parts => { parts with source }) h⟩
  | condition condition => exact ⟨_, alike_setCondition condition h⟩
  | order order => exact ⟨_, alike_setSelect (fun parts => { parts with order }) h⟩
  | limit limit => exact ⟨_, alike_setSelect (fun parts => { parts with limit }) h⟩
  | schema schema => exact ⟨_, alike_setSchema schema h⟩
  | param v => exact ⟨_, alike_addParam v h⟩
  | paramAt position v => exact ⟨_, alike_setParam position v h⟩
  | text kind => exact ⟨_, alike_compile kind.operation h⟩
  | execute => exact hterminal .execute
  | executeBatch records => exact hterminal (.executeBatch records)
  | query => exact hterminal .query
  | queryUnique => exact hterminal .queryUnique
  | queryCount => exact hterminal .queryCount
  | queryProcedure allResults => exact hterminal (.queryProcedure allResults)
  | outParam position type => exact hrequest (agrees_outParam alike position type)
  | reset => exact ⟨.none, alike_reset alike outlives h.toMet⟩
  | close => exact ⟨.none, (alike_close alike outlives h.toMet).2⟩
  | isValid => exact hrequest (agrees_ifOpen false alike.isValid)
  | catalog request => exact hrequest (agrees_onConnection (alike.catalog request))
  | beginTransaction => exact hrequest (agrees_ifOpen () (alike.setAutoCommit false))
  | commit => exact hrequest (agrees_ifOpen () alike.commit)
  | rollback => exact hrequest (agrees_ifOpen () alike.rollback)
  | commitTransaction =>
      exact hrequest ((agrees_ifOpen () alike.commit).bind fun _ _ _ =>
        agrees_ifOpen () (alike.setAutoCommit true))

theorem alike_run (ms : List Method) (h : Alike R C left right operation s t) :
    ∃ operation', Alike R C left right operation' (run ms s) (run ms t) := by
  induction ms generalizing operation s t with
  | nil => exact ⟨operation, h⟩
  | cons m ms ih =>
      obtain ⟨operation', h'⟩ := alike_perform alike outlives m h
      exact ih h'

end Runs

/-! ### The theorem -/

/-- The labels under which an execution of the active statement reads rows; none if it reads no
rows. -/
def labelsRead (s : Session σ) : Option (Except DbError (Option (List String))) :=
  match s.operation with
  | .select => some s.selectLabels
  | .procedure => some s.callLabels
  | _ => none

theorem labelsRead_of_alike (h : Alike R C left right operation s t) :
    s.labelsRead = t.labelsRead := by
  simp only [labelsRead, h.here, h.there]
  cases operation with
  | select => exact congrArg some (selectLabels_of_alike h)
  | procedure => exact congrArg some (callLabels_of_alike h)
  | _ => rfl

/-- An execution goes the same way in two sessions: it makes the same requests, one after the
other, reads rows under the same labels and answers the same.  The calls that it runs are
related by `C`. -/
structure SameExecution (C : Backend.Callable σ → Backend.Callable τ → Prop) (x : Terminal)
    (s : Session (Traced σ)) (t : Session (Traced τ)) : Prop where
  answer : (perform x.method s).1 = (perform x.method t).1
  labels : s.labelsRead = t.labelsRead
  requests : ∃ ev ev', (perform x.method s).2.backend.log = s.backend.log ++ ev ∧
    (perform x.method t).2.backend.log = t.backend.log ++ ev' ∧
      List.Forall₂ (SameEvent C) ev ev'

theorem SameExecution.mono {C D : Backend.Callable σ → Backend.Callable τ → Prop}
    (hCD : ∀ call call', C call call' → D call call') {x : Terminal} {s : Session (Traced σ)}
    {t : Session (Traced τ)} (h : SameExecution C x s t) : SameExecution D x s t := by
  obtain ⟨ev, ev', hlog, hlog', hsame⟩ := h.requests
  exact ⟨h.answer, h.labels, ev, ev', hlog, hlog', hsame.imp fun _ _ he => he.mono hCD⟩

section Traces

variable (alike : AnswersAlike R S C)
include alike

/-- Sessions that are alike, whatever their logs, execute in the same way. -/
theorem sameExecution_of_alike
    {L : List (Event (Backend.Callable σ)) → List (Event (Backend.Callable τ)) → Prop}
    {left : Option (Handle (Backend.Callable σ))} {right : Option (Handle (Backend.Callable τ))}
    {s : Session (Traced σ)} {t : Session (Traced τ)}
    (h : Alike (OnTraces R L) (SameHeld C) left right operation s t) (x : Terminal) :
    SameExecution C x s t := by
  -- the logs are compared from here on, and no execution closes what the sessions hold
  have halike : Alike (OnTraces R (SameSince C s.backend.log t.backend.log)) (SameHeld C)
      s.calling.handle t.calling.handle operation s t :=
    { h with
      backend := ⟨h.backend.1, sameSince_refl C _ _⟩
      holding := .leftOver }
  have htraced := answersAlike_traced (continues_sameSince C s.backend.log t.backend.log) alike
  obtain ⟨hanswer, hafter⟩ := agrees_terminal htraced x s t halike
  exact ⟨sameAnswer_eq_iff.mp hanswer, labelsRead_of_alike h, hafter.backend.2⟩

/-- The same, after any run that begins with the same start. -/
theorem sameExecution_of_start {s : Session (Traced σ)} {t : Session (Traced τ)}
    (hopen : s.isOpen = t.isOpen) (hproduct : s.product = t.product)
    (hschema : s.schema = t.schema) (hconnections : R s.backend.inner t.backend.inner)
    (houtlives : Outlives R (s.calling.handle.map Handle.held) (t.calling.handle.map Handle.held))
    (start : Start) (hstart : (perform start.method s).1 = .ok .done) (ms : List Method)
    (x : Terminal) :
    SameExecution C x (run ms (perform start.method s).2) (run ms (perform start.method t).2) := by
  have htraced := answersAlike_traced (L := fun _ _ => True) (fun _ _ _ _ _ _ => trivial) alike
  have houtlives' : Outlives (OnTraces R fun _ _ => True) s.calling.handle t.calling.handle :=
    { closeLeft := fun call hcall _ _ hst =>
        ⟨houtlives.closeLeft call.held (Option.mem_map_of_mem Handle.held hcall) hst.1, trivial⟩
      closeRight := fun call hcall _ _ hst =>
        ⟨houtlives.closeRight call.held (Option.mem_map_of_mem Handle.held hcall) hst.1,
          trivial⟩ }
  have hmet : Met (OnTraces R fun _ _ => True) (SameHeld C) s.calling.handle t.calling.handle s t :=
    ⟨hopen, hproduct, hschema, ⟨hconnections, trivial⟩, .leftOver⟩
  obtain ⟨operation, hbegun⟩ := alike_start htraced houtlives' hmet start hstart
  obtain ⟨operation', hafter⟩ := alike_run htraced houtlives' ms hbegun
  exact sameExecution_of_alike alike hafter x

end Traces

/--
**Starting a statement forgets the past.**  Take two open sessions of the same product with the
same schema, over backends that answer alike from now on, whatever was called on either of them
before.  Once the same statement is started in both, a call if it can be prepared, and the same
methods are called on both, every execution makes the same requests in both, with the same texts,
positions and values, reads rows under the same labels and answers the same.  Where it runs a
procedure, the text of the call is the same, and so is all that is bound to it if the backends
keep what is bound.
-/
theorem start_forgets_past {R : σ → τ → Prop}
    {S : Backend.Statement σ → Backend.Statement τ → Prop}
    {C : Backend.Callable σ → Backend.Callable τ → Prop} (alike : AnswersAlike R S C)
    {s : Session (Traced σ)} {t : Session (Traced τ)} (hopen : s.isOpen = true)
    (hopen' : t.isOpen = true) (hproduct : s.product = t.product) (hschema : s.schema = t.schema)
    (hconnections : R s.backend.inner t.backend.inner)
    (houtlives : Outlives R (s.calling.handle.map Handle.held) (t.calling.handle.map Handle.held))
    (start : Start) (hstart : (perform start.method s).1 = .ok .done) (ms : List Method)
    (x : Terminal) :
    let s' := run ms (perform start.method s).2
    let t' := run ms (perform start.method t).2
    SameExecution (fun call call' => Backend.callText call = Backend.callText call') x s' t' ∧
      ∀ bound bound', KeepsBound bound → KeepsBound bound' →
        SameExecution (fun call call' => bound call = bound' call') x s' t' := by
  intro s' t'
  have hopens : s.isOpen = t.isOpen := hopen.trans hopen'.symm
  constructor
  · have hsame := sameExecution_of_start alike hopens hproduct hschema hconnections houtlives start
      hstart ms x
    exact hsame.mono fun _ _ hcalls => alike.callText hcalls
  · intro bound bound' hbound hbound'
    have hsame := sameExecution_of_start (alike.sameBound hbound hbound') hopens hproduct hschema
      hconnections houtlives start hstart ms x
    exact hsame.mono fun _ _ hcalls => hcalls.2

/-- A session that has called a procedure, which it holds still, and has begun an INSERT, and one
with no past: a SELECT that is started in both is the same query. -/
theorem loan_is_forgotten :
    let s := run [.call "restock(?)", .param .null, .execute, .insert "loan", .fields ["member"],
      .aliases ["who"], .limit 5] (traced .postgreSql ({} : Scripted.Connection))
    let t := traced .postgreSql ({} : Scripted.Connection)
    let start := Start.select ["title"]
    let ms := [Method.source "book", .condition "id = ?", .param .null, .text .insert]
    let s' := run ms (perform start.method s).2
    let t' := run ms (perform start.method t).2
    (s.isOpen = true ∧ t.isOpen = true ∧ s.product = t.product ∧ s.schema = t.schema) ∧
      (s.calling.handle.isSome = true ∧ Scripted.SameScript s.backend.inner t.backend.inner ∧
        (perform start.method s).1 = .ok .done) ∧
      SameExecution (fun call call' : Scripted.Call => call.text = call'.text) .query s' t' ∧
        SameExecution (fun call call' : Scripted.Call => call.params = call'.params) .query s' t' := by
  intro s t start ms s' t'
  have houtlives : Outlives Scripted.SameScript (s.calling.handle.map Handle.held)
      (t.calling.handle.map Handle.held) := ⟨fun _ _ _ _ h => h, fun _ _ _ _ h => h⟩
  have hsame := start_forgets_past Scripted.answersAlike (s := s) (t := t) rfl rfl rfl rfl rfl
    houtlives start rfl ms .query
  exact ⟨⟨rfl, rfl, rfl, rfl⟩, ⟨rfl, rfl, rfl⟩, hsame.1,
    hsame.2 _ _ Scripted.keepsBound Scripted.keepsBound⟩

end Session

end SqlSession
