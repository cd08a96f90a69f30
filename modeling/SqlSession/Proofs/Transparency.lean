/-
Tracing changes nothing.

A session over a traced backend answers every method as the session over the backend itself
does, and leaves it in the same state: forgetting the log and the numbers commutes with
every method.  So whatever the log of a traced run shows is what the run without it asks,
and a law about every traced backend is a law about every backend.

The proof follows the definitions.  A traced backend answers like the one that it passes its
requests on to, so what is made of requests alone, statements and calls with their whole life,
goes the same way in both; and a session is put together from those and from changes of its own
fields, which the log does not touch.
-/
import SqlSession.Proofs.Agreement
import SqlSession.Proofs.Connection
import SqlSession.Proofs.Method
import SqlSession.Proofs.Trace

namespace SqlSession

open SqlSession.Action

variable {σ : Type} [Backend σ] {Held α β : Type}

namespace Traced

/-- A statement or call beside its backend, without the log. -/
def forgetPair (p : Handle Held × Traced σ) : Held × σ :=
  (p.1.held, p.2.inner)

theorem simulates_ask (request : Request (Backend.Callable σ)) (a : Action σ α) :
    Simulates Traced.inner (ask request a) a :=
  fun _ => rfl

theorem simulates_use (request : Nat → Held → Request (Backend.Callable σ))
    (a : Action (Held × σ) α) : Simulates forgetPair (use request a) a :=
  fun _ => rfl

/-! ### The backend behind a trace -/

/-- The connection behind a traced one. -/
def IsInner (t : Traced σ) (b : σ) : Prop :=
  t.inner = b

/-- What a number was given to. -/
def IsHeld (h : Handle Held) (x : Held) : Prop :=
  h.held = x

theorem simulates_inner_iff {a : Action (Traced σ) α} {b : Action σ α} :
    Simulates Traced.inner a b ↔ Agrees IsInner Eq a b := by
  constructor
  · rintro h t _ rfl
    rw [h t]
    exact ⟨sameAnswer_eq_iff.mpr rfl, rfl⟩
  · intro h t
    obtain ⟨hanswer, hrest⟩ := h t t.inner rfl
    exact Prod.ext (sameAnswer_eq_iff.mp hanswer).symm hrest.symm

theorem simulates_pair_iff {a : Action (Handle Held × Traced σ) α} {b : Action (Held × σ) α} :
    Simulates forgetPair a b ↔ Agrees (Both IsHeld IsInner) Eq a b := by
  constructor
  · rintro h p ⟨x, c⟩ ⟨rfl, rfl⟩
    have hp : b (p.1.held, p.2.inner) = ((a p).1, forgetPair (a p).2) := h p
    rw [hp]
    exact ⟨sameAnswer_eq_iff.mpr rfl, rfl, rfl⟩
  · intro h p
    obtain ⟨hanswer, hheld, hrest⟩ := h p (forgetPair p) ⟨rfl, rfl⟩
    exact Prod.ext (sameAnswer_eq_iff.mp hanswer).symm (Prod.ext hheld.symm hrest.symm)

theorem agrees_ask_inner (request : Request (Backend.Callable σ)) (a : Action σ α) :
    Agrees IsInner Eq (ask request a) a :=
  simulates_inner_iff.mp (simulates_ask request a)

theorem agrees_use_inner (request : Nat → Held → Request (Backend.Callable σ))
    (a : Action (Held × σ) α) : Agrees (Both IsHeld IsInner) Eq (use request a) a :=
  simulates_pair_iff.mp (simulates_use request a)

theorem agrees_prepare_inner (request : Nat → Request (Backend.Callable σ)) (a : Action σ Held) :
    Agrees IsInner IsHeld (prepare request a) a := by
  rintro t _ rfl
  rcases h : a t.inner with ⟨e | x, b⟩
  · rw [prepare_of_error h]
    exact ⟨.error e, rfl⟩
  · rw [prepare_of_ok h]
    exact ⟨.ok rfl, rfl⟩

/-- A traced backend answers as the one behind it. -/
theorem answersAlike_inner :
    AnswersAlike (σ := Traced σ) (τ := σ) IsInner IsHeld IsHeld where
  prepare text := agrees_prepare_inner _ (Backend.prepare text)
  prepareCall procedure := agrees_prepare_inner _ (Backend.prepareCall procedure)
  callText := congrArg Backend.callText
  setAutoCommit on := agrees_ask_inner _ (Backend.setAutoCommit on)
  commit := agrees_ask_inner _ Backend.commit
  rollback := agrees_ask_inner _ Backend.rollback
  isValid := agrees_ask_inner _ Backend.isValid
  close := agrees_ask_inner _ Backend.close
  catalog request := agrees_ask_inner _ (Backend.catalog request)
  bind position v := agrees_use_inner _ (Backend.bind position v)
  executeUpdate := agrees_use_inner _ Backend.executeUpdate
  executeQuery := agrees_use_inner _ Backend.executeQuery
  execute := agrees_use_inner _ Backend.execute
  addBatch := agrees_use_inner _ Backend.addBatch
  executeBatch := agrees_use_inner _ Backend.executeBatch
  closeStatement := by rintro _ _ _ _ rfl rfl; rfl
  bindCall position v := agrees_use_inner _ (Backend.bindCall position v)
  register position type := agrees_use_inner _ (Backend.register position type)
  executeCall := agrees_use_inner _ Backend.executeCall
  queryCall := agrees_use_inner _ Backend.queryCall
  resultSet := agrees_use_inner _ Backend.resultSet
  moreResults := agrees_use_inner _ Backend.moreResults
  updateCount := congrArg Backend.updateCount
  closeCall := by rintro _ _ _ _ rfl rfl; rfl

end Traced

open Traced

namespace Session

/-! ### Statements and calls -/

theorem simulates_runStatement (text : String) (params : List Value)
    {use : Action (Handle (Backend.Statement σ) × Traced σ) α}
    {use' : Action (Backend.Statement σ × σ) α} (h : Simulates forgetPair use use') :
    Simulates Traced.inner (runStatement (σ := Traced σ) text params use)
      (runStatement (σ := σ) text params use') :=
  simulates_inner_iff.mpr
    (agrees_runStatement answersAlike_inner text params (simulates_pair_iff.mp h))

theorem simulates_useBatch (fields : List String) (records : List Record) :
    Simulates forgetPair (useBatch (σ := Traced σ) fields records)
      (useBatch (σ := σ) fields records) :=
  simulates_pair_iff.mpr (agrees_useBatch answersAlike_inner fields records)

theorem simulates_executeHeld (params : List Value) :
    Simulates forgetPair (executeHeld (σ := Traced σ) params) (executeHeld (σ := σ) params) :=
  simulates_pair_iff.mpr (agrees_executeHeld answersAlike_inner params)

theorem simulates_queryHeld (allResults : Bool) (labels : Option (List String))
    (params : List Value) :
    Simulates forgetPair (queryHeld (σ := Traced σ) allResults labels params)
      (queryHeld (σ := σ) allResults labels params) :=
  simulates_pair_iff.mpr (agrees_queryHeld answersAlike_inner allResults labels params)

/-! ### Sessions -/

/-- The session without the log and the numbers. -/
def forget (s : Session (Traced σ)) : Session σ where
  backend := s.backend.inner
  isOpen := s.isOpen
  product := s.product
  databaseId := s.databaseId
  operation := s.operation
  params := s.params
  schema := s.schema
  lastSql := s.lastSql
  selecting := s.selecting
  inserting := s.inserting
  updating := s.updating
  deleting := s.deleting
  creating := s.creating
  calling :=
    { name := s.calling.name
      fields := s.calling.fields
      aliases := s.calling.aliases
      handle := s.calling.handle.map Handle.held }

theorem simulates_compile (operation : Operation) :
    Simulates forget (compile (σ := Traced σ) operation) (compile operation) := by
  intro s
  have h : draftText operation (forget s) = draftText operation s := by cases operation <;> rfl
  simp only [compile, h]
  cases draftText operation s with
  | error e => rfl
  | ok text => cases operation <;> rfl

theorem simulates_onConnection {a : Action (Traced σ) α} {b : Action σ α}
    (h : Simulates Traced.inner a b) : Simulates forget (onConnection a) (onConnection b) := by
  intro s
  simp only [onConnection, forget, h s.backend]
  split <;> rfl

theorem simulates_ifOpen {a : Action (Traced σ) α} {b : Action σ α} (closed : α)
    (h : Simulates Traced.inner a b) : Simulates forget (ifOpen closed a) (ifOpen closed b) := by
  intro s
  have hc := simulates_onConnection h s
  simp only [ifOpen, hc]
  show (if s.isOpen then _ else _) = _
  split <;> rfl

theorem simulates_onCall {a : Action (Handle (Backend.Callable σ) × Traced σ) α}
    {b : Action (Backend.Callable σ × σ) α} (action : String) (h : Simulates forgetPair a b) :
    Simulates forget (onCall (σ := Traced σ) action a) (onCall action b) := by
  intro s
  cases hh : s.calling.handle with
  | none => simp only [onCall, forget, hh]; rfl
  | some call =>
      have hp := h (call, s.backend)
      simp only [forgetPair] at hp
      simp only [onCall, forget, hh, Option.map_some, hp]

theorem simulates_clearingParams {a : Action (Session (Traced σ)) α} {b : Action (Session σ) α}
    (h : Simulates forget a b) : Simulates forget (clearingParams a) (clearingParams b) :=
  h.andThen fun _ => rfl

/-! ### Methods -/

theorem simulates_executeChange (operation : Operation) :
    Simulates forget (executeChange (σ := Traced σ) operation) (executeChange operation) :=
  (simulates_compile operation).bind fun text =>
    (Simulates.view fun _ => rfl).bind fun params =>
      simulates_onConnection (simulates_runStatement text params (simulates_use _ _))

theorem simulates_executeCreate :
    Simulates forget (executeCreate (σ := Traced σ)) executeCreate :=
  (simulates_compile .create).bind fun text =>
    (simulates_onConnection (simulates_runStatement text [] (simulates_use _ _))).bind fun _ =>
      Simulates.pure 0

theorem simulates_executeCall : Simulates forget (executeCall (σ := Traced σ)) executeCall := by
  refine (Simulates.view fun _ => rfl).bind fun params => ?_
  exact simulates_onCall "execute" (simulates_executeHeld params)

theorem simulates_execute : Simulates forget (execute (σ := Traced σ)) execute := by
  refine simulates_clearingParams fun s => ?_
  have hop : (forget s).operation = s.operation := rfl
  simp only [hop]
  cases s.operation with
  | insert => exact simulates_executeChange .insert s
  | update => exact simulates_executeChange .update s
  | delete => exact simulates_executeChange .delete s
  | create => exact simulates_executeCreate s
  | procedure => exact simulates_executeCall s
  | none => rfl
  | select => rfl

theorem simulates_executeBatch (records : List Record) :
    Simulates forget (executeBatch (σ := Traced σ) records) (executeBatch records) := by
  refine simulates_clearingParams fun s => ?_
  have hop : (forget s).operation = s.operation := rfl
  simp only [hop]
  cases s.operation with
  | insert =>
      refine ((simulates_compile .insert).bind fun text => ?_) s
      refine (Simulates.view fun _ => rfl).bind fun fields => ?_
      exact simulates_onConnection (simulates_runStatement text [] (simulates_useBatch fields records))
  | _ => rfl

theorem simulates_runSelect : Simulates forget (runSelect (σ := Traced σ)) runSelect := by
  refine (simulates_compile .select).bind fun text => ?_
  refine Simulates.bind (fun _ => rfl) fun labels => ?_
  refine (Simulates.view fun _ => rfl).bind fun params => ?_
  exact (simulates_onConnection (simulates_runStatement text params (simulates_use _ _))).bind
    fun rs => Simulates.pure (rs, labels)

theorem simulates_select? (action : String)
    (read : Except DbError (ResultSet × Option (List String)) → Except DbError α) :
    Simulates forget (select? (σ := Traced σ) action read) (select? action read) := by
  intro s
  have hop : (forget s).operation = s.operation := rfl
  have h := simulates_clearingParams simulates_runSelect s
  simp only [select?, hop, h]
  cases s.operation <;> rfl

theorem simulates_runCall (allResults : Bool) :
    Simulates forget (runCall (σ := Traced σ) allResults) (runCall allResults) := by
  refine Simulates.bind (fun _ => rfl) fun labels => ?_
  refine (Simulates.view fun _ => rfl).bind fun params => ?_
  exact simulates_onCall "query_procedure" (simulates_queryHeld allResults labels params)

theorem simulates_queryProcedure (allResults : Bool) :
    Simulates forget (queryProcedure (σ := Traced σ) allResults) (queryProcedure allResults) := by
  intro s
  have hop : (forget s).operation = s.operation := rfl
  simp only [queryProcedure, hop]
  cases s.operation with
  | procedure => exact simulates_clearingParams (simulates_runCall allResults) s
  | _ => rfl

theorem simulates_query : Simulates forget (query (σ := Traced σ)) query := by
  intro s
  have hop : (forget s).operation = s.operation := rfl
  simp only [query, hop]
  cases s.operation with
  | procedure => exact simulates_queryProcedure false s
  | _ => exact simulates_select? _ _ s

theorem forget_releaseCall (s : Session (Traced σ)) :
    forget (releaseCall s) = releaseCall (forget s) := by
  cases h : s.calling.handle with
  | none => simp only [releaseCall, forget, h, Option.map_none]
  | some call => simp only [releaseCall, forget, h, Option.map_some]; rfl

theorem forget_reset (s : Session (Traced σ)) : forget (reset s) = reset (forget s) := by
  simp only [reset, ← forget_releaseCall]
  rfl

theorem simulates_close : Simulates forget (close (σ := Traced σ)) close := by
  intro s
  have h : Simulates forget
      ((ifOpen () (Backend.close (σ := Traced σ))).andThen fun s => { s with isOpen := false })
      ((ifOpen () (Backend.close (σ := σ))).andThen fun s => { s with isOpen := false }) :=
    (simulates_ifOpen () (simulates_ask _ _)).andThen fun _ => rfl
  simp only [close, ← forget_reset]
  exact h (reset s)

theorem simulates_call (procedure : String) :
    Simulates forget (call (σ := Traced σ) procedure) (call procedure) := by
  intro s
  cases hopen : s.isOpen with
  | false =>
      rw [call_of_closed procedure hopen]
      exact call_of_closed procedure hopen
  | true =>
      have hopen' : (forget s).isOpen = true := hopen
      rcases hp : Backend.prepareCall procedure s.backend.inner with ⟨e | handle, b⟩
      · have hp' : Backend.prepareCall procedure (forget s).backend = (.error e, b) := hp
        rw [call_of_error hopen (prepare_of_error hp), call_of_error hopen' hp']
        rfl
      · have hp' : Backend.prepareCall procedure (forget s).backend = (.ok handle, b) := hp
        rw [call_of_ok hopen (prepare_of_ok hp), call_of_ok hopen' hp']
        simp only [start, forget, releaseCall]
        cases s.calling.handle <;> rfl

theorem simulates_outParam (position : Nat) (type : OutType) :
    Simulates forget (outParam (σ := Traced σ) position type) (outParam position type) := by
  intro s
  have hop : (forget s).operation = s.operation := rfl
  simp only [outParam, hop]
  cases s.operation with
  | procedure =>
      exact (simulates_onCall "out_param" (simulates_use _ _)).bind (fun _ => fun _ => rfl) s
  | _ => rfl

theorem simulates_attempt {a : Action (Session (Traced σ)) α} {b : Action (Session σ) α}
    (answer : α → Answer) (h : Simulates forget a b) :
    Simulates forget (attempt answer a) (attempt answer b) := by
  intro s
  simp only [attempt, h s]

theorem simulates_step {f : Session (Traced σ) → Session (Traced σ)} {g : Session σ → Session σ}
    (h : ∀ s, g (forget s) = forget (f s)) : Simulates forget (step f) (step g) := by
  intro s
  simp only [step, h s]

/--
**Tracing changes nothing.**  Every method of a session over a traced backend answers as it
does over the backend itself, and the sessions stay the same but for the log.
-/
theorem simulates_perform (m : Method) :
    Simulates forget (perform (σ := Traced σ) m) (perform m) := by
  cases m with
  | call procedure => exact simulates_attempt _ (simulates_call procedure)
  | text kind => exact simulates_attempt _ (simulates_compile kind.operation)
  | execute => exact simulates_attempt _ simulates_execute
  | executeBatch records => exact simulates_attempt _ (simulates_executeBatch records)
  | query => exact simulates_attempt _ simulates_query
  | queryUnique => exact simulates_attempt _ (simulates_select? _ _)
  | queryCount => exact simulates_attempt _ (simulates_select? _ _)
  | queryProcedure allResults => exact simulates_attempt _ (simulates_queryProcedure allResults)
  | outParam position type => exact simulates_attempt _ (simulates_outParam position type)
  | close => exact simulates_attempt _ simulates_close
  | isValid => exact simulates_attempt _ (simulates_ifOpen _ (simulates_ask _ _))
  | catalog request => exact simulates_attempt _ (simulates_onConnection (simulates_ask _ _))
  | beginTransaction => exact simulates_attempt _ (simulates_ifOpen _ (simulates_ask _ _))
  | commit => exact simulates_attempt _ (simulates_ifOpen _ (simulates_ask _ _))
  | rollback => exact simulates_attempt _ (simulates_ifOpen _ (simulates_ask _ _))
  | commitTransaction =>
      exact simulates_attempt _ ((simulates_ifOpen _ (simulates_ask _ _)).bind fun _ =>
        simulates_ifOpen _ (simulates_ask _ _))
  | reset => exact simulates_step fun s => (forget_reset s).symm
  | fields fields =>
      refine simulates_step fun s => ?_
      have hop : (forget s).operation = s.operation := rfl
      simp only [setFields, hop]
      cases s.operation <;> rfl
  | aliases aliases =>
      refine simulates_step fun s => ?_
      have hop : (forget s).operation = s.operation := rfl
      simp only [setAliases, hop]
      cases s.operation <;> rfl
  | condition condition =>
      refine simulates_step fun s => ?_
      have hop : (forget s).operation = s.operation := rfl
      simp only [setCondition, hop]
      cases s.operation <;> rfl
  | sql text =>
      refine simulates_step fun s => ?_
      simp only [sql]
      cases Sql.classify text <;> rfl
  | _ => exact simulates_step fun _ => rfl

/-- A session whose backend is traced from the start. -/
def traced (product : Product) (backend : σ) : Session (Traced σ) :=
  fresh product ⟨backend, []⟩

/-- A traced run goes through the same states as the run without a trace. -/
theorem forget_run (ms : List Method) (s : Session (Traced σ)) :
    forget (run ms s) = run ms (forget s) := by
  induction ms generalizing s with
  | nil => rfl
  | cons m ms ih =>
      simp only [run_cons, simulates_perform m s]
      exact ih _

/-- Every reachable session is a traced one without its log. -/
theorem forget_run_traced (product : Product) (backend : σ) (ms : List Method) :
    forget (run ms (traced product backend)) = run ms (fresh product backend) :=
  forget_run ms _

end Session

end SqlSession
