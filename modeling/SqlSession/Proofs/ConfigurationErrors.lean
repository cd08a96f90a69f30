/-
When configuration errors are raised.

A configuration error is about how a statement was put together, and it is raised while that
is done, before anything is asked of the connection.  Of the requests it is assumed that
they do not fail with such errors themselves, which holds of the server; then a terminal
method that fails with one has made none.

There is one exception.  A batch asks for its fields only when it fills its statement, and
an INSERT whose text is settled can come that far without any: it is prepared and closed,
and what it fails with is a configuration error all the same.
-/
import SqlSession.Proofs.Blameless
import SqlSession.Proofs.Postgres.Blameless
import SqlSession.Proofs.Release

namespace SqlSession

open SqlSession.Action Traced

/-! ### What a session does before it makes a request -/

namespace Session

variable {σ : Type} [Backend σ] {α β : Type} {P : σ → Prop} {s : Session σ}

/-- A configuration error is raised before the connection is used. -/
def BlamesFirst (P : σ → Prop) (a : Action (Session σ) α) : Prop :=
  ∀ s, P s.backend → blames (a s).1 = true → (a s).2.backend = s.backend

theorem blames_onConnection {a : Action σ α} (ha : Blameless P a) (hs : P s.backend) :
    blames (onConnection a s).1 = false := by
  cases hopen : s.isOpen with
  | true =>
      rw [onConnection_of_open a hopen]
      exact (ha s.backend hs).2
  | false =>
      rw [onConnection_of_closed a hopen]
      rfl

theorem blames_bind_pure (a : Action (Session σ) α) (f : α → β) (s : Session σ) :
    blames ((a >>= fun x => pure (f x)) s).1 = blames (a s).1 := by
  rcases bind_cases a (fun x => pure (f x)) s with ⟨x, hx, h⟩ | ⟨e, he, h⟩
  · rw [h, hx]
    rfl
  · rw [h, he]
    rfl

/-- Where no call is held, that is noticed before anything is asked of it. -/
theorem blamesFirst_onCall (action : String) {a : Action (Backend.Callable σ × σ) α}
    (ha : Blameless (fun s => P s.2) a) : BlamesFirst P (onCall action a) := by
  intro s hs hblame
  cases hh : s.calling.handle with
  | none => rw [onCall_of_none a hh]
  | some call =>
      rw [onCall_of_held a hh] at hblame
      exact absurd ((ha (call, s.backend) hs).2.symm.trans hblame) Bool.false_ne_true

/-- Forgiving that there is no data adds no configuration error. -/
theorem blames_of_forgiving (r : Except DbError Record)
    (h : blames (match r with
      | .error e => if e.isNoData then .ok [] else .error e
      | .ok record => .ok record : Except DbError Record) = true) : blames r = true := by
  split at h
  next e =>
    split at h
    · cases h
    · exact h
  next => cases h

section Terminals

variable (h : Backend.Blameless P)

include h

theorem blamesFirst_executeChange (operation : Operation) :
    BlamesFirst P (executeChange operation) := by
  intro s hs hblame
  cases ht : s.draftText operation with
  | error e => rw [executeChange_of_error ht]
  | ok text =>
      have hrun : Blameless P (runStatement text s.params Backend.executeUpdate) :=
        h.runStatement text s.params h.executeUpdate
      rw [executeChange_of_text ht, blames_onConnection hrun (by rwa [settle_backend])] at hblame
      cases hblame

theorem blamesFirst_executeCreate : BlamesFirst P executeCreate := by
  intro s hs hblame
  cases ht : s.draftText .create with
  | error e => rw [executeCreate_of_error ht]
  | ok text =>
      have hrun : Blameless P (runStatement text [] Backend.execute) :=
        h.runStatement text [] h.execute
      rw [executeCreate_of_text ht, blames_bind_pure,
        blames_onConnection hrun (by rwa [settle_backend])] at hblame
      cases hblame

theorem blamesFirst_runSelect : BlamesFirst P runSelect := by
  intro s hs hblame
  cases ht : s.draftText .select with
  | error e => rw [runSelect_of_error ht]
  | ok text =>
      cases hl : s.selectLabels with
      | error e => rw [runSelect_of_unread ht hl, settle_backend]
      | ok labels =>
          have hrun : Blameless P (runStatement text s.params Backend.executeQuery) :=
            h.runStatement text s.params h.executeQuery
          rw [runSelect_of_text ht hl, blames_bind_pure,
            blames_onConnection hrun (by rwa [settle_backend])] at hblame
          cases hblame

theorem blamesFirst_executeCall : BlamesFirst P executeCall := by
  intro s hs hblame
  rw [executeCall_eq] at hblame ⊢
  exact blamesFirst_onCall "execute" (h.executeHeld s.params) s hs hblame

theorem blamesFirst_runCall (allResults : Bool) : BlamesFirst P (runCall allResults) := by
  intro s hs hblame
  cases hl : s.callLabels with
  | error e => rw [runCall_of_unread allResults hl]
  | ok labels =>
      rw [runCall_of_labels allResults hl] at hblame ⊢
      exact blamesFirst_onCall _ (h.queryHeld allResults labels s.params) s hs hblame

theorem blamesFirst_execute : BlamesFirst P execute := by
  intro s hs hblame
  rw [execute_eq] at hblame ⊢
  have hactive : blames (executeActive s).1 = true := hblame
  show (executeActive s).2.backend = s.backend
  unfold executeActive at hactive ⊢
  cases hop : s.operation with
  | none => rfl
  | select => rfl
  | insert => exact blamesFirst_executeChange h .insert s hs (by simpa only [hop] using hactive)
  | update => exact blamesFirst_executeChange h .update s hs (by simpa only [hop] using hactive)
  | delete => exact blamesFirst_executeChange h .delete s hs (by simpa only [hop] using hactive)
  | create => exact blamesFirst_executeCreate h s hs (by simpa only [hop] using hactive)
  | procedure => exact blamesFirst_executeCall h s hs (by simpa only [hop] using hactive)

/-- Reading the answer adds no configuration error of its own. -/
theorem blamesFirst_select? (action : String)
    {read : Except DbError (ResultSet × Option (List String)) → Except DbError α}
    (hread : ∀ r, blames (read r) = true → blames r = true) :
    BlamesFirst P (select? action read) := by
  intro s hs hblame
  by_cases hop : s.operation = .select
  · rw [select?_of_select action read hop] at hblame ⊢
    exact blamesFirst_runSelect h s hs (hread _ hblame)
  · rw [select?_of_ne action read hop]

theorem blamesFirst_queryProcedure (allResults : Bool) :
    BlamesFirst P (queryProcedure allResults) := by
  intro s hs hblame
  by_cases hop : s.operation = .procedure
  · simp only [queryProcedure, hop] at hblame ⊢
    exact blamesFirst_runCall h allResults s hs hblame
  · rw [queryProcedure_of_ne allResults hop]

theorem blamesFirst_query : BlamesFirst P query := by
  intro s hs hblame
  unfold query at hblame ⊢
  split at hblame
  · exact blamesFirst_queryProcedure h false s hs hblame
  · refine blamesFirst_select? h "query" (fun r hr => ?_) s hs hblame
    cases r with
    | error e => exact hr
    | ok answer =>
        have hread := blames_records answer.1 answer.2
        exact absurd (hread.symm.trans hr) Bool.false_ne_true

theorem blamesFirst_queryUnique : BlamesFirst P queryUnique := by
  refine blamesFirst_select? h "query_unique" fun r hr => ?_
  replace hr := blames_of_forgiving _ hr
  cases r with
  | error e => exact hr
  | ok answer =>
      have hread := blames_firstRecord answer.1 answer.2
      exact absurd (hread.symm.trans hr) Bool.false_ne_true

theorem blamesFirst_queryCount : BlamesFirst P queryCount := by
  refine blamesFirst_select? h "query_count" fun r hr => ?_
  cases r with
  | error e => exact hr
  | ok answer =>
      have hread := blames_count answer.1
      exact absurd (hread.symm.trans hr) Bool.false_ne_true

end Terminals

/-! ### Batches without fields -/

/-- The session is open and holds an INSERT whose text is settled, but no fields. -/
structure Fieldless (s : Session σ) : Prop where
  operation : s.operation = .insert
  isOpen : s.isOpen = true
  settled : s.inserting.text.isSome = true
  fields : s.inserting.parts.fields = []

/-- No text is compiled without fields. -/
theorem settled_of_draftText {text : String} (ht : s.draftText .insert = .ok text)
    (hfields : s.inserting.parts.fields = []) : s.inserting.text = some text := by
  simp only [draftText, Draft.compiled] at ht
  split at ht
  next settled hsettled => rw [hsettled, Except.ok.inj ht]
  next =>
    simp only [Sql.compileInsert, hfields, List.isEmpty_nil, if_true] at ht
    split at ht <;> cases ht

theorem blamesFirst_insertBatch (h : Backend.Blameless P) (records : List Record)
    (hs : P s.backend) (hop : s.operation = .insert) (hfieldless : ¬s.Fieldless)
    (hblame : blames (insertBatch records s).1 = true) :
    (insertBatch records s).2.backend = s.backend := by
  cases ht : s.draftText .insert with
  | error e => rw [insertBatch_of_error records ht]
  | ok text =>
      rw [insertBatch_of_text records ht] at hblame
      -- without fields there is a text only if it is settled, so the session has to be closed
      by_cases hfields : s.inserting.parts.fields = []
      · cases hopen : s.isOpen with
        | true =>
            have htext := settled_of_draftText ht hfields
            exact absurd ⟨hop, hopen, by rw [htext]; rfl, hfields⟩ hfieldless
        | false =>
            rw [onConnection_of_closed _ (by rwa [settle_isOpen])] at hblame
            cases hblame
      · have hrun := h.runStatement text [] (h.useBatch hfields records)
        rw [blames_onConnection hrun (by rwa [settle_backend])] at hblame
        cases hblame

/-- A statement that is given up as soon as it is there is prepared and closed. -/
theorem log_of_blames_fail (h : Backend.Blameless P) (text : String) (e : DbError)
    {t : Traced σ} (ht : P t.inner)
    (hblame : blames (runStatement (σ := Traced σ) text [] (fail e : Action _ α) t).1 = true) :
    (runStatement (σ := Traced σ) text [] (fail e : Action _ α) t).1 = .error e ∧
      (runStatement (σ := Traced σ) text [] (fail e : Action _ α) t).2.log =
        t.log ++ [⟨.prepare t.log.length text, true⟩, ⟨.closeStatement t.log.length, true⟩] := by
  have hprepared := (h.prepare text t.inner ht).2
  rcases hp : Backend.prepare text t.inner with ⟨e' | st, b⟩ <;> rw [hp] at hprepared
  · have hlog : Backend.prepare text t = _ := prepare_of_error hp
    simp only [runStatement, opened, hlog] at hblame
    exact absurd (hprepared.symm.trans hblame) Bool.false_ne_true
  · have hlog : Backend.prepare text t = _ := prepare_of_ok hp
    simp only [runStatement, opened, hlog]
    exact ⟨rfl, List.append_assoc ..⟩

theorem log_of_fieldless (h : Backend.Blameless P) (records : List Record)
    {s : Session (Traced σ)} (hs : P s.backend.inner) (hfieldless : s.Fieldless)
    (hblame : blames (insertBatch records s).1 = true) :
    (insertBatch records s).1 = .error (.missingFields .insert) ∧
      ∃ text, s.inserting.text = some text ∧ (insertBatch records s).2.backend.log =
        s.backend.log ++ [⟨.prepare s.backend.log.length text, true⟩,
          ⟨.closeStatement s.backend.log.length, true⟩] := by
  obtain ⟨text, htext⟩ := Option.isSome_iff_exists.mp hfieldless.settled
  have ht : s.draftText .insert = .ok text := by simp only [draftText, Draft.compiled, htext]
  have hbatch : insertBatch records s = _ := insertBatch_of_text records ht
  have hopen : (s.settle .insert text).isOpen = true := by
    rw [settle_isOpen, hfieldless.isOpen]
  rw [onConnection_of_open _ hopen, settle_backend, hfieldless.fields] at hbatch
  rw [hbatch] at hblame ⊢
  obtain ⟨herror, hlog⟩ := log_of_blames_fail h text (.missingFields .insert) hs hblame
  exact ⟨herror, text, htext, hlog⟩

/-! ### Every terminal method -/

/--
**A configuration error means that nothing was asked of the connection**, but for one case.
Let no request fail with a configuration error itself.  If a terminal method does, then the
connection is as it was, unless the method puts records into an INSERT with a settled text
and no fields; there the error is that the fields are missing, and the statement was prepared
and closed before it was raised.
-/
theorem configuration_error_requests (h : Backend.Blameless P) (t : Terminal)
    (s : Session (Traced σ)) (hs : P s.backend.inner) {e : DbError}
    (he : (perform t.method s).1 = .error e) (hc : e.isConfiguration = true) :
    (¬(t.isBatch = true ∧ s.Fieldless) → (perform t.method s).2.backend = s.backend) ∧
      (t.isBatch = true ∧ s.Fieldless → e = .missingFields .insert ∧
        ∃ text, s.inserting.text = some text ∧ (perform t.method s).2.backend.log =
          s.backend.log ++ [⟨.prepare s.backend.log.length text, true⟩,
            ⟨.closeStatement s.backend.log.length, true⟩]) := by
  have hblame : blames (perform t.method s).1 = true := by
    rw [he]
    exact hc
  have hfirst : ∀ {α : Type} {answer : α → Answer} {a : Action (Session (Traced σ)) α},
      BlamesFirst (fun t : Traced σ => P t.inner) a → blames (attempt answer a s).1 = true →
        (attempt answer a s).2.backend = s.backend := fun ha hb =>
    ha s hs ((blames_map _ _).symm.trans hb)
  cases t with
  | execute => exact ⟨fun _ => hfirst (blamesFirst_execute h.traced) hblame, nofun⟩
  | query => exact ⟨fun _ => hfirst (blamesFirst_query h.traced) hblame, nofun⟩
  | queryUnique => exact ⟨fun _ => hfirst (blamesFirst_queryUnique h.traced) hblame, nofun⟩
  | queryCount => exact ⟨fun _ => hfirst (blamesFirst_queryCount h.traced) hblame, nofun⟩
  | queryProcedure allResults =>
      exact ⟨fun _ => hfirst (blamesFirst_queryProcedure h.traced allResults) hblame, nofun⟩
  | executeBatch records =>
      by_cases hop : s.operation = .insert
      · have hbatch : perform (Terminal.executeBatch records).method s =
            attempt .counts (clearingParams (insertBatch records)) s := by
          simp only [Terminal.method, perform, attempt, executeBatch_of_insert records hop]
        rw [hbatch] at he hblame ⊢
        have hinsert : blames (insertBatch records s).1 = true :=
          (blames_map _ _).symm.trans hblame
        refine ⟨fun hnot => blamesFirst_insertBatch h.traced records hs hop
          (fun hfieldless => hnot ⟨rfl, hfieldless⟩) hinsert, fun hyes => ?_⟩
        obtain ⟨herror, text, htext, hlog⟩ := log_of_fieldless h records hs hyes.2 hinsert
        have hanswer : (attempt .counts (clearingParams (insertBatch records)) s).1 =
            .error (.missingFields .insert) := congrArg (Except.map Answer.counts) herror
        exact ⟨Except.error.inj (he.symm.trans hanswer), text, htext, hlog⟩
      · refine ⟨fun _ => ?_, fun hyes => absurd hyes.2.operation hop⟩
        show (executeBatch records s).2.backend = s.backend
        rw [executeBatch_of_ne records hop]

/-- An INSERT given as text, and no fields for it. -/
def bareInsert : Session (Traced Postgres.Connection) :=
  run [.sql "insert into book values (1)"] (traced .postgreSql {})

/-- Nothing is asked on behalf of a session without a statement; the batch finds out about
the missing fields when its statement is there. -/
theorem bareInsert_requests :
    (perform .execute (traced .postgreSql ({} : Postgres.Connection))).2.backend = ⟨{}, []⟩ ∧
      (perform (.executeBatch [[]]) bareInsert).2.backend.log =
        [⟨.prepare 0 "insert into book values (1)", true⟩, ⟨.closeStatement 0, true⟩] := by
  have hnone := configuration_error_requests Postgres.blameless .execute
    (traced .postgreSql ({} : Postgres.Connection)) trivial
    (e := .invalidOperation "execute" .none) rfl rfl
  have hbatch := configuration_error_requests Postgres.blameless (.executeBatch [[]])
    bareInsert trivial (e := .missingFields .insert) rfl rfl
  obtain ⟨-, text, htext, hlog⟩ := hbatch.2 ⟨rfl, rfl, rfl, rfl, rfl⟩
  cases htext
  exact ⟨hnone.1 (fun h => nomatch h.1), hlog⟩

/-- A batch without fields prepares its statement before it fails with a configuration
error. -/
theorem fieldless_batch_opens_statement :
    ¬∀ (σ : Type) [Backend σ] (P : σ → Prop), Backend.Blameless P →
      ∀ (t : Terminal) (s : Session (Traced σ)), P s.backend.inner → ∀ e : DbError,
        (perform t.method s).1 = .error e → e.isConfiguration = true →
          (perform t.method s).2.backend.log = s.backend.log := by
  intro h
  have hnothing := h Postgres.Connection _ Postgres.blameless (.executeBatch [[]]) bareInsert
    trivial (.missingFields .insert) rfl rfl
  exact absurd (congrArg List.length hnothing) (by decide)

end Session

end SqlSession
