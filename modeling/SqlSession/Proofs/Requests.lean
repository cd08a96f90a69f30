/-
What the methods of a session ask for.

Whatever a method does is one of four things: it changes fields of the session, it makes
requests on the connection that are about no procedure call, it uses the held call, or it
starts or ends one.  `Permits` says of a relation between states of the connection that it
allows every request of the second kind, statements with their whole life included.  A
relation between sessions that allows the first two kinds, and what is asked of the held
call, holds of every method but the three that start or end a call: `obeys_perform`.
-/
import SqlSession.Proofs.CallLog
import SqlSession.Proofs.Terminal

namespace SqlSession

open SqlSession.Action

variable {σ γ : Type} [Backend σ] {α : Type}

/-- The connections beside a statement are related, whatever becomes of the statement. -/
def Beside (R : σ → σ → Prop) (p q : γ × σ) : Prop :=
  R p.2 q.2

omit [Backend σ] in
theorem chains_beside {R : σ → σ → Prop} (hR : Chains R) :
    Chains (Beside R : γ × σ → γ × σ → Prop) :=
  ⟨fun p => hR.refl p.2, fun h h' => hR.trans h h'⟩

/-- Every request on the connection that is about no call moves it along the relation. -/
structure Permits (R : σ → σ → Prop) : Prop where
  chains : Chains R
  prepare : ∀ text, Obeys R (Backend.prepare text)
  bind : ∀ position v, Obeys (Beside R) (Backend.bind (σ := σ) position v)
  executeUpdate : Obeys (Beside R) (Backend.executeUpdate (σ := σ))
  executeQuery : Obeys (Beside R) (Backend.executeQuery (σ := σ))
  execute : Obeys (Beside R) (Backend.execute (σ := σ))
  addBatch : Obeys (Beside R) (Backend.addBatch (σ := σ))
  executeBatch : Obeys (Beside R) (Backend.executeBatch (σ := σ))
  closeStatement : ∀ statement b, R b (Backend.closeStatement statement b)
  setAutoCommit : ∀ on, Obeys R (Backend.setAutoCommit on)
  commit : Obeys R Backend.commit
  rollback : Obeys R Backend.rollback
  isValid : Obeys R Backend.isValid
  close : Obeys R Backend.close
  catalog : ∀ request, Obeys R (Backend.catalog request)

/-! ### Statements -/

namespace Permits

variable {R : σ → σ → Prop} (h : Permits R)

include h

theorem bindAll (params : List Value) :
    Obeys (Beside R) (SqlSession.bindAll (Backend.bind (σ := σ)) params) :=
  obeys_bindFrom (chains_beside h.chains) h.bind params 1

/-- A statement that is prepared, bound, used and closed moves the connection along the
relation, if its use does. -/
theorem runStatement (text : String) (params : List Value)
    {use : Action (Backend.Statement σ × σ) α} (huse : Obeys (Beside R) use) :
    Obeys R (Session.runStatement text params use) := by
  intro b
  have hprepared := h.prepare text b
  simp only [Session.runStatement, Session.opened]
  rcases hprepare : Backend.prepare text b with ⟨_ | statement, b₁⟩ <;> rw [hprepare] at hprepared
  · exact hprepared
  · have hbound := h.bindAll params (statement, b₁)
    simp only
    rcases hbind : SqlSession.bindAll Backend.bind params (statement, b₁) with ⟨_ | _, st, b₂⟩ <;>
      rw [hbind] at hbound
    · exact h.chains.trans hprepared hbound
    · have hused : R b (use (st, b₂)).2.2 :=
        h.chains.trans (h.chains.trans hprepared hbound) (huse (st, b₂))
      exact h.chains.trans hused (h.closeStatement _ _)

theorem bindFields (record : Record) (fields : List String) :
    ∀ position, Obeys (Beside R) (Session.bindFields (σ := σ) record position fields) := by
  induction fields with
  | nil => intro position; exact (chains_beside h.chains).refl
  | cons field fields ih =>
      intro position s
      cases hv : record.value? field with
      | none =>
          simp only [Session.bindFields, hv]
          exact h.chains.refl _
      | some v =>
          have hbound := h.bind position (Value.ofJson v) s
          simp only [Session.bindFields, hv]
          rcases hbind : Backend.bind position (Value.ofJson v) s with ⟨_ | _, t⟩ <;>
            rw [hbind] at hbound
          · exact hbound
          · exact h.chains.trans hbound (ih (position + 1) t)

theorem fillBatch (fields : List String) (records : List Record) :
    Obeys (Beside R) (Session.fillBatch (σ := σ) fields records) := by
  have hchains := chains_beside (γ := Backend.Statement σ) h.chains
  induction records with
  | nil => exact hchains.refl
  | cons record records ih =>
      exact Obeys.bind hchains (h.bindFields record fields 1) fun _ =>
        Obeys.bind hchains h.addBatch fun _ => ih

theorem useBatch (fields : List String) (records : List Record) :
    Obeys (Beside R) (Session.useBatch (σ := σ) fields records) := by
  have hchains := chains_beside (γ := Backend.Statement σ) h.chains
  unfold Session.useBatch
  split
  · exact hchains.refl
  · exact Obeys.bind hchains (h.fillBatch fields records) fun _ => h.executeBatch

end Permits

/-! ### A log of requests -/

namespace Traced

/-- The log grows by events that `P` allows. -/
def Grows (P : Event (Backend.Callable σ) → Prop) (t u : Traced σ) : Prop :=
  ∃ ev, u.log = t.log ++ ev ∧ ∀ e ∈ ev, P e

variable {P : Event (Backend.Callable σ) → Prop}

theorem chains_grows : Chains (Grows P) where
  refl _ := ⟨[], (List.append_nil _).symm, fun _ he => absurd he List.not_mem_nil⟩
  trans := by
    intro t u v htu huv
    obtain ⟨ev, hlog, h⟩ := htu
    obtain ⟨ev', hlog', h'⟩ := huv
    refine ⟨ev ++ ev', by rw [hlog', hlog, List.append_assoc], fun e he => ?_⟩
    exact (List.mem_append.mp he).elim (h e) (h' e)

theorem grows_one {request : Request (Backend.Callable σ)} (h : ∀ done, P ⟨request, done⟩)
    {t u : Traced σ} {done : Bool} (hlog : u.log = t.log ++ [⟨request, done⟩]) : Grows P t u := by
  refine ⟨_, hlog, fun e he => ?_⟩
  rw [List.mem_singleton.mp he]
  exact h done

/-- A log to which every event that is about no call may be added grows by all requests that
are about none. -/
theorem permits_grows (h : ∀ e : Event (Backend.Callable σ), e.request.about? = none → P e) :
    Permits (Grows P) := by
  have hplain {request : Request (Backend.Callable σ)} (hrequest : request.about? = none)
      {α : Type} (a : Action σ α) : Obeys (Grows P) (ask request a) :=
    fun _ => grows_one (fun _ => h _ hrequest) rfl
  have huse {Held α : Type} {request : Nat → Request (Backend.Callable σ)}
      (hrequest : ∀ n, (request n).about? = none) (a : Action (Held × σ) α) :
      Obeys (Beside (Grows P)) (use (fun n _ => request n) a) :=
    fun _ => grows_one (fun _ => h _ (hrequest _)) rfl
  exact
    { chains := chains_grows
      prepare := fun text t =>
        have hprepared : Grows P t (prepare (fun n => .prepare n text) (Backend.prepare text) t).2 :=
          grows_one (fun _ => h _ rfl) rfl
        hprepared
      bind := fun _ _ => huse (fun _ => rfl) _
      executeUpdate := huse (fun _ => rfl) _
      executeQuery := huse (fun _ => rfl) _
      execute := huse (fun _ => rfl) _
      addBatch := huse (fun _ => rfl) _
      executeBatch := huse (fun _ => rfl) _
      closeStatement := fun _ _ => grows_one (fun _ => h _ rfl) rfl
      setAutoCommit := fun _ => hplain rfl _
      commit := hplain rfl _
      rollback := hplain rfl _
      isValid := hplain rfl _
      close := hplain rfl _
      catalog := fun _ => hplain rfl _ }

end Traced

/-! ### Sessions -/

/-- The method neither starts a procedure call nor ends one. -/
def Method.keepsCall : Method → Bool
  | .call _ | .reset | .close => false
  | _ => true

namespace Session

/-- Neither the connection nor the held call is touched, and no call becomes the active
operation. -/
structure SameCall (s t : Session σ) : Prop where
  backend : t.backend = s.backend
  isOpen : t.isOpen = s.isOpen
  handle : t.calling.handle = s.calling.handle
  operation : t.operation = .procedure → s.operation = .procedure

theorem sameCall_settle (operation : Operation) (text : String) (s : Session σ) :
    SameCall s (s.settle operation text) := by
  cases operation <;> exact ⟨rfl, rfl, rfl, id⟩

theorem ofKeyword?_ne_procedure (word : List Char) :
    Operation.ofKeyword? word ≠ some .procedure := by
  unfold Operation.ofKeyword?
  repeat' split
  all_goals exact nofun

/-- No text starts a procedure call. -/
theorem classify_ne_procedure (text : String) : Sql.classify text ≠ .procedure := by
  intro h
  simp only [Sql.classify] at h
  cases hword : (Sql.words (Sql.withoutComments .code text.toList)).findSome? fun word =>
      Operation.ofKeyword? (Text.asciiLower word) with
  | none =>
      rw [hword] at h
      cases h
  | some operation =>
      rw [hword, Option.getD_some] at h
      obtain ⟨word, -, hop⟩ := List.exists_of_findSome?_eq_some hword
      exact ofKeyword?_ne_procedure _ (hop.trans (congrArg some h))

theorem sameCall_sql (text : String) (s : Session σ) : SameCall s (sql text s) := by
  have hne := classify_ne_procedure text
  unfold sql
  cases hop : Sql.classify text <;> first | exact absurd hop hne | exact ⟨rfl, rfl, rfl, nofun⟩

section Relations

variable {R : σ → σ → Prop} (hp : Permits R) {Q : Session σ → Session σ → Prop} (hQ : Chains Q)
  (same : ∀ {s t}, SameCall s t → Q s t)
  (follow : ∀ s b, s.isOpen = true → R s.backend b → Q s { s with backend := b })

include hQ same

theorem obeys_compile (operation : Operation) : Obeys Q (compile (σ := σ) operation) := by
  intro s
  cases h : s.draftText operation with
  | error e =>
      rw [compile_of_error h]
      exact hQ.refl s
  | ok text =>
      rw [compile_of_text h]
      exact same (sameCall_settle operation text s)

theorem obeys_outParam
    (register : ∀ position type,
      Obeys Q (onCall (σ := σ) "out_param" (Backend.register position type)))
    (position : Nat) (type : OutType) : Obeys Q (outParam (σ := σ) position type) := by
  intro s
  unfold outParam
  split
  · refine Obeys.bind hQ (register _ _) (fun _ t => ?_) s
    exact same ⟨rfl, rfl, rfl, id⟩
  · exact hQ.refl s

include hp follow

theorem obeys_executeChange (operation : Operation) :
    Obeys Q (executeChange (σ := σ) operation) := by
  refine Obeys.bind hQ (obeys_compile hQ same operation) fun text => ?_
  refine Obeys.bind hQ (Obeys.of_fixed hQ fun _ => rfl) fun params => ?_
  exact obeys_onConnection hQ follow (hp.runStatement text params hp.executeUpdate)

theorem obeys_executeCreate : Obeys Q (executeCreate (σ := σ)) := by
  refine Obeys.bind hQ (obeys_compile hQ same .create) fun text => ?_
  refine Obeys.bind hQ ?_ fun _ => Obeys.of_fixed hQ fun _ => rfl
  exact obeys_onConnection hQ follow (hp.runStatement text [] hp.execute)

theorem obeys_insertBatch (records : List Record) : Obeys Q (insertBatch (σ := σ) records) := by
  refine Obeys.bind hQ (obeys_compile hQ same .insert) fun text => ?_
  refine Obeys.bind hQ (Obeys.of_fixed hQ fun _ => rfl) fun fields => ?_
  exact obeys_onConnection hQ follow (hp.runStatement text [] (hp.useBatch fields records))

theorem obeys_runSelect : Obeys Q (runSelect (σ := σ)) := by
  refine Obeys.bind hQ (obeys_compile hQ same .select) fun text => ?_
  refine Obeys.bind hQ (Obeys.of_fixed hQ fun _ => rfl) fun labels => ?_
  refine Obeys.bind hQ (Obeys.of_fixed hQ fun _ => rfl) fun params => ?_
  refine Obeys.bind hQ ?_ fun _ => Obeys.of_fixed hQ fun _ => rfl
  exact obeys_onConnection hQ follow (hp.runStatement text params hp.executeQuery)

/-- What holds of changes of fields, of requests about no call and of what is asked of the
held call holds of every method that keeps the call.  Running the call may move the session
along a wider relation `Q'`, which need not chain. -/
theorem obeys_perform {Q' : Session σ → Session σ → Prop} (widen : ∀ {s t}, Q s t → Q' s t)
    (clear : ∀ {s t}, Q' s t → Q' s { t with params := [] })
    (execute : Obeys Q' (executeCall (σ := σ)))
    (query : ∀ allResults, Obeys Q' (runCall (σ := σ) allResults))
    (register : ∀ position type,
      Obeys Q (onCall (σ := σ) "out_param" (Backend.register position type)))
    {m : Method} (hm : m.keepsCall = true) : Obeys Q' (perform (σ := σ) m) := by
  have hterminal (t : Terminal) : Obeys Q' (perform (σ := σ) t.method) :=
    obeys_terminal (fun s => widen (hQ.refl s)) clear
      (fun operation s => widen (obeys_executeChange hp hQ same follow operation s))
      (fun s => widen (obeys_executeCreate hp hQ same follow s)) execute
      (fun records s => widen (obeys_insertBatch hp hQ same follow records s))
      (fun s => widen (obeys_runSelect hp hQ same follow s)) query t
  have hrequest {α : Type} (closed : α) {a : Action σ α} (h : Obeys R a) :
      Obeys Q' (ifOpen closed a) :=
    fun s => widen (obeys_ifOpen hQ follow closed h s)
  have hsame {s t : Session σ} (h : SameCall s t) : Q' s t := widen (same h)
  cases m with
  | call procedure => cases hm
  | reset => cases hm
  | close => cases hm
  | execute => exact hterminal .execute
  | executeBatch records => exact hterminal (.executeBatch records)
  | query => exact hterminal .query
  | queryUnique => exact hterminal .queryUnique
  | queryCount => exact hterminal .queryCount
  | queryProcedure allResults => exact hterminal (.queryProcedure allResults)
  | text kind => exact fun s => widen (obeys_compile hQ same kind.operation s)
  | outParam position type =>
      exact fun s => widen (obeys_outParam hQ same register position type s)
  | isValid => exact hrequest false hp.isValid
  | catalog request =>
      exact fun s => widen (obeys_onConnection hQ follow (hp.catalog request) s)
  | beginTransaction => exact hrequest () (hp.setAutoCommit false)
  | commit => exact hrequest () hp.commit
  | rollback => exact hrequest () hp.rollback
  | commitTransaction =>
      exact fun s => widen (Obeys.bind hQ (obeys_ifOpen hQ follow () hp.commit)
        (fun _ => obeys_ifOpen hQ follow () (hp.setAutoCommit true)) s)
  | sql text => exact fun s => hsame (sameCall_sql text s)
  | fields fields =>
      intro s
      refine hsame (?_ : SameCall s (setFields fields s))
      unfold setFields
      split <;> exact ⟨rfl, rfl, rfl, id⟩
  | aliases aliases =>
      intro s
      refine hsame (?_ : SameCall s (setAliases aliases s))
      unfold setAliases
      split <;> exact ⟨rfl, rfl, rfl, id⟩
  | condition condition =>
      intro s
      refine hsame (?_ : SameCall s (setCondition condition s))
      unfold setCondition
      split <;> exact ⟨rfl, rfl, rfl, id⟩
  | select fields => exact fun s => hsame ⟨rfl, rfl, rfl, nofun⟩
  | insert table => exact fun s => hsame ⟨rfl, rfl, rfl, nofun⟩
  | update table => exact fun s => hsame ⟨rfl, rfl, rfl, nofun⟩
  | delete table => exact fun s => hsame ⟨rfl, rfl, rfl, nofun⟩
  | _ => exact fun s => hsame ⟨rfl, rfl, rfl, id⟩

end Relations

end Session

end SqlSession
