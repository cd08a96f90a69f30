/-
Backends that answer alike.

Two actions agree on a relation between their states if, from related states, they give the
same answer and leave related states behind.  Two backends answer alike if every request
agrees with itself, for some relation between their connections, their statements and their
calls; whatever the session asks of its backend is put together from requests, so it agrees
with itself too, and that is what is proved here, definition by definition.

The relation says nothing of how a connection came to be where it is: two backends may have
been through different things and answer alike from now on.
-/
import SqlSession.Proofs.BoundValues
import SqlSession.Proofs.Collecting
import SqlSession.Proofs.Execution

namespace SqlSession

namespace Action

variable {σ τ α β γ δ : Type}

/-- The answers are the same failure, or values that belong together. -/
inductive SameAnswer (V : α → β → Prop) : Except DbError α → Except DbError β → Prop
  | ok {x : α} {y : β} (values : V x y) : SameAnswer V (.ok x) (.ok y)
  | error (e : DbError) : SameAnswer V (.error e) (.error e)

theorem sameAnswer_eq_iff {r r' : Except DbError α} : SameAnswer Eq r r' ↔ r = r' := by
  constructor
  · rintro (rfl | e) <;> rfl
  · rintro rfl
    cases r with
    | error e => exact .error e
    | ok x => exact .ok rfl

theorem SameAnswer.map {V : α → β → Prop} {W : γ → δ → Prop} {r : Except DbError α}
    {r' : Except DbError β} (h : SameAnswer V r r') {f : α → γ} {g : β → δ}
    (hfg : ∀ x y, V x y → W (f x) (g y)) : SameAnswer W (r.map f) (r'.map g) := by
  cases h with
  | ok hxy => exact .ok (hfg _ _ hxy)
  | error e => exact .error e

/-- From related states, the actions give the same answer and leave related states behind. -/
def Agrees (R : σ → τ → Prop) (V : α → β → Prop) (a : Action σ α) (b : Action τ β) : Prop :=
  ∀ s t, R s t → SameAnswer V (a s).1 (b t).1 ∧ R (a s).2 (b t).2

/-- Two states, each with something that goes with it. -/
def Both (V : α → β → Prop) (R : σ → τ → Prop) (p : α × σ) (q : β × τ) : Prop :=
  V p.1 q.1 ∧ R p.2 q.2

namespace Agrees

variable {R : σ → τ → Prop} {V : α → β → Prop} {W : γ → δ → Prop}

/-- What comes of one action comes of the other. -/
theorem step {a : Action σ α} {b : Action τ β} (h : Agrees R V a b) {s : σ} {t : τ} (hst : R s t)
    {r : Except DbError α} {s' : σ} (ha : a s = (r, s')) :
    ∃ r' t', b t = (r', t') ∧ SameAnswer V r r' ∧ R s' t' := by
  have hboth := h s t hst
  rw [ha] at hboth
  exact ⟨_, _, rfl, hboth.1, hboth.2⟩

/-- The same for answers that are compared by equality. -/
theorem step_eq {a : Action σ α} {b : Action τ α} (h : Agrees R Eq a b) {s : σ} {t : τ}
    (hst : R s t) {r : Except DbError α} {s' : σ} (ha : a s = (r, s')) :
    ∃ t', b t = (r, t') ∧ R s' t' := by
  obtain ⟨r', t', hb, hr, ht⟩ := h.step hst ha
  obtain rfl := sameAnswer_eq_iff.mp hr
  exact ⟨t', hb, ht⟩

theorem pure {x : α} {y : β} (h : V x y) :
    Agrees R V (pure x : Action σ α) (pure y : Action τ β) :=
  fun _ _ hst => ⟨.ok h, hst⟩

theorem fail (e : DbError) : Agrees R V (fail e : Action σ α) (fail e : Action τ β) :=
  fun _ _ hst => ⟨.error e, hst⟩

theorem ofExcept (r : Except DbError α) :
    Agrees R Eq (ofExcept r : Action σ α) (ofExcept r : Action τ α) :=
  fun _ _ hst => ⟨sameAnswer_eq_iff.mpr rfl, hst⟩

theorem view {v : σ → α} {w : τ → β} (h : ∀ s t, R s t → V (v s) (w t)) :
    Agrees R V (view v) (view w) :=
  fun s t hst => ⟨.ok (h s t hst), hst⟩

theorem bind {a : Action σ α} {b : Action τ β} {f : α → Action σ γ} {g : β → Action τ δ}
    (h : Agrees R V a b) (hfg : ∀ x y, V x y → Agrees R W (f x) (g y)) :
    Agrees R W (a >>= f) (b >>= g) := by
  intro s t hst
  rcases ha : a s with ⟨e | x, s'⟩
  · obtain ⟨r', t', hb, hr, ht⟩ := h.step hst ha
    cases hr
    rw [bind_of_error ha, bind_of_error hb]
    exact ⟨.error e, ht⟩
  · obtain ⟨r', t', hb, hr, ht⟩ := h.step hst ha
    cases hr with
    | ok hxy =>
        rw [bind_of_ok ha, bind_of_ok hb]
        exact hfg _ _ hxy s' t' ht

theorem andThen {a : Action σ α} {b : Action τ β} {f : σ → σ} {g : τ → τ} (h : Agrees R V a b)
    (hfg : ∀ s t, R s t → R (f s) (g t)) : Agrees R V (a.andThen f) (b.andThen g) :=
  fun s t hst => ⟨(h s t hst).1, hfg _ _ (h s t hst).2⟩

end Agrees

theorem agrees_bindFrom {R : σ → τ → Prop} {b : Nat → Value → Action σ Unit}
    {b' : Nat → Value → Action τ Unit} (h : ∀ position v, Agrees R Eq (b position v) (b' position v))
    (vs : List Value) : ∀ position, Agrees R Eq (bindFrom b position vs) (bindFrom b' position vs) := by
  induction vs with
  | nil => exact fun _ => .pure rfl
  | cons v vs ih => exact fun position => (h position v).bind fun _ _ _ => ih (position + 1)

end Action

open SqlSession.Action

/-- Every request agrees with itself: connections stay related whatever is asked of both, and
answer the same. -/
structure AnswersAlike {σ τ : Type} [Backend σ] [Backend τ] (R : σ → τ → Prop)
    (S : Backend.Statement σ → Backend.Statement τ → Prop)
    (C : Backend.Callable σ → Backend.Callable τ → Prop) : Prop where
  prepare (text : String) : Agrees R S (Backend.prepare text) (Backend.prepare text)
  prepareCall (procedure : String) :
    Agrees R C (Backend.prepareCall procedure) (Backend.prepareCall procedure)
  callText {call : Backend.Callable σ} {call' : Backend.Callable τ} (calls : C call call') :
    Backend.callText call = Backend.callText call'
  setAutoCommit (on : Bool) : Agrees R Eq (Backend.setAutoCommit on) (Backend.setAutoCommit on)
  commit : Agrees R Eq Backend.commit Backend.commit
  rollback : Agrees R Eq Backend.rollback Backend.rollback
  isValid : Agrees R Eq Backend.isValid Backend.isValid
  close : Agrees R Eq Backend.close Backend.close
  catalog (request : CatalogRequest) :
    Agrees R Eq (Backend.catalog request) (Backend.catalog request)
  bind (position : Nat) (v : Value) :
    Agrees (Both S R) Eq (Backend.bind position v) (Backend.bind position v)
  executeUpdate : Agrees (Both S R) Eq Backend.executeUpdate Backend.executeUpdate
  executeQuery : Agrees (Both S R) Eq Backend.executeQuery Backend.executeQuery
  execute : Agrees (Both S R) Eq Backend.execute Backend.execute
  addBatch : Agrees (Both S R) Eq Backend.addBatch Backend.addBatch
  executeBatch : Agrees (Both S R) Eq Backend.executeBatch Backend.executeBatch
  closeStatement {st : Backend.Statement σ} {st' : Backend.Statement τ} {s : σ} {t : τ}
    (statements : S st st') (connections : R s t) :
    R (Backend.closeStatement st s) (Backend.closeStatement st' t)
  bindCall (position : Nat) (v : Value) :
    Agrees (Both C R) Eq (Backend.bindCall position v) (Backend.bindCall position v)
  register (position : Nat) (type : TypeCode) :
    Agrees (Both C R) Eq (Backend.register position type) (Backend.register position type)
  executeCall : Agrees (Both C R) Eq Backend.executeCall Backend.executeCall
  queryCall : Agrees (Both C R) Eq Backend.queryCall Backend.queryCall
  resultSet : Agrees (Both C R) Eq Backend.resultSet Backend.resultSet
  moreResults : Agrees (Both C R) Eq Backend.moreResults Backend.moreResults
  updateCount {call : Backend.Callable σ} {call' : Backend.Callable τ} (calls : C call call') :
    Backend.updateCount call = Backend.updateCount call'
  closeCall {call : Backend.Callable σ} {call' : Backend.Callable τ} {s : σ} {t : τ}
    (calls : C call call') (connections : R s t) :
    R (Backend.closeCall call s) (Backend.closeCall call' t)

/-! ### What is bound to calls -/

section Bound

variable {σ τ α β : Type} [Backend σ] [Backend τ] {R : σ → τ → Prop}
  {S : Backend.Statement σ → Backend.Statement τ → Prop}
  {C : Backend.Callable σ → Backend.Callable τ → Prop}
  {bound : Backend.Callable σ → List Value} {bound' : Backend.Callable τ → List Value}

/-- Calls that belong together, to which the same is bound. -/
def SameBound (C : Backend.Callable σ → Backend.Callable τ → Prop)
    (bound : Backend.Callable σ → List Value) (bound' : Backend.Callable τ → List Value)
    (call : Backend.Callable σ) (call' : Backend.Callable τ) : Prop :=
  C call call' ∧ bound call = bound' call'

/-- Requests that bind nothing leave calls to which the same is bound. -/
theorem agrees_sameBound {V : α → β → Prop} {a : Action (Backend.Callable σ × σ) α}
    {b : Action (Backend.Callable τ × τ) β} (h : Agrees (Both C R) V a b)
    (ha : Keeps (fun s : Backend.Callable σ × σ => bound s.1) a)
    (hb : Keeps (fun s : Backend.Callable τ × τ => bound' s.1) b) :
    Agrees (Both (SameBound C bound bound') R) V a b := by
  rintro p q ⟨⟨hcalls, hbound⟩, hconnections⟩
  obtain ⟨hanswer, hcalls', hconnections'⟩ := h p q ⟨hcalls, hconnections⟩
  refine ⟨hanswer, ⟨hcalls', ?_⟩, hconnections'⟩
  exact (ha p).trans (hbound.trans (hb q).symm)

/-- Backends that answer alike and keep what is bound to a call hold calls to which the same
is bound. -/
theorem AnswersAlike.sameBound (alike : AnswersAlike R S C) (hbound : KeepsBound bound)
    (hbound' : KeepsBound bound') : AnswersAlike R S (SameBound C bound bound') :=
  { alike with
    prepareCall := by
      intro procedure s t hst
      rcases hp : Backend.prepareCall procedure s with ⟨r, s'⟩
      obtain ⟨r', t', hp', hr, ht⟩ := (alike.prepareCall procedure).step hst hp
      rw [hp']
      cases hr with
      | error e => exact ⟨.error e, ht⟩
      | ok hcalls =>
          exact ⟨.ok ⟨hcalls, (hbound.prepared hp).trans (hbound'.prepared hp').symm⟩, ht⟩
    callText := fun calls => alike.callText calls.1
    bindCall := by
      rintro position v p q ⟨⟨hcalls, hsame⟩, hconnections⟩
      rcases hb : Backend.bindCall position v p with ⟨e | _, p'⟩ <;>
        obtain ⟨q', hb', hcalls', hconnections'⟩ :=
          (alike.bindCall position v).step_eq ⟨hcalls, hconnections⟩ hb <;>
        rw [hb']
      · refine ⟨.error e, ⟨hcalls', ?_⟩, hconnections'⟩
        rw [hbound.refused hb, hbound'.refused hb', hsame]
      · refine ⟨.ok rfl, ⟨hcalls', ?_⟩, hconnections'⟩
        have hput := hbound.bound hb
        rw [hsame] at hput
        exact Except.ok.inj (hput.symm.trans (hbound'.bound hb'))
    register := fun position type =>
      agrees_sameBound (alike.register position type) (hbound.register position type)
        (hbound'.register position type)
    executeCall := agrees_sameBound alike.executeCall hbound.executeCall hbound'.executeCall
    queryCall := agrees_sameBound alike.queryCall hbound.queryCall hbound'.queryCall
    resultSet := agrees_sameBound alike.resultSet hbound.resultSet hbound'.resultSet
    moreResults := agrees_sameBound alike.moreResults hbound.moreResults hbound'.moreResults
    updateCount := fun calls => alike.updateCount calls.1
    closeCall := fun calls connections => alike.closeCall calls.1 connections }

end Bound

/-! ### Scripts -/

namespace Scripted

/-- The connections follow the same script; what was asked of them before may differ. -/
def SameScript (c c' : Connection) : Prop :=
  c.script = c'.script

section Requests

variable {α : Type} (plain : α) (queue : Script → Replies α)
  (setQueue : Replies α → Script → Script)

theorem agrees_reply :
    Agrees SameScript Eq (Connection.reply plain queue setQueue)
      (Connection.reply plain queue setQueue) := by
  intro c c' (h : c.script = c'.script)
  simp only [Connection.reply, h]
  exact ⟨sameAnswer_eq_iff.mpr rfl, rfl⟩

theorem agrees_request (event : Event) :
    Agrees SameScript Eq (Connection.request event plain queue setQueue)
      (Connection.request event plain queue setQueue) :=
  fun c c' h => agrees_reply plain queue setQueue (c.logged event) (c'.logged event) h

/-- A request that leaves the statement or call as it is. -/
theorem agrees_beside {γ : Type} (event : γ → Event) (plain : γ → α) :
    Agrees (Both Eq SameScript) Eq
      (fun p : γ × Connection =>
        onConnection (Connection.request (event p.1) (plain p.1) queue setQueue) p)
      (fun p : γ × Connection =>
        onConnection (Connection.request (event p.1) (plain p.1) queue setQueue) p) := by
  rintro ⟨x, c⟩ ⟨_, c'⟩ ⟨rfl, h⟩
  obtain ⟨hanswer, hrest⟩ := agrees_request (plain x) queue setQueue (event x) c c' h
  exact ⟨hanswer, rfl, hrest⟩

end Requests

theorem agrees_addBatch :
    Agrees (Both Eq SameScript) Eq Statement.addBatch Statement.addBatch := by
  rintro ⟨st, c⟩ ⟨_, c'⟩ ⟨rfl, h⟩
  have hrequest := agrees_request () Script.addBatch (fun q s => { s with addBatch := q })
    (.addBatch st.params)
  simp only [Statement.addBatch]
  rcases hr : Connection.request (.addBatch st.params) () Script.addBatch
    (fun q s => { s with addBatch := q }) c with ⟨e | _, c₁⟩ <;>
    obtain ⟨c₁', hr', h'⟩ := hrequest.step_eq h hr <;> simp only [hr']
  · exact ⟨.error e, rfl, h'⟩
  · exact ⟨.ok rfl, rfl, h'⟩

theorem agrees_executeBatch :
    Agrees (Both Eq SameScript) Eq Statement.executeBatch Statement.executeBatch := by
  rintro ⟨st, c⟩ ⟨_, c'⟩ ⟨rfl, h⟩
  obtain ⟨hanswer, hrest⟩ := agrees_request (List.replicate st.entries 1) Script.executeBatch
    (fun q s => { s with executeBatch := q }) (.executeBatch st.text st.entries) c c' h
  exact ⟨hanswer, rfl, hrest⟩

theorem agrees_bind (position : Nat) (v : Value) :
    Agrees (Both Eq SameScript) Eq (Statement.bind position v) (Statement.bind position v) := by
  rintro ⟨st, c⟩ ⟨_, c'⟩ ⟨rfl, h⟩
  have hscript : c.script = c'.script := h
  simp only [Statement.bind, hscript]
  cases bindParam c'.script st.params position v with
  | error e => exact ⟨.error e, rfl, h⟩
  | ok params => exact ⟨.ok rfl, rfl, h⟩

theorem agrees_bindCall (position : Nat) (v : Value) :
    Agrees (Both Eq SameScript) Eq (Call.bind position v) (Call.bind position v) := by
  rintro ⟨call, c⟩ ⟨_, c'⟩ ⟨rfl, h⟩
  have hscript : c.script = c'.script := h
  simp only [Call.bind, hscript]
  cases bindParam c'.script call.params position v with
  | error e => exact ⟨.error e, rfl, h⟩
  | ok params => exact ⟨.ok rfl, rfl, h⟩

theorem agrees_register (position : Nat) (type : TypeCode) :
    Agrees (Both Eq SameScript) Eq (Call.register position type)
      (Call.register position type) := by
  rintro ⟨call, c⟩ ⟨_, c'⟩ ⟨rfl, h⟩
  have hrequest := agrees_request () Script.register (fun q s => { s with register := q })
    (.register position type)
  simp only [Call.register]
  rcases hr : Connection.request (.register position type) () Script.register
    (fun q s => { s with register := q }) c with ⟨e | _, c₁⟩ <;>
    obtain ⟨c₁', hr', h'⟩ := hrequest.step_eq h hr <;> simp only [hr']
  · exact ⟨.error e, rfl, h'⟩
  · exact ⟨.ok rfl, rfl, h'⟩

theorem agrees_probe (event : Event) :
    Agrees SameScript Eq (Call.probe event) (Call.probe event) :=
  agrees_request _ _ _ event

theorem agrees_executeCall :
    Agrees (Both Eq SameScript) Eq Call.execute Call.execute := by
  rintro ⟨call, c⟩ ⟨_, c'⟩ ⟨rfl, h⟩
  simp only [Call.execute]
  rcases hp : Call.probe (.call call.text call.params) c with ⟨e | _, c₁⟩ <;>
    obtain ⟨c₁', hp', h'⟩ := (agrees_probe _).step_eq h hp <;> simp only [hp']
  · exact ⟨.error e, rfl, h'⟩
  · rcases hr : Connection.reply [] Script.calls (fun q s => { s with calls := q }) c₁
      with ⟨e | results, c₂⟩ <;>
      obtain ⟨c₂', hr', h''⟩ := (agrees_reply _ _ _).step_eq h' hr <;> simp only [hr']
    · exact ⟨.error e, rfl, h''⟩
    · exact ⟨.ok rfl, rfl, h''⟩

theorem agrees_resultSet :
    Agrees (Both Eq SameScript) Eq Call.resultSet Call.resultSet := by
  rintro ⟨call, c⟩ ⟨_, c'⟩ ⟨rfl, h⟩
  have hrequest := agrees_request () Script.resultSet (fun q s => { s with resultSet := q })
    .resultSet
  simp only [Call.resultSet]
  rcases hr : Connection.request .resultSet () Script.resultSet
    (fun q s => { s with resultSet := q }) c with ⟨e | _, c₁⟩ <;>
    obtain ⟨c₁', hr', h'⟩ := hrequest.step_eq h hr <;> simp only [hr']
  · exact ⟨.error e, rfl, h'⟩
  · exact ⟨.ok rfl, rfl, h'⟩

theorem agrees_moreResults :
    Agrees (Both Eq SameScript) Eq Call.moreResults Call.moreResults := by
  rintro ⟨call, c⟩ ⟨_, c'⟩ ⟨rfl, h⟩
  simp only [Call.moreResults]
  rcases hp : Call.probe .moreResults c with ⟨e | _, c₁⟩ <;>
    obtain ⟨c₁', hp', h'⟩ := (agrees_probe _).step_eq h hp <;> simp only [hp']
  · exact ⟨.error e, rfl, h'⟩
  · exact ⟨.ok rfl, rfl, h'⟩

/-- Connections that follow the same script answer alike, whatever was asked of them before. -/
theorem answersAlike : AnswersAlike (σ := Connection) (τ := Connection) SameScript Eq Eq where
  prepare text := (agrees_request _ _ _ (.prepare text)).bind fun _ _ _ => .pure rfl
  prepareCall procedure :=
    (agrees_request _ _ _ (.prepareCall procedure)).bind fun _ _ _ => .pure rfl
  callText := congrArg Call.text
  setAutoCommit on :=
    (agrees_request _ _ _ (.setAutoCommit on)).bind fun _ _ _ _ _ h => ⟨.ok rfl, h⟩
  commit := agrees_request _ _ _ .commit
  rollback := agrees_request _ _ _ .rollback
  isValid := agrees_request _ _ _ .isValid
  close := agrees_request _ _ _ .close
  catalog request := by
    intro c c' (h : c.script = c'.script)
    exact ⟨sameAnswer_eq_iff.mpr (by simp only [Backend.catalog, h]), h⟩
  bind := agrees_bind
  executeUpdate := agrees_beside _ _ (fun st : Statement => .executeUpdate st.text st.params) fun _ => 0
  executeQuery :=
    agrees_beside _ _ (fun st : Statement => .executeQuery st.text st.params)
      fun _ => ResultSet.empty
  execute := agrees_beside _ _ (fun st : Statement => .execute st.text st.params) fun _ => false
  addBatch := agrees_addBatch
  executeBatch := agrees_executeBatch
  closeStatement _ h := h
  bindCall := agrees_bindCall
  register := agrees_register
  executeCall := agrees_executeCall
  queryCall := by
    refine agrees_executeCall.bind fun _ _ _ => agrees_resultSet.bind ?_
    rintro rs _ rfl
    exact .pure rfl
  resultSet := agrees_resultSet
  moreResults := agrees_moreResults
  updateCount := congrArg fun call : Call => call.results.updateCount
  closeCall _ h := h

end Scripted

/-! ### Sessions -/

namespace Session

theorem sameAnswer_consRecords {γ δ : Type} {V : γ → δ → Prop} (records : List Record)
    {out : Except DbError (List Record) × γ} {out' : Except DbError (List Record) × δ}
    (h : SameAnswer Eq out.1 out'.1 ∧ V out.2 out'.2) :
    SameAnswer Eq (consRecords records out).1 (consRecords records out').1 ∧
      V (consRecords records out).2 (consRecords records out').2 := by
  obtain ⟨r, p⟩ := out
  obtain ⟨r', q⟩ := out'
  obtain ⟨hr, hpq⟩ := h
  obtain rfl : r = r' := sameAnswer_eq_iff.mp hr
  cases r with
  | error e => exact ⟨.error e, hpq⟩
  | ok more => exact ⟨.ok rfl, hpq⟩

variable {σ τ α : Type} [Backend σ] [Backend τ] {R : σ → τ → Prop}
  {S : Backend.Statement σ → Backend.Statement τ → Prop}
  {C : Backend.Callable σ → Backend.Callable τ → Prop} (alike : AnswersAlike R S C)

include alike

/-! ### Statements -/

theorem agrees_opened (text : String) (params : List Value) :
    Agrees R S (opened text params) (opened text params) := by
  intro s t hst
  simp only [opened]
  rcases hp : Backend.prepare text s with ⟨e | st, s'⟩
  · obtain ⟨r, t', hp', hr, ht⟩ := (alike.prepare text).step hst hp
    cases hr
    simp only [hp']
    exact ⟨.error e, ht⟩
  · obtain ⟨r, t', hp', hr, ht⟩ := (alike.prepare text).step hst hp
    cases hr with
    | @ok _ st' hstatements =>
        have hbind : Agrees (Both S R) Eq (bindAll Backend.bind params)
            (bindAll Backend.bind params) := agrees_bindFrom alike.bind params 1
        have hpair : Both S R (st, s') (st', t') := ⟨hstatements, ht⟩
        rcases hb : bindAll Backend.bind params (st, s') with ⟨e | x, p⟩ <;>
          obtain ⟨q, hb', hpq⟩ := hbind.step_eq hpair hb
        · simp only [hp', hb, hb']
          exact ⟨.error e, hpq.2⟩
        · simp only [hp', hb, hb']
          exact ⟨.ok hpq.1, hpq.2⟩

theorem agrees_runStatement (text : String) (params : List Value)
    {use : Action (Backend.Statement σ × σ) α} {use' : Action (Backend.Statement τ × τ) α}
    (huse : Agrees (Both S R) Eq use use') :
    Agrees R Eq (runStatement text params use) (runStatement text params use') := by
  intro s t hst
  simp only [runStatement]
  rcases ho : opened text params s with ⟨e | st, s'⟩ <;>
    obtain ⟨r, t', ho', hr, ht⟩ := (agrees_opened alike text params).step hst ho
  · cases hr
    simp only [ho']
    exact ⟨.error e, ht⟩
  · cases hr with
    | @ok _ st' hstatements =>
        have hused := huse (st, s') (st', t') ⟨hstatements, ht⟩
        simp only [ho']
        exact ⟨hused.1, alike.closeStatement hused.2.1 hused.2.2⟩

theorem agrees_bindFields (record : Record) (fields : List String) :
    ∀ position, Agrees (Both S R) Eq (bindFields (σ := σ) record position fields)
      (bindFields (σ := τ) record position fields) := by
  induction fields with
  | nil => exact fun _ => .pure rfl
  | cons field fields ih =>
      intro position p q hpq
      simp only [bindFields]
      cases record.value? field with
      | none => exact ⟨.error _, hpq⟩
      | some v =>
          have hbind := alike.bind position (Value.ofJson v)
          rcases hb : Backend.bind position (Value.ofJson v) p with ⟨e | x, p'⟩ <;>
            obtain ⟨q', hb', hpq'⟩ := hbind.step_eq hpq hb
          · simp only [hb, hb']
            exact ⟨.error _, hpq'⟩
          · simp only [hb, hb']
            exact ih (position + 1) p' q' hpq'

theorem agrees_fillBatch (fields : List String) (records : List Record) :
    Agrees (Both S R) Eq (fillBatch (σ := σ) fields records)
      (fillBatch (σ := τ) fields records) := by
  induction records with
  | nil => exact .pure rfl
  | cons record records ih =>
      exact (agrees_bindFields alike record fields 1).bind fun _ _ _ =>
        alike.addBatch.bind fun _ _ _ => ih

theorem agrees_useBatch (fields : List String) (records : List Record) :
    Agrees (Both S R) Eq (useBatch (σ := σ) fields records)
      (useBatch (σ := τ) fields records) := by
  unfold useBatch
  split
  · exact .fail _
  · exact (agrees_fillBatch alike fields records).bind fun _ _ _ => alike.executeBatch

/-! ### Calls -/

theorem agrees_takeRecords (labels : Option (List String)) :
    Agrees (Both C R) Eq (takeRecords (σ := σ) labels) (takeRecords (σ := τ) labels) := by
  intro p q hpq
  simp only [takeRecords]
  rcases hr : Backend.resultSet p with ⟨e | _ | rs, p'⟩ <;>
    obtain ⟨q', hr', hpq'⟩ := alike.resultSet.step_eq hpq hr <;> simp only [hr']
  · exact ⟨.error e, hpq'⟩
  · exact ⟨.ok rfl, hpq'⟩
  · exact ⟨sameAnswer_eq_iff.mpr rfl, hpq'⟩

/-- The walks over the results make the same probes and come to the same end. -/
theorem agrees_restOfResults (labels : Option (List String)) :
    ∀ failed, Agrees (Both C R) Eq (restOfResults (σ := σ) labels failed)
      (restOfResults (σ := τ) labels failed) := by
  intro failed p
  induction failed, p using restOfResults.induct (σ := σ) labels with
  | case1 p e p' h =>
      intro q hpq
      obtain ⟨q', h', hpq'⟩ := alike.moreResults.step_eq hpq h
      rw [restOfResults_of_error h, restOfResults_of_error h', if_pos rfl, if_pos rfl]
      exact ⟨.error e, hpq'⟩
  | case2 failed p e p' h hf ih =>
      intro q hpq
      obtain ⟨q', h', hpq'⟩ := alike.moreResults.step_eq hpq h
      rw [restOfResults_of_error h, restOfResults_of_error h', if_neg hf, if_neg hf]
      exact ih q' hpq'
  | case3 failed p p' h e u hu =>
      intro q hpq
      obtain ⟨q', h', hpq'⟩ := alike.moreResults.step_eq hpq h
      obtain ⟨v, hv, huv⟩ := (agrees_takeRecords alike labels).step_eq hpq' hu
      rw [restOfResults_of_rows h, restOfResults_of_rows h', hu, hv]
      exact ⟨.error e, huv⟩
  | case4 failed p p' h records u hu ih =>
      intro q hpq
      obtain ⟨q', h', hpq'⟩ := alike.moreResults.step_eq hpq h
      obtain ⟨v, hv, huv⟩ := (agrees_takeRecords alike labels).step_eq hpq' hu
      rw [restOfResults_of_rows h, restOfResults_of_rows h', hu, hv]
      exact sameAnswer_consRecords records (ih v huv)
  | case5 failed p p' h hc =>
      intro q hpq
      obtain ⟨q', h', hpq'⟩ := alike.moreResults.step_eq hpq h
      have hc' : Backend.updateCount q'.1 = -1 := (alike.updateCount hpq'.1).symm.trans hc
      rw [restOfResults_of_count h, restOfResults_of_count h', if_pos hc, if_pos hc']
      exact ⟨.ok rfl, hpq'⟩
  | case6 failed p p' h hc ih =>
      intro q hpq
      obtain ⟨q', h', hpq'⟩ := alike.moreResults.step_eq hpq h
      have hc' : ¬Backend.updateCount q'.1 = -1 := by rwa [← alike.updateCount hpq'.1]
      rw [restOfResults_of_count h, restOfResults_of_count h', if_neg hc, if_neg hc']
      exact ih q' hpq'

theorem agrees_resultsFrom (labels : Option (List String)) (hasRows : Bool) :
    Agrees (Both C R) Eq (resultsFrom (σ := σ) labels hasRows)
      (resultsFrom (σ := τ) labels hasRows) := by
  intro p q hpq
  have hrest := agrees_restOfResults alike labels false
  cases hasRows with
  | true =>
      simp only [resultsFrom, if_true]
      rcases hu : takeRecords labels p with ⟨e | records, u⟩ <;>
        obtain ⟨v, hv, huv⟩ := (agrees_takeRecords alike labels).step_eq hpq hu <;>
        simp only [hv]
      · exact ⟨.error e, huv⟩
      · exact sameAnswer_consRecords records (hrest u v huv)
  | false =>
      simp only [resultsFrom, Bool.false_eq_true, if_false, alike.updateCount hpq.1]
      split
      · exact ⟨.ok rfl, hpq⟩
      · exact hrest p q hpq

theorem agrees_executeRetrying :
    Agrees (Both C R) Eq (executeRetrying (σ := σ)) (executeRetrying (σ := τ)) := by
  intro p q hpq
  simp only [executeRetrying]
  rcases hx : Backend.executeCall p with ⟨e | hasRows, p'⟩ <;>
    obtain ⟨q', hx', hpq'⟩ := alike.executeCall.step_eq hpq hx <;> simp only [hx']
  · exact alike.executeCall p' q' hpq'
  · exact ⟨.ok rfl, hpq'⟩

theorem agrees_collectResults (labels : Option (List String)) :
    Agrees (Both C R) Eq (collectResults (σ := σ) labels) (collectResults (σ := τ) labels) := by
  refine (agrees_executeRetrying alike).bind ?_
  rintro hasRows _ rfl
  exact agrees_resultsFrom alike labels hasRows

theorem agrees_executeHeld (params : List Value) :
    Agrees (Both C R) Eq (executeHeld (σ := σ) params) (executeHeld (σ := τ) params) := by
  refine (agrees_bindFrom alike.bindCall params 1).bind fun _ _ _ => ?_
  refine alike.executeCall.bind fun _ _ _ => .view fun p q hpq => ?_
  rw [alike.updateCount hpq.1]

theorem agrees_queryHeld (allResults : Bool) (labels : Option (List String))
    (params : List Value) :
    Agrees (Both C R) Eq (queryHeld (σ := σ) allResults labels params)
      (queryHeld (σ := τ) allResults labels params) := by
  refine (agrees_bindFrom alike.bindCall params 1).bind fun _ _ _ => ?_
  cases allResults with
  | true => exact agrees_collectResults alike labels
  | false =>
      refine alike.queryCall.bind ?_
      rintro rs _ rfl
      exact .ofExcept _

end Session

end SqlSession
