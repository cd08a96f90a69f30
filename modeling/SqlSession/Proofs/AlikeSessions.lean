/-
Sessions that are alike.

What a session has been through stays with it: texts of other kinds of statements, aliases and
limits that were set for none of them, a call that is still held.  Two sessions over backends
that answer alike are alike if they have the draft of the active operation in common, the
parameters, and what `Met` says; everything else may differ.  That is enough for an execution,
which is shown here: whatever is asked of two such sessions, the executions among it ask the
same of their backends and answer the same.

A session may hold a call that its past has left behind, and the other one none, or another
one.  No execution looks at it, since a procedure call that is active was begun in both.
-/
import SqlSession.Proofs.Agreement
import SqlSession.Proofs.Terminal

namespace SqlSession

open SqlSession.Action

/-- The draft of an operation. -/
inductive ActiveDraft where
  | none
  | select (draft : Draft Sql.SelectParts)
  | insert (draft : Draft Sql.InsertParts)
  | update (draft : Draft Sql.UpdateParts)
  | delete (draft : Draft Sql.DeleteParts)
  | create (text : Option String)
  | call (fields : List String) (aliases : Option (List String))

/-- What two sessions hold: the calls that the past has left to them, or none, or calls that
belong together. -/
inductive Holding {α β : Type} (C : α → β → Prop) (left : Option α) (right : Option β) :
    Option α → Option β → Prop
  | leftOver : Holding C left right left right
  | nothing : Holding C left right none none
  | calls {x : α} {y : β} (calls : C x y) : Holding C left right (some x) (some y)

namespace Session

variable {σ τ α β : Type} [Backend σ] [Backend τ]

/-- The draft that is active with an operation. -/
def activeDraft (operation : Operation) (s : Session σ) : ActiveDraft :=
  match operation with
  | .none => .none
  | .select => .select s.selecting
  | .insert => .insert s.inserting
  | .update => .update s.updating
  | .delete => .delete s.deleting
  | .create => .create s.creating
  | .procedure => .call s.calling.fields s.calling.aliases

/-- What no setter changes, but the schema. -/
def seat (s : Session σ) : Bool × Product × String × σ × Option (Backend.Callable σ) :=
  (s.isOpen, s.product, s.schema, s.backend, s.calling.handle)

section Relations

variable (R : σ → τ → Prop) (C : Backend.Callable σ → Backend.Callable τ → Prop)
  (left : Option (Backend.Callable σ)) (right : Option (Backend.Callable τ))

/-- Two sessions of the same product with the same schema, over connections that answer
alike. -/
structure Met (s : Session σ) (t : Session τ) : Prop where
  isOpen : s.isOpen = t.isOpen
  product : s.product = t.product
  schema : s.schema = t.schema
  backend : R s.backend t.backend
  holding : Holding C left right s.calling.handle t.calling.handle

/-- Two such sessions with the same statement in the making. -/
structure Alike (operation : Operation) (s : Session σ) (t : Session τ) : Prop extends
    Met R C left right s t where
  here : s.operation = operation
  there : t.operation = operation
  params : s.params = t.params
  draft : s.activeDraft operation = t.activeDraft operation
  /-- A procedure call that is active was begun since. -/
  called : operation = .procedure →
    ∃ x y, s.calling.handle = some x ∧ t.calling.handle = some y ∧ C x y

end Relations

variable {R : σ → τ → Prop} {S : Backend.Statement σ → Backend.Statement τ → Prop}
  {C : Backend.Callable σ → Backend.Callable τ → Prop} {left : Option (Backend.Callable σ)}
  {right : Option (Backend.Callable τ)} {operation : Operation} {s s' : Session σ}
  {t t' : Session τ} {V : α → β → Prop}

theorem Met.of_seat (h : Met R C left right s t) (hs : s'.seat = s.seat) (ht : t'.seat = t.seat) :
    Met R C left right s' t' := by
  simp only [seat, Prod.mk.injEq] at hs ht
  obtain ⟨hs₁, hs₂, hs₃, hs₄, hs₅⟩ := hs
  obtain ⟨ht₁, ht₂, ht₃, ht₄, ht₅⟩ := ht
  exact
    { isOpen := by rw [hs₁, ht₁, h.isOpen]
      product := by rw [hs₂, ht₂, h.product]
      schema := by rw [hs₃, ht₃, h.schema]
      backend := by rw [hs₄, ht₄]; exact h.backend
      holding := by rw [hs₅, ht₅]; exact h.holding }

theorem handle_of_seat (h : s'.seat = s.seat) : s'.calling.handle = s.calling.handle := by
  simp only [seat, Prod.mk.injEq] at h
  exact h.2.2.2.2

/-- Sessions stay alike where the active draft and the parameters change in the same way. -/
theorem Alike.redraft (h : Alike R C left right operation s t) (hs : s'.seat = s.seat)
    (ht : t'.seat = t.seat) (here : s'.operation = s.operation)
    (there : t'.operation = t.operation) (params : s'.params = t'.params)
    (draft : s'.activeDraft operation = t'.activeDraft operation) :
    Alike R C left right operation s' t' where
  toMet := h.toMet.of_seat hs ht
  here := here.trans h.here
  there := there.trans h.there
  params := params
  draft := draft
  called hop := by
    rw [handle_of_seat hs, handle_of_seat ht]
    exact h.called hop

/-! ### Texts -/

theorem draftText_of_alike (h : Alike R C left right operation s t) :
    s.draftText operation = t.draftText operation := by
  have hdialect : s.dialect = t.dialect := congrArg Product.dialect h.product
  have hdraft := h.draft
  cases operation <;> simp only [activeDraft, ActiveDraft.select.injEq, ActiveDraft.insert.injEq,
    ActiveDraft.update.injEq, ActiveDraft.delete.injEq, ActiveDraft.create.injEq] at hdraft <;>
    simp only [draftText, hdialect, h.schema, hdraft]

theorem seat_settle (o : Operation) (text : String) (s : Session σ) :
    (s.settle o text).seat = s.seat := by
  cases o <;> rfl

theorem operation_settle (o : Operation) (text : String) (s : Session σ) :
    (s.settle o text).operation = s.operation := by
  cases o <;> rfl

theorem activeDraft_settle_of_ne {o : Operation} (hne : o ≠ operation) (text : String)
    (s : Session σ) : (s.settle o text).activeDraft operation = s.activeDraft operation := by
  cases operation <;> cases o <;> first | rfl | exact absurd rfl hne

theorem activeDraft_settle (text : String)
    (h : s.activeDraft operation = t.activeDraft operation) :
    (s.settle operation text).activeDraft operation =
      (t.settle operation text).activeDraft operation := by
  cases operation <;> simp_all [activeDraft, settle]

/-- Putting the active text together gives the same text. -/
theorem agrees_compile :
    Agrees (Alike R C left right operation) Eq (compile (σ := σ) operation)
      (compile (σ := τ) operation) := by
  intro s t h
  have htext := draftText_of_alike h
  cases hs : s.draftText operation with
  | error e =>
      rw [compile_of_error hs, compile_of_error (htext ▸ hs)]
      exact ⟨.error e, h⟩
  | ok text =>
      rw [compile_of_text hs, compile_of_text (htext ▸ hs)]
      refine ⟨.ok rfl, h.redraft (seat_settle ..) (seat_settle ..) (operation_settle ..)
        (operation_settle ..) ?_ (activeDraft_settle text h.draft)⟩
      rw [settle_params, settle_params, h.params]

/-- The session moves on in nothing that the active statement looks at. -/
structure Unmoved (operation : Operation) (s s' : Session σ) : Prop where
  seat : s'.seat = s.seat
  active : s'.operation = s.operation
  params : s'.params = s.params
  draft : s'.activeDraft operation = s.activeDraft operation

theorem Alike.unmoved (h : Alike R C left right operation s t) (hs : Unmoved operation s s')
    (ht : Unmoved operation t t') : Alike R C left right operation s' t' :=
  h.redraft hs.seat ht.seat hs.active ht.active (by rw [hs.params, ht.params, h.params])
    (by rw [hs.draft, ht.draft, h.draft])

theorem unmoved_compile {o : Operation} (ho : o ≠ operation) (s : Session σ) :
    Unmoved operation s (compile o s).2 := by
  cases h : s.draftText o with
  | error e =>
      rw [compile_of_error h]
      exact ⟨rfl, rfl, rfl, rfl⟩
  | ok text =>
      rw [compile_of_text h]
      exact ⟨seat_settle .., operation_settle .., settle_params .., activeDraft_settle_of_ne ho ..⟩

/-- Putting any other text together may go differently, and makes no difference. -/
theorem alike_compile (o : Operation) (h : Alike R C left right operation s t) :
    Alike R C left right operation (compile o s).2 (compile o t).2 := by
  by_cases ho : o = operation
  · exact ho ▸ (agrees_compile s t (ho ▸ h)).2
  · exact h.unmoved (unmoved_compile ho s) (unmoved_compile ho t)

/-! ### Requests -/

theorem agrees_onConnection {a : Action σ α} {b : Action τ β} (h : Agrees R V a b) :
    Agrees (Alike R C left right operation) V (onConnection a) (onConnection b) := by
  intro s t hst
  cases hopen : s.isOpen with
  | false =>
      rw [onConnection_of_closed a hopen, onConnection_of_closed b (hst.isOpen ▸ hopen)]
      exact ⟨.error _, hst⟩
  | true =>
      rw [onConnection_of_open a hopen, onConnection_of_open b (hst.isOpen ▸ hopen)]
      obtain ⟨hanswer, hbackend⟩ := h s.backend t.backend hst.backend
      refine ⟨hanswer, ?_⟩
      exact
        { hst with
          backend := hbackend
          draft := by
            have hdraft := hst.draft
            cases operation <;> exact hdraft }

theorem agrees_ifOpen (closed : α) {a : Action σ α} {b : Action τ α} (h : Agrees R Eq a b) :
    Agrees (Alike R C left right operation) Eq (ifOpen closed a) (ifOpen closed b) := by
  intro s t hst
  cases hopen : s.isOpen with
  | false =>
      rw [ifOpen_of_closed closed a hopen, ifOpen_of_closed closed b (hst.isOpen ▸ hopen)]
      exact ⟨.ok rfl, hst⟩
  | true =>
      rw [ifOpen_of_open closed a hopen, ifOpen_of_open closed b (hst.isOpen ▸ hopen)]
      exact agrees_onConnection h s t hst

theorem agrees_onCall (action : String) {a : Action (Backend.Callable σ × σ) α}
    {b : Action (Backend.Callable τ × τ) β} (h : Agrees (Both C R) V a b) :
    Agrees (Alike R C left right .procedure) V (onCall action a) (onCall action b) := by
  intro s t hst
  obtain ⟨x, y, hx, hy, hxy⟩ := hst.called rfl
  obtain ⟨hanswer, hcalls, hbackend⟩ := h (x, s.backend) (y, t.backend) ⟨hxy, hst.backend⟩
  rw [onCall_of_held a hx, onCall_of_held b hy]
  refine ⟨hanswer, ?_⟩
  exact
    { hst with
      backend := hbackend
      holding := .calls hcalls
      called := fun _ => ⟨_, _, rfl, rfl, hcalls⟩ }

theorem agrees_clearingParams {a : Action (Session σ) α} {b : Action (Session τ) β}
    (h : Agrees (Alike R C left right operation) V a b) :
    Agrees (Alike R C left right operation) V (clearingParams a) (clearingParams b) := by
  refine h.andThen fun s t hst => hst.redraft rfl rfl rfl rfl rfl ?_
  have hdraft := hst.draft
  cases operation <;> exact hdraft

/-! ### Executions -/

theorem agrees_params :
    Agrees (Alike R C left right operation) Eq (view (Session.params (σ := σ)))
      (view (Session.params (σ := τ))) :=
  .view fun _ _ h => h.params

theorem selectLabels_of_alike (h : Alike R C left right .select s t) :
    s.selectLabels = t.selectLabels := by
  have hdialect : s.dialect = t.dialect := congrArg Product.dialect h.product
  have hdraft := ActiveDraft.select.inj h.draft
  simp only [selectLabels, hdialect, hdraft]

theorem callLabels_of_alike (h : Alike R C left right .procedure s t) :
    s.callLabels = t.callLabels := by
  have hdialect : s.dialect = t.dialect := congrArg Product.dialect h.product
  obtain ⟨hfields, haliases⟩ := ActiveDraft.call.inj h.draft
  simp only [callLabels, hdialect, hfields, haliases]

theorem agrees_attempt (answer : α → Answer) {a : Action (Session σ) α} {b : Action (Session τ) α}
    (h : Agrees (Alike R C left right operation) Eq a b) :
    Agrees (Alike R C left right operation) Eq (attempt answer a) (attempt answer b) := by
  intro s t hst
  obtain ⟨hanswer, hrest⟩ := h s t hst
  refine ⟨hanswer.map ?_, hrest⟩
  rintro x _ rfl
  rfl

section Executions

variable (alike : AnswersAlike R S C)
include alike

theorem agrees_executeChange (operation : Operation) :
    Agrees (Alike R C left right operation) Eq (executeChange (σ := σ) operation)
      (executeChange (σ := τ) operation) := by
  refine agrees_compile.bind ?_
  rintro text _ rfl
  refine agrees_params.bind ?_
  rintro params _ rfl
  exact agrees_onConnection (agrees_runStatement alike text params alike.executeUpdate)

theorem agrees_executeCreate :
    Agrees (Alike R C left right .create) Eq (executeCreate (σ := σ))
      (executeCreate (σ := τ)) := by
  refine agrees_compile.bind ?_
  rintro text _ rfl
  exact (agrees_onConnection (agrees_runStatement alike text [] alike.execute)).bind
    fun _ _ _ => .pure rfl

theorem agrees_executeCall :
    Agrees (Alike R C left right .procedure) Eq (executeCall (σ := σ))
      (executeCall (σ := τ)) := by
  refine agrees_params.bind ?_
  rintro params _ rfl
  exact agrees_onCall "execute" (agrees_executeHeld alike params)

theorem agrees_execute :
    Agrees (Alike R C left right operation) Eq (execute (σ := σ)) (execute (σ := τ)) := by
  refine agrees_clearingParams fun s t h => ?_
  simp only [h.here, h.there]
  cases operation with
  | insert => exact agrees_executeChange alike .insert s t h
  | update => exact agrees_executeChange alike .update s t h
  | delete => exact agrees_executeChange alike .delete s t h
  | create => exact agrees_executeCreate alike s t h
  | procedure => exact agrees_executeCall alike s t h
  | none => exact ⟨.error _, h⟩
  | select => exact ⟨.error _, h⟩

theorem agrees_insertBatch (records : List Record) :
    Agrees (Alike R C left right .insert) Eq (insertBatch (σ := σ) records)
      (insertBatch (σ := τ) records) := by
  refine agrees_compile.bind ?_
  rintro text _ rfl
  refine Agrees.bind (V := Eq) (.view fun s t h => ?_) ?_
  · have hdraft := ActiveDraft.insert.inj h.draft
    rw [hdraft]
  · rintro fields _ rfl
    exact agrees_onConnection (agrees_runStatement alike text [] (agrees_useBatch alike fields records))

theorem agrees_executeBatch (records : List Record) :
    Agrees (Alike R C left right operation) Eq (executeBatch (σ := σ) records)
      (executeBatch (σ := τ) records) := by
  refine agrees_clearingParams fun s t h => ?_
  simp only [h.here, h.there]
  cases operation with
  | insert => exact agrees_insertBatch alike records s t h
  | _ => exact ⟨.error _, h⟩

theorem agrees_runSelect :
    Agrees (Alike R C left right .select) Eq (runSelect (σ := σ)) (runSelect (σ := τ)) := by
  refine agrees_compile.bind ?_
  rintro text _ rfl
  refine Agrees.bind (V := Eq) (fun s t h => ⟨?_, h⟩) ?_
  · exact sameAnswer_eq_iff.mpr (selectLabels_of_alike h)
  rintro labels _ rfl
  refine agrees_params.bind ?_
  rintro params _ rfl
  refine (agrees_onConnection (agrees_runStatement alike text params alike.executeQuery)).bind ?_
  rintro rs _ rfl
  exact .pure rfl

theorem agrees_select? (action : String)
    (read : Except DbError (ResultSet × Option (List String)) → Except DbError α) :
    Agrees (Alike R C left right operation) Eq (select? (σ := σ) action read)
      (select? (σ := τ) action read) := by
  intro s t h
  simp only [select?, h.here, h.there]
  cases operation with
  | select =>
      obtain ⟨hanswer, hrest⟩ := agrees_clearingParams (agrees_runSelect alike) s t h
      exact ⟨sameAnswer_eq_iff.mpr (congrArg read (sameAnswer_eq_iff.mp hanswer)), hrest⟩
  | _ => exact ⟨.error _, h⟩

theorem agrees_runCall (allResults : Bool) :
    Agrees (Alike R C left right .procedure) Eq (runCall (σ := σ) allResults)
      (runCall (σ := τ) allResults) := by
  refine Agrees.bind (V := Eq) (fun s t h => ⟨?_, h⟩) ?_
  · exact sameAnswer_eq_iff.mpr (callLabels_of_alike h)
  rintro labels _ rfl
  refine agrees_params.bind ?_
  rintro params _ rfl
  exact agrees_onCall "query_procedure" (agrees_queryHeld alike allResults labels params)

theorem agrees_queryProcedure (allResults : Bool) :
    Agrees (Alike R C left right operation) Eq (queryProcedure (σ := σ) allResults)
      (queryProcedure (σ := τ) allResults) := by
  intro s t h
  simp only [queryProcedure, h.here, h.there]
  cases operation with
  | procedure => exact agrees_clearingParams (agrees_runCall alike allResults) s t h
  | _ => exact ⟨.error _, h⟩

theorem agrees_query :
    Agrees (Alike R C left right operation) Eq (query (σ := σ)) (query (σ := τ)) := by
  intro s t h
  simp only [query, h.here, h.there]
  cases operation with
  | procedure => exact agrees_queryProcedure alike false s t h
  | _ => exact agrees_select? alike _ _ s t h

/-- Executions answer the same and leave sessions that are alike. -/
theorem agrees_terminal (x : Terminal) :
    Agrees (Alike R C left right operation) Eq (perform (σ := σ) x.method)
      (perform (σ := τ) x.method) := by
  cases x with
  | execute => exact agrees_attempt _ (agrees_execute alike)
  | executeBatch records => exact agrees_attempt _ (agrees_executeBatch alike records)
  | query => exact agrees_attempt _ (agrees_query alike)
  | queryUnique => exact agrees_attempt _ (agrees_select? alike _ _)
  | queryCount => exact agrees_attempt _ (agrees_select? alike _ _)
  | queryProcedure allResults => exact agrees_attempt _ (agrees_queryProcedure alike allResults)

end Executions

end Session

end SqlSession
