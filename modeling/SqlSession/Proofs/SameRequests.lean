/-
Requests that are the same.

Two traces tell of the same requests if they were made with the same texts, positions and
values, and with calls that belong together; the numbers of statements and calls differ with
what was asked before.  Backends that answer alike keep doing so under a trace, and what is
written down of either side is then the same, request by request.
-/
import Mathlib.Data.List.Forall2
import SqlSession.Proofs.Agreement
import SqlSession.Proofs.Trace

namespace SqlSession

open SqlSession.Action Traced

section Requests

variable {α β : Type}

/-- The same request, of statements and calls that may have other numbers. -/
inductive SameRequest (C : α → β → Prop) : Request α → Request β → Prop
  | prepare {n m : Nat} (text : String) : SameRequest C (.prepare n text) (.prepare m text)
  | bind {n m : Nat} (position : Nat) (v : Value) :
      SameRequest C (.bind n position v) (.bind m position v)
  | executeUpdate {n m : Nat} : SameRequest C (.executeUpdate n) (.executeUpdate m)
  | executeQuery {n m : Nat} : SameRequest C (.executeQuery n) (.executeQuery m)
  | execute {n m : Nat} : SameRequest C (.execute n) (.execute m)
  | addBatch {n m : Nat} : SameRequest C (.addBatch n) (.addBatch m)
  | executeBatch {n m : Nat} : SameRequest C (.executeBatch n) (.executeBatch m)
  | closeStatement {n m : Nat} : SameRequest C (.closeStatement n) (.closeStatement m)
  | prepareCall {n m : Nat} (procedure : String) :
      SameRequest C (.prepareCall n procedure) (.prepareCall m procedure)
  | bindCall {n m : Nat} (position : Nat) (v : Value) :
      SameRequest C (.bindCall n position v) (.bindCall m position v)
  | register {n m : Nat} (position : Nat) (type : TypeCode) :
      SameRequest C (.register n position type) (.register m position type)
  | executeCall {n m : Nat} {x : α} {y : β} (calls : C x y) :
      SameRequest C (.executeCall n x) (.executeCall m y)
  | queryCall {n m : Nat} {x : α} {y : β} (calls : C x y) :
      SameRequest C (.queryCall n x) (.queryCall m y)
  | resultSet {n m : Nat} : SameRequest C (.resultSet n) (.resultSet m)
  | moreResults {n m : Nat} : SameRequest C (.moreResults n) (.moreResults m)
  | closeCall {n m : Nat} : SameRequest C (.closeCall n) (.closeCall m)
  | setAutoCommit (on : Bool) : SameRequest C (.setAutoCommit on) (.setAutoCommit on)
  | commit : SameRequest C .commit .commit
  | rollback : SameRequest C .rollback .rollback
  | isValid : SameRequest C .isValid .isValid
  | close : SameRequest C .close .close
  | catalog (request : CatalogRequest) : SameRequest C (.catalog request) (.catalog request)

/-- The same request with the same outcome. -/
structure SameEvent (C : α → β → Prop) (e : Event α) (e' : Event β) : Prop where
  request : SameRequest C e.request e'.request
  done : e.done = e'.done

theorem SameRequest.mono {C D : α → β → Prop} (hCD : ∀ x y, C x y → D x y) {r : Request α}
    {r' : Request β} (h : SameRequest C r r') : SameRequest D r r' := by
  cases h <;> constructor
  all_goals exact hCD _ _ ‹_›

theorem SameEvent.mono {C D : α → β → Prop} (hCD : ∀ x y, C x y → D x y) {e : Event α}
    {e' : Event β} (h : SameEvent C e e') : SameEvent D e e' :=
  ⟨h.request.mono hCD, h.done⟩

/-- The relation between logs goes on to hold as long as both sides are asked the same. -/
def Continues (C : α → β → Prop) (L : List (Event α) → List (Event β) → Prop) : Prop :=
  ∀ ⦃l l' e e'⦄, L l l' → SameEvent C e e' → L (l ++ [e]) (l' ++ [e'])

/-- Since two logs, the same was asked of both sides. -/
def SameSince (C : α → β → Prop) (before : List (Event α)) (before' : List (Event β))
    (l : List (Event α)) (l' : List (Event β)) : Prop :=
  ∃ ev ev', l = before ++ ev ∧ l' = before' ++ ev' ∧ List.Forall₂ (SameEvent C) ev ev'

theorem continues_sameSince (C : α → β → Prop) (before : List (Event α))
    (before' : List (Event β)) : Continues C (SameSince C before before') := by
  rintro l l' e e' ⟨ev, ev', rfl, rfl, hev⟩ he
  refine ⟨ev ++ [e], ev' ++ [e'], List.append_assoc .., List.append_assoc .., ?_⟩
  exact List.rel_append hev (.cons he .nil)

theorem sameSince_refl (C : α → β → Prop) (before : List (Event α)) (before' : List (Event β)) :
    SameSince C before before' before before' :=
  ⟨[], [], (List.append_nil _).symm, (List.append_nil _).symm, .nil⟩

end Requests

/-! ### Traces of backends that answer alike -/

variable {σ τ α β γ δ : Type} [Backend σ] [Backend τ] {R : σ → τ → Prop}
  {S : Backend.Statement σ → Backend.Statement τ → Prop}
  {C : Backend.Callable σ → Backend.Callable τ → Prop}
  {L : List (Event (Backend.Callable σ)) → List (Event (Backend.Callable τ)) → Prop}

/-- Related connections, with related logs. -/
def OnTraces (R : σ → τ → Prop)
    (L : List (Event (Backend.Callable σ)) → List (Event (Backend.Callable τ)) → Prop)
    (s : Traced σ) (t : Traced τ) : Prop :=
  R s.inner t.inner ∧ L s.log t.log

/-- Statements or calls that belong together, whatever their numbers. -/
def SameHeld (V : α → β → Prop) (h : Handle α) (h' : Handle β) : Prop :=
  V h.held h'.held

theorem isOk_of_sameAnswer {V : α → β → Prop} {r : Except DbError α} {r' : Except DbError β}
    (h : SameAnswer V r r') : r.isOk = r'.isOk := by
  cases h <;> rfl

section Lift

variable (hL : Continues C L) {V : α → β → Prop} {W : γ → δ → Prop}
include hL

theorem agrees_ask {request : Request (Backend.Callable σ)} {request' : Request (Backend.Callable τ)}
    (hrequest : SameRequest C request request') {a : Action σ α} {b : Action τ β}
    (h : Agrees R V a b) : Agrees (OnTraces R L) V (ask request a) (ask request' b) := by
  rintro s t ⟨hR, hlog⟩
  obtain ⟨hanswer, hR'⟩ := h s.inner t.inner hR
  exact ⟨hanswer, hR', hL hlog ⟨hrequest, isOk_of_sameAnswer hanswer⟩⟩

theorem agrees_use {request : Nat → α → Request (Backend.Callable σ)}
    {request' : Nat → β → Request (Backend.Callable τ)}
    (hrequest : ∀ {n m x y}, V x y → SameRequest C (request n x) (request' m y))
    {a : Action (α × σ) γ} {b : Action (β × τ) δ} (h : Agrees (Both V R) W a b) :
    Agrees (Both (SameHeld V) (OnTraces R L)) W (use request a) (use request' b) := by
  rintro ⟨x, s⟩ ⟨y, t⟩ ⟨hV, hR, hlog⟩
  obtain ⟨hanswer, hV', hR'⟩ := h (x.held, s.inner) (y.held, t.inner) ⟨hV, hR⟩
  exact ⟨hanswer, hV', hR', hL hlog ⟨hrequest hV, isOk_of_sameAnswer hanswer⟩⟩

theorem agrees_prepare {request : Nat → Request (Backend.Callable σ)}
    {request' : Nat → Request (Backend.Callable τ)}
    (hrequest : ∀ n m, SameRequest C (request n) (request' m)) {a : Action σ α}
    {b : Action τ β} (h : Agrees R V a b) :
    Agrees (OnTraces R L) (SameHeld V) (prepare request a) (prepare request' b) := by
  intro s t hst
  obtain ⟨hanswer, hasked⟩ :=
    agrees_ask hL (hrequest s.log.length t.log.length) h s t hst
  exact ⟨hanswer.map fun _ _ hxy => hxy, hasked⟩

/-- Backends that answer alike do so under a trace as well. -/
theorem answersAlike_traced (alike : AnswersAlike R S C) :
    AnswersAlike (OnTraces R L) (SameHeld S) (SameHeld C) where
  prepare text := agrees_prepare hL (fun _ _ => .prepare text) (alike.prepare text)
  prepareCall procedure :=
    agrees_prepare hL (fun _ _ => .prepareCall procedure) (alike.prepareCall procedure)
  callText := alike.callText
  setAutoCommit on := agrees_ask hL (.setAutoCommit on) (alike.setAutoCommit on)
  commit := agrees_ask hL .commit alike.commit
  rollback := agrees_ask hL .rollback alike.rollback
  isValid := agrees_ask hL .isValid alike.isValid
  close := agrees_ask hL .close alike.close
  catalog request := agrees_ask hL (.catalog request) (alike.catalog request)
  bind position v := agrees_use hL (fun _ => .bind position v) (alike.bind position v)
  executeUpdate := agrees_use hL (fun _ => .executeUpdate) alike.executeUpdate
  executeQuery := agrees_use hL (fun _ => .executeQuery) alike.executeQuery
  execute := agrees_use hL (fun _ => .execute) alike.execute
  addBatch := agrees_use hL (fun _ => .addBatch) alike.addBatch
  executeBatch := agrees_use hL (fun _ => .executeBatch) alike.executeBatch
  closeStatement statements connections :=
    ⟨alike.closeStatement statements connections.1,
      hL connections.2 ⟨.closeStatement, rfl⟩⟩
  bindCall position v := agrees_use hL (fun _ => .bindCall position v) (alike.bindCall position v)
  register position type :=
    agrees_use hL (fun _ => .register position type) (alike.register position type)
  executeCall := agrees_use hL .executeCall alike.executeCall
  queryCall := agrees_use hL .queryCall alike.queryCall
  resultSet := agrees_use hL (fun _ => .resultSet) alike.resultSet
  moreResults := agrees_use hL (fun _ => .moreResults) alike.moreResults
  updateCount := alike.updateCount
  closeCall calls connections :=
    ⟨alike.closeCall calls connections.1, hL connections.2 ⟨.closeCall, rfl⟩⟩

end Lift

end SqlSession
