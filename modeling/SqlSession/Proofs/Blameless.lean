/-
Requests that do not blame the configuration.

A configuration error is about how a statement was put together.  A backend gets a statement
as text and knows nothing of that, so none of its requests should fail with such an error;
`Backend.Blameless` says that none does.  What a session makes of the requests then does not
either: a statement that is prepared, bound, used and closed, the filling of a batch and the
walk over the results of a call.  Reading an answer has errors of its own, but they are about
cells.

The one use of a statement that is left out is that of a batch without fields.
-/
import SqlSession.Proofs.BatchLog
import SqlSession.Proofs.Collecting
import SqlSession.Proofs.FirstRow

namespace SqlSession

/-! ### Actions that do not blame the configuration -/

namespace Action

variable {σ α β : Type} {P : σ → Prop}

/-- The outcome is a configuration error. -/
def blames : Except DbError α → Bool
  | .ok _ => false
  | .error e => e.isConfiguration

/-- From a state with `P` the action leads to one with `P`, and it does not fail with a
configuration error. -/
def Blameless (P : σ → Prop) (a : Action σ α) : Prop :=
  ∀ s, P s → P (a s).2 ∧ blames (a s).1 = false

@[simp] theorem blames_map (f : α → β) (r : Except DbError α) : blames (r.map f) = blames r := by
  cases r <;> rfl

namespace Blameless

theorem of_eq {a : Action σ α} (ha : Blameless P a) {s s' : σ} {r : Except DbError α} (hs : P s)
    (h : a s = (r, s')) : P s' ∧ blames r = false := by
  have hdone := ha s hs
  rw [h] at hdone
  exact hdone

theorem pure (x : α) : Blameless P (pure x) :=
  fun _ hs => ⟨hs, rfl⟩

theorem ofExcept {r : Except DbError α} (h : blames r = false) : Blameless P (ofExcept r) :=
  fun _ hs => ⟨hs, h⟩

theorem bind {a : Action σ α} {f : α → Action σ β} (ha : Blameless P a)
    (hf : ∀ x, Blameless P (f x)) : Blameless P (a >>= f) := by
  intro s hs
  obtain ⟨hmid, hblame⟩ := ha s hs
  rcases bind_cases a f s with ⟨x, -, h⟩ | ⟨e, he, h⟩ <;> rw [h]
  · exact hf x _ hmid
  · rw [he] at hblame
    exact ⟨hmid, hblame⟩

end Blameless

end Action

open SqlSession.Action

section Requests

variable {σ : Type} [Backend σ] {α : Type} {P : σ → Prop}

/-- None of the requests that a terminal method makes fails with a configuration error, as
long as the connection has the property. -/
structure Backend.Blameless (P : σ → Prop) : Prop where
  prepare : ∀ text, Action.Blameless P (Backend.prepare text)
  bind : ∀ position v, Action.Blameless (fun s => P s.2) (Backend.bind (σ := σ) position v)
  executeUpdate : Action.Blameless (fun s => P s.2) (Backend.executeUpdate (σ := σ))
  executeQuery : Action.Blameless (fun s => P s.2) (Backend.executeQuery (σ := σ))
  execute : Action.Blameless (fun s => P s.2) (Backend.execute (σ := σ))
  addBatch : Action.Blameless (fun s => P s.2) (Backend.addBatch (σ := σ))
  executeBatch : Action.Blameless (fun s => P s.2) (Backend.executeBatch (σ := σ))
  closeStatement : ∀ statement b, P b → P (Backend.closeStatement statement b)
  bindCall : ∀ position v,
    Action.Blameless (fun s => P s.2) (Backend.bindCall (σ := σ) position v)
  executeCall : Action.Blameless (fun s => P s.2) (Backend.executeCall (σ := σ))
  queryCall : Action.Blameless (fun s => P s.2) (Backend.queryCall (σ := σ))
  resultSet : Action.Blameless (fun s => P s.2) (Backend.resultSet (σ := σ))
  moreResults : Action.Blameless (fun s => P s.2) (Backend.moreResults (σ := σ))

theorem blameless_bindFrom {τ : Type} {P : τ → Prop} {b : Nat → Value → Action τ Unit}
    (h : ∀ position v, Blameless P (b position v)) (vs : List Value) :
    ∀ position, Blameless P (bindFrom b position vs) := by
  induction vs with
  | nil => exact fun _ => .pure ()
  | cons v vs ih => exact fun position => (h position v).bind fun _ => ih (position + 1)

/-! ### Reading an answer -/

theorem blames_records (rs : ResultSet) (labels : Option (List String)) :
    blames (rs.records labels) = false := by
  cases h : rs.records labels with
  | ok records => rfl
  | error e =>
      obtain ⟨label, rfl⟩ := (ResultSet.firstFailure_recordsOfRows h).eq_decode
      rfl

theorem blames_firstRecord (rs : ResultSet) (labels : Option (List String)) :
    blames (rs.firstRecord labels) = false := by
  cases h : rs.firstRecord labels with
  | ok record => rfl
  | error e =>
      obtain ⟨label, rfl⟩ := ResultSet.eq_decode_of_firstRecord h
      rfl

theorem blames_count (rs : ResultSet) : blames rs.count = false := by
  unfold ResultSet.count
  split
  · rfl
  · rfl
  · split
    · rfl
    · split <;> rfl

theorem blames_consRecords {τ : Type} (records : List Record)
    (out : Except DbError (List Record) × τ) :
    blames (Session.consRecords records out).1 = blames out.1 := by
  rcases out with ⟨_ | _, _⟩ <;> rfl

/-! ### Statements and calls -/

namespace Backend.Blameless

/-- Writing the requests down changes nothing about how they fail. -/
theorem traced (h : Backend.Blameless P) :
    Backend.Blameless (fun t : Traced σ => P t.inner) where
  prepare text t ht := by
    obtain ⟨hinner, hblame⟩ := h.prepare text t.inner ht
    exact ⟨hinner, (blames_map (Handle.mk t.log.length) _).trans hblame⟩
  bind position v s hs := h.bind position v (s.1.held, s.2.inner) hs
  executeUpdate s hs := h.executeUpdate (s.1.held, s.2.inner) hs
  executeQuery s hs := h.executeQuery (s.1.held, s.2.inner) hs
  execute s hs := h.execute (s.1.held, s.2.inner) hs
  addBatch s hs := h.addBatch (s.1.held, s.2.inner) hs
  executeBatch s hs := h.executeBatch (s.1.held, s.2.inner) hs
  closeStatement statement t ht := h.closeStatement statement.held t.inner ht
  bindCall position v s hs := h.bindCall position v (s.1.held, s.2.inner) hs
  executeCall s hs := h.executeCall (s.1.held, s.2.inner) hs
  queryCall s hs := h.queryCall (s.1.held, s.2.inner) hs
  resultSet s hs := h.resultSet (s.1.held, s.2.inner) hs
  moreResults s hs := h.moreResults (s.1.held, s.2.inner) hs

variable (h : Backend.Blameless P)

include h

theorem runStatement (text : String) (params : List Value)
    {use : Action (Backend.Statement σ × σ) α} (huse : Action.Blameless (fun s => P s.2) use) :
    Action.Blameless P (Session.runStatement text params use) := by
  intro b hb
  simp only [Session.runStatement, Session.opened]
  rcases hprepare : Backend.prepare text b with ⟨e | statement, b₁⟩
  · exact (h.prepare text).of_eq hb hprepare
  · obtain ⟨hb₁, -⟩ := (h.prepare text).of_eq hb hprepare
    have hbinds := blameless_bindFrom h.bind params 1
    simp only
    rcases hbind : bindAll Backend.bind params (statement, b₁) with ⟨e | _, st, b₂⟩
    · exact hbinds.of_eq hb₁ hbind
    · obtain ⟨hused, hblame⟩ := huse (st, b₂) (hbinds.of_eq hb₁ hbind).1
      exact ⟨h.closeStatement _ _ hused, hblame⟩

/-- A record that cannot be bound is reported as such, whatever the reason. -/
theorem bindFields (record : Record) (fields : List String) : ∀ position,
    Action.Blameless (fun s => P s.2) (Session.bindFields (σ := σ) record position fields) := by
  induction fields with
  | nil => exact fun _ => .pure ()
  | cons field fields ih =>
      intro position
      cases hv : record.value? field with
      | none =>
          intro s hs
          simp only [Session.bindFields, hv]
          exact ⟨hs, rfl⟩
      | some v =>
          rw [Session.bindFields_cons hv]
          refine Action.Blameless.bind (fun s hs => ?_) fun _ => ih (position + 1)
          refine ⟨(h.bind position (Value.ofJson v) s hs).1, ?_⟩
          simp only [Session.bindField]
          cases (Backend.bind position (Value.ofJson v) s).1 <;> rfl

theorem fillBatch (fields : List String) (records : List Record) :
    Action.Blameless (fun s => P s.2) (Session.fillBatch (σ := σ) fields records) := by
  induction records with
  | nil => exact .pure ()
  | cons record records ih =>
      exact (h.bindFields record fields 1).bind fun _ => h.addBatch.bind fun _ => ih

theorem useBatch {fields : List String} (hfields : fields ≠ []) (records : List Record) :
    Action.Blameless (fun s => P s.2) (Session.useBatch (σ := σ) fields records) := by
  unfold Session.useBatch
  rw [if_neg (by simpa using hfields)]
  exact (h.fillBatch fields records).bind fun _ => h.executeBatch

theorem takeRecords (labels : Option (List String)) :
    Action.Blameless (fun s => P s.2) (Session.takeRecords (σ := σ) labels) := by
  intro s hs
  unfold Session.takeRecords
  rcases hr : Backend.resultSet s with ⟨e | _ | rs, t⟩
  · exact h.resultSet.of_eq hs hr
  · exact ⟨(h.resultSet.of_eq hs hr).1, rfl⟩
  · exact ⟨(h.resultSet.of_eq hs hr).1, blames_records rs labels⟩

theorem restOfResults (labels : Option (List String)) : ∀ failed,
    Action.Blameless (fun s => P s.2) (Session.restOfResults (σ := σ) labels failed) := by
  intro failed s hs
  induction failed, s using Session.restOfResults.induct labels with
  | case1 s e s' hprobe =>
      rw [Session.restOfResults_of_error hprobe, if_pos rfl]
      exact h.moreResults.of_eq hs hprobe
  | case2 failed s e s' hprobe hf ih =>
      rw [Session.restOfResults_of_error hprobe, if_neg hf]
      exact ih (h.moreResults.of_eq hs hprobe).1
  | case3 failed s s' hprobe e t ht =>
      rw [Session.restOfResults_of_rows hprobe, ht]
      exact (h.takeRecords labels).of_eq (h.moreResults.of_eq hs hprobe).1 ht
  | case4 failed s s' hprobe records t ht ih =>
      rw [Session.restOfResults_of_rows hprobe, ht]
      simp only [Session.consRecords_snd, blames_consRecords]
      exact ih ((h.takeRecords labels).of_eq (h.moreResults.of_eq hs hprobe).1 ht).1
  | case5 failed s s' hprobe hc =>
      rw [Session.restOfResults_of_count hprobe, if_pos hc]
      exact ⟨(h.moreResults.of_eq hs hprobe).1, rfl⟩
  | case6 failed s s' hprobe hc ih =>
      rw [Session.restOfResults_of_count hprobe, if_neg hc]
      exact ih (h.moreResults.of_eq hs hprobe).1

theorem resultsFrom (labels : Option (List String)) (hasRows : Bool) :
    Action.Blameless (fun s => P s.2) (Session.resultsFrom (σ := σ) labels hasRows) := by
  intro s hs
  cases hasRows with
  | true =>
      simp only [Session.resultsFrom, if_true]
      rcases ht : Session.takeRecords labels s with ⟨e | records, t⟩
      · exact (h.takeRecords labels).of_eq hs ht
      · simp only [Session.consRecords_snd, blames_consRecords]
        exact h.restOfResults labels false t ((h.takeRecords labels).of_eq hs ht).1
  | false =>
      simp only [Session.resultsFrom, Bool.false_eq_true, if_false]
      split
      · exact ⟨hs, rfl⟩
      · exact h.restOfResults labels false s hs

theorem executeRetrying :
    Action.Blameless (fun s => P s.2) (Session.executeRetrying (σ := σ)) := by
  intro s hs
  unfold Session.executeRetrying
  rcases hr : Backend.executeCall s with ⟨e | hasRows, t⟩
  · exact h.executeCall t (h.executeCall.of_eq hs hr).1
  · exact h.executeCall.of_eq hs hr

theorem executeHeld (params : List Value) :
    Action.Blameless (fun s => P s.2) (Session.executeHeld (σ := σ) params) :=
  (blameless_bindFrom h.bindCall params 1).bind fun _ => h.executeCall.bind fun _ =>
    fun _ hs => ⟨hs, rfl⟩

theorem queryHeld (allResults : Bool) (labels : Option (List String)) (params : List Value) :
    Action.Blameless (fun s => P s.2) (Session.queryHeld (σ := σ) allResults labels params) := by
  refine (blameless_bindFrom h.bindCall params 1).bind fun _ => ?_
  cases allResults with
  | true => exact h.executeRetrying.bind fun hasRows => h.resultsFrom labels hasRows
  | false => exact h.queryCall.bind fun rs => .ofExcept (blames_records rs labels)

end Backend.Blameless

end Requests

end SqlSession
