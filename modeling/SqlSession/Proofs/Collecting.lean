/-
Collecting the results of a call.

The walk over the results of a call recurses on what the backend still holds, and its
definition carries the proofs that it ends.  The equations here are the same walk without
them, one for each answer to a probe; from these follows that the walk moves the call and
the backend only as its requests do.
-/
import SqlSession.Proofs.Action
import SqlSession.Session.Procedure

namespace SqlSession.Session

open SqlSession.Action

variable {σ : Type} [Backend σ] {labels : Option (List String)} {failed : Bool}
  {s s' : Backend.Callable σ × σ}

/-! ### One probe -/

theorem restOfResults_of_error {e : DbError} (h : Backend.moreResults s = (.error e, s')) :
    restOfResults labels failed s =
      if failed then (.error e, s') else restOfResults labels true s' := by
  rw [restOfResults]
  split
  · rename_i e' t h'
    obtain ⟨he, rfl⟩ := Prod.mk.inj (h.symm.trans h')
    cases he
    split <;> rfl
  · rename_i t h'
    cases (Prod.mk.inj (h.symm.trans h')).1
  · rename_i t h'
    cases (Prod.mk.inj (h.symm.trans h')).1

theorem restOfResults_of_rows (h : Backend.moreResults s = (.ok true, s')) :
    restOfResults labels failed s =
      match takeRecords labels s' with
      | (.error e, t) => (.error e, t)
      | (.ok records, t) => consRecords records (restOfResults labels false t) := by
  rw [restOfResults]
  split
  · rename_i e' t h'
    cases (Prod.mk.inj (h.symm.trans h')).1
  · rename_i t h'
    obtain ⟨-, rfl⟩ := Prod.mk.inj (h.symm.trans h')
    split <;> rename_i heq <;> rw [heq]
  · rename_i t h'
    cases (Prod.mk.inj (h.symm.trans h')).1

theorem restOfResults_of_count (h : Backend.moreResults s = (.ok false, s')) :
    restOfResults labels failed s =
      if Backend.updateCount s'.1 = -1 then (.ok [], s') else restOfResults labels false s' := by
  rw [restOfResults]
  split
  · rename_i e' t h'
    cases (Prod.mk.inj (h.symm.trans h')).1
  · rename_i t h'
    cases (Prod.mk.inj (h.symm.trans h')).1
  · rename_i t h'
    obtain ⟨-, rfl⟩ := Prod.mk.inj (h.symm.trans h')
    split <;> rfl

@[simp] theorem consRecords_snd {τ : Type} (records : List Record)
    (out : Except DbError (List Record) × τ) : (consRecords records out).2 = out.2 := by
  rcases out with ⟨_ | _, _⟩ <;> rfl

/-! ### What the walk does to the call -/

variable {R : Backend.Callable σ × σ → Backend.Callable σ × σ → Prop}
  (labels : Option (List String))

theorem obeys_takeRecords (hr : Obeys R Backend.resultSet) :
    Obeys R (takeRecords (σ := σ) labels) := by
  intro s
  have h := hr s
  rcases heq : Backend.resultSet s with ⟨_ | _ | rs, t⟩ <;> rw [heq] at h <;>
    simpa only [takeRecords, heq] using h

theorem obeys_restOfResults (hR : Chains R) (hm : Obeys R Backend.moreResults)
    (hr : Obeys R Backend.resultSet) :
    ∀ failed, Obeys R (restOfResults (σ := σ) labels failed) := by
  intro failed s
  induction failed, s using restOfResults.induct labels with
  | case1 s e s' h =>
      rw [restOfResults_of_error h, if_pos rfl]
      simpa only [h] using hm s
  | case2 failed s e s' h hf ih =>
      rw [restOfResults_of_error h, if_neg hf]
      exact hR.trans (by simpa only [h] using hm s) ih
  | case3 failed s s' h e t ht =>
      rw [restOfResults_of_rows h]
      simp only [ht]
      have htake := obeys_takeRecords labels hr s'
      rw [ht] at htake
      exact hR.trans (by simpa only [h] using hm s) htake
  | case4 failed s s' h records t ht ih =>
      rw [restOfResults_of_rows h]
      simp only [ht, consRecords_snd]
      have htake := obeys_takeRecords labels hr s'
      rw [ht] at htake
      exact hR.trans (hR.trans (by simpa only [h] using hm s) htake) ih
  | case5 failed s s' h hc =>
      rw [restOfResults_of_count h, if_pos hc]
      simpa only [h] using hm s
  | case6 failed s s' h hc ih =>
      rw [restOfResults_of_count h, if_neg hc]
      exact hR.trans (by simpa only [h] using hm s) ih

theorem obeys_resultsFrom (hR : Chains R) (hm : Obeys R Backend.moreResults)
    (hr : Obeys R Backend.resultSet) (hasRows : Bool) :
    Obeys R (resultsFrom (σ := σ) labels hasRows) := by
  intro s
  have htake := obeys_takeRecords labels hr s
  have hrest := obeys_restOfResults labels hR hm hr false
  cases hasRows with
  | true =>
      simp only [resultsFrom, if_true]
      rcases heq : takeRecords labels s with ⟨_ | records, t⟩ <;> rw [heq] at htake
      · exact htake
      · simp only [consRecords_snd]
        exact hR.trans htake (hrest t)
  | false =>
      simp only [resultsFrom, Bool.false_eq_true, if_false]
      split
      · exact hR.refl s
      · exact hrest s

theorem obeys_executeRetrying (hR : Chains R) (hx : Obeys R Backend.executeCall) :
    Obeys R (executeRetrying (σ := σ)) := by
  intro s
  have h := hx s
  rcases heq : Backend.executeCall s with ⟨_ | _, t⟩ <;> rw [heq] at h <;>
    simp only [executeRetrying, heq]
  · exact hR.trans h (hx t)
  · exact h

/-- Collecting moves a call and its backend along whatever relation its requests move them
along. -/
theorem obeys_collectResults (hR : Chains R) (hx : Obeys R Backend.executeCall)
    (hm : Obeys R Backend.moreResults) (hr : Obeys R Backend.resultSet) :
    Obeys R (collectResults (σ := σ) labels) :=
  Obeys.bind hR (obeys_executeRetrying hR hx) (obeys_resultsFrom labels hR hm hr)

end SqlSession.Session
