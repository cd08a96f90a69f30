/-
What collecting makes of the answers to its probes.

A call is probed: it is run until a run succeeds, and from then on it is asked for its next
result.  Each probe has one of four outcomes: it fails, it finds a result set, it finds a row
count, or it finds the end.  `Delivers` says which outcomes a call has for whoever goes on
probing to the end, and `Collects` what collecting is to make of them: the records of all
result sets, one after the other, unless two failures in a row or a result set that cannot be
read comes first.

The walk over the results carries one thing from probe to probe, whether the last one has
failed; the induction carries that failure in front of the outcomes still to come.
-/
import Mathlib.Data.List.Chain
import SqlSession.Backend.Scripted
import SqlSession.Proofs.CallLog
import SqlSession.Proofs.Method
import SqlSession.Proofs.StatementLog
import SqlSession.Proofs.Transparency

namespace SqlSession

open SqlSession.Action Traced

variable {σ : Type} [Backend σ] {labels : Option (List String)}

/-! ### Outcomes -/

/-- The outcome of a probe, short of the end. -/
inductive Outcome where
  | failed (e : DbError)
  /-- There is a result set, with the answer to taking it. -/
  | rows (taken : Except DbError (Option ResultSet))
  | count (n : Int)

namespace Outcome

def fails : Outcome → Bool
  | .failed _ => true
  | _ => false

/-- The records that an outcome contributes. -/
def read (labels : Option (List String)) : Outcome → Except DbError (List Record)
  | .rows (.ok (some rs)) => rs.records labels
  | .rows (.error e) => .error e
  | .rows (.ok none) | .failed _ | .count _ => .ok []

theorem fails_of_unread {o : Outcome} {e : DbError} (h : o.read labels = .error e) :
    o.fails = false := by
  cases o <;> first | rfl | cases h

end Outcome

/-- No two failures follow one another. -/
def Isolated (os : List Outcome) : Prop :=
  os.IsChain fun o o' => ¬(o.fails = true ∧ o'.fails = true)

/-- What collecting the records of the outcomes, up to the end behind them, gives. -/
inductive Collects (labels : Option (List String)) :
    List Outcome → Except DbError (List Record) → Prop
  /-- Failures are passed over, and so are counts; the records of the result sets are joined. -/
  | all {os : List Outcome} {records : List (List Record)} (isolated : Isolated os)
      (read : os.mapM (Outcome.read labels) = .ok records) : Collects labels os (.ok records.flatten)
  /-- The first failure right behind another is final. -/
  | twice {before after : List Outcome} {e e' : DbError} {records : List (List Record)}
      (isolated : Isolated (before ++ [.failed e]))
      (read : before.mapM (Outcome.read labels) = .ok records) :
      Collects labels (before ++ .failed e :: .failed e' :: after) (.error e')
  /-- So is the first result set that cannot be read. -/
  | unreadable {before after : List Outcome} {o : Outcome} {e : DbError}
      {records : List (List Record)} (isolated : Isolated before)
      (read : before.mapM (Outcome.read labels) = .ok records)
      (unread : o.read labels = .error e) : Collects labels (before ++ o :: after) (.error e)

theorem mapM_read_cons {o : Outcome} {os : List Outcome} {records : List Record}
    {more : List (List Record)} (h : o.read labels = .ok records)
    (h' : os.mapM (Outcome.read labels) = .ok more) :
    (o :: os).mapM (Outcome.read labels) = .ok (records :: more) := by
  rw [List.mapM_cons, h, h']
  rfl

theorem Collects.of_pair {e e' : DbError} {os : List Outcome} :
    Collects labels (.failed e :: .failed e' :: os) (.error e') :=
  @twice labels [] os e e' [] (.singleton _) rfl

theorem Collects.of_unread {o : Outcome} {e : DbError} {os : List Outcome}
    (h : o.read labels = .error e) : Collects labels (o :: os) (.error e) :=
  @unreadable labels [] os o e [] .nil rfl h

/-- One more outcome in front contributes its records, unless it makes a pair of failures. -/
theorem Collects.cons {o : Outcome} {os : List Outcome} {r : Except DbError (List Record)}
    {records : List Record} (h : Collects labels os r) (ho : o.read labels = .ok records)
    (hhead : o.fails = true → ∀ o' ∈ os.head?, o'.fails = false) :
    Collects labels (o :: os) (r.map (records ++ ·)) := by
  have hnot {os' : List Outcome} (hsame : ∀ o' ∈ os'.head?, o' ∈ os.head?) :
      ∀ o' ∈ os'.head?, ¬(o.fails = true ∧ o'.fails = true) := by
    rintro o' ho' ⟨hf, hf'⟩
    rw [hhead hf o' (hsame o' ho')] at hf'
    cases hf'
  cases h with
  | all isolated read => exact .all (isolated.cons (hnot fun _ => id)) (mapM_read_cons ho read)
  | @twice before after e e' _ isolated read =>
      refine @twice labels (o :: before) after e e' _ (isolated.cons (hnot ?_))
        (mapM_read_cons ho read)
      cases before <;> exact fun _ => id
  | @unreadable before after o' e _ isolated read unread =>
      refine @unreadable labels (o :: before) after o' e _ (isolated.cons (hnot ?_))
        (mapM_read_cons ho read) unread
      cases before with
      | nil => exact nofun
      | cons => exact fun _ => id

/-- A failure that nothing follows, or no other failure, makes no difference. -/
theorem Collects.skip {os : List Outcome} {r : Except DbError (List Record)}
    (h : Collects labels os r) (hhead : ∀ o ∈ os.head?, o.fails = false) (e : DbError) :
    Collects labels (.failed e :: os) r := by
  have hcons : Collects labels (.failed e :: os) (r.map ([] ++ ·)) := h.cons rfl fun _ => hhead
  cases r <;> exact hcons

theorem mapM_read_uncons {o : Outcome} {os : List Outcome} {more : List (List Record)}
    (h : (o :: os).mapM (Outcome.read labels) = .ok more) :
    ∃ records rest, o.read labels = .ok records ∧ os.mapM (Outcome.read labels) = .ok rest ∧
      more = records :: rest := by
  rw [List.mapM_cons] at h
  cases ho : o.read labels with
  | error e =>
      rw [ho] at h
      cases h
  | ok records =>
      cases hos : os.mapM (Outcome.read labels) with
      | error e =>
          rw [ho, hos] at h
          cases h
      | ok rest =>
          rw [ho, hos] at h
          cases h
          exact ⟨records, rest, rfl, rfl, rfl⟩

theorem Isolated.head {o : Outcome} {os : List Outcome} (h : Isolated (o :: os)) :
    o.fails = true → ∀ o' ∈ os.head?, o'.fails = false := by
  intro ho o' ho'
  have hnot := (List.isChain_cons.mp h).1 o' ho'
  exact Bool.eq_false_iff.mpr fun hf => hnot ⟨ho, hf⟩

theorem collects_nil {r : Except DbError (List Record)} (h : Collects labels [] r) :
    r = .ok [] := by
  generalize hos : ([] : List Outcome) = os at h
  cases h with
  | all isolated read =>
      subst hos
      cases read
      rfl
  | @twice before => cases before <;> cases hos
  | @unreadable before => cases before <;> cases hos

/-- What some outcomes give is settled by the first of them, or by the first two, or by the
first and what the others give. -/
theorem Collects.uncons {o : Outcome} {os : List Outcome} {r : Except DbError (List Record)}
    (h : Collects labels (o :: os) r) :
    (∃ e, o.read labels = .error e ∧ r = .error e) ∨
      (∃ e e' after, o = .failed e ∧ os = .failed e' :: after ∧ r = .error e') ∨
      ∃ records r', o.read labels = .ok records ∧
        (o.fails = true → ∀ o' ∈ os.head?, o'.fails = false) ∧ Collects labels os r' ∧
        r = r'.map (records ++ ·) := by
  generalize hos : o :: os = all at h
  cases h with
  | all isolated read =>
      subst hos
      obtain ⟨records, rest, ho, hrest, rfl⟩ := mapM_read_uncons read
      exact Or.inr (Or.inr ⟨records, _, ho, isolated.head, .all isolated.tail hrest, rfl⟩)
  | @twice before after e e' more isolated read =>
      cases before with
      | nil =>
          cases hos
          exact Or.inr (Or.inl ⟨e, e', after, rfl, rfl, rfl⟩)
      | cons b before =>
          cases hos
          obtain ⟨records, rest, ho, hrest, rfl⟩ := mapM_read_uncons read
          refine Or.inr (Or.inr ⟨records, _, ho, ?_, .twice isolated.tail hrest, rfl⟩)
          have hhead := isolated.head
          cases before <;> exact hhead
  | @unreadable before after o' e more isolated read unread =>
      cases before with
      | nil =>
          cases hos
          exact Or.inl ⟨e, unread, rfl⟩
      | cons b before =>
          cases hos
          obtain ⟨records, rest, ho, hrest, rfl⟩ := mapM_read_uncons read
          refine Or.inr (Or.inr ⟨records, _, ho, ?_, .unreadable isolated.tail hrest unread, rfl⟩)
          intro hb o ho
          cases before with
          | nil =>
              cases ho
              exact Outcome.fails_of_unread unread
          | cons => exact isolated.head hb o ho

/-- What some outcomes give is one thing only. -/
theorem Collects.unique {os : List Outcome} {r r' : Except DbError (List Record)}
    (h : Collects labels os r) (h' : Collects labels os r') : r = r' := by
  induction os generalizing r r' with
  | nil => rw [collects_nil h, collects_nil h']
  | cons o os ih =>
      rcases h.uncons with ⟨e, ho, rfl⟩ | ⟨e, e', after, rfl, rfl, rfl⟩ |
          ⟨records, t, ho, hhead, ht, rfl⟩ <;>
        rcases h'.uncons with ⟨x, hx, rfl⟩ | ⟨x, x', after', hx, hos, rfl⟩ |
          ⟨records', t', hx, hhead', ht', rfl⟩
      · rw [ho] at hx
        cases hx
        rfl
      · subst hx
        cases ho
      · rw [ho] at hx
        cases hx
      · cases hx
      · cases hos
        rfl
      · cases hhead' rfl _ rfl
      · rw [ho] at hx
        cases hx
      · subst hx hos
        cases hhead rfl _ rfl
      · rw [ho] at hx
        cases hx
        rw [ih ht ht']

/-! ### Delivering outcomes -/

/-- A probe: the call is run until a run succeeds, and then asked for its next result. -/
def probe (running : Bool) : Action (Backend.Callable σ × σ) Bool :=
  if running then Backend.moreResults else Backend.executeCall

/-- Probing the call, and taking each result set that is found, has these outcomes and then
finds the end.  `running` says that a probe has succeeded before. -/
inductive Delivers : Bool → Backend.Callable σ × σ → List Outcome → Prop
  | finished {running : Bool} {s t : Backend.Callable σ × σ}
      (found : probe running s = (.ok false, t)) (count : Backend.updateCount t.1 = -1) :
      Delivers running s []
  | failed {running : Bool} {s t : Backend.Callable σ × σ} {e : DbError} {os : List Outcome}
      (found : probe running s = (.error e, t)) (rest : Delivers running t os) :
      Delivers running s (.failed e :: os)
  | rows {running : Bool} {s t u : Backend.Callable σ × σ}
      {taken : Except DbError (Option ResultSet)} {os : List Outcome}
      (found : probe running s = (.ok true, t)) (take : Backend.resultSet t = (taken, u))
      (rest : Delivers true u os) : Delivers running s (.rows taken :: os)
  | count {running : Bool} {s t : Backend.Callable σ × σ} {n : Int} {os : List Outcome}
      (found : probe running s = (.ok false, t)) (count : Backend.updateCount t.1 = n)
      (more : n ≠ -1) (rest : Delivers true t os) : Delivers running s (.count n :: os)

namespace Session

variable {s t : Backend.Callable σ × σ} {os : List Outcome}

/-- The outcomes still to come, with the failure right before them. -/
def behind (failure : Option DbError) (os : List Outcome) : List Outcome :=
  failure.toList.map Outcome.failed ++ os

/-- A probe that succeeds makes up for the failure before it. -/
theorem collects_behind {r : Except DbError (List Record)} (h : Collects labels os r)
    (hhead : ∀ o ∈ os.head?, o.fails = false) (failure : Option DbError) :
    Collects labels (behind failure os) r := by
  cases failure with
  | none => exact h
  | some e => exact h.skip hhead e

theorem takeRecords_eq {taken : Except DbError (Option ResultSet)}
    (h : Backend.resultSet s = (taken, t)) :
    takeRecords labels s = ((Outcome.rows taken).read labels, t) := by
  unfold takeRecords
  rw [h]
  rcases taken with e | _ | rs <;> rfl

theorem consRecords_fst {τ : Type} (records : List Record)
    (out : Except DbError (List Record) × τ) :
    (consRecords records out).1 = out.1.map (records ++ ·) := by
  rcases out with ⟨_ | _, _⟩ <;> rfl

/-- The walk goes on from a result as it begins from the first one. -/
theorem restOfResults_of_ok {failed hasRows : Bool} (h : Backend.moreResults s = (.ok hasRows, t)) :
    restOfResults labels failed s = resultsFrom labels hasRows t := by
  cases hasRows with
  | true =>
      rw [restOfResults_of_rows h]
      rfl
  | false =>
      rw [restOfResults_of_count h]
      rfl

theorem collects_finished (h : Backend.updateCount s.1 = -1) (failure : Option DbError) :
    Collects labels (behind failure []) (resultsFrom labels false s).1 := by
  have hend : (resultsFrom labels false s).1 = .ok [] := by
    simp only [resultsFrom, Bool.false_eq_true, if_false, h, if_true]
  rw [hend]
  exact collects_behind (.all .nil rfl) (by simp) failure

theorem collects_count {n : Int} (h : Backend.updateCount s.1 = n) (hn : n ≠ -1)
    (ih : Collects labels os (restOfResults labels false s).1) (failure : Option DbError) :
    Collects labels (behind failure (.count n :: os)) (resultsFrom labels false s).1 := by
  have hrest : resultsFrom labels false s = restOfResults labels false s := by
    simp only [resultsFrom, Bool.false_eq_true, if_false, h, hn]
  have hcons := ih.cons (o := .count n) rfl (by simp [Outcome.fails])
  rw [hrest]
  refine collects_behind ?_ (by simp [Outcome.fails]) failure
  cases hr : (restOfResults labels false s).1 <;> rw [hr] at hcons <;> exact hcons

theorem collects_rows {taken : Except DbError (Option ResultSet)}
    (h : Backend.resultSet s = (taken, t))
    (ih : Collects labels os (restOfResults labels false t).1) (failure : Option DbError) :
    Collects labels (behind failure (.rows taken :: os)) (resultsFrom labels true s).1 := by
  refine collects_behind ?_ (by simp [Outcome.fails]) failure
  simp only [resultsFrom, if_true, takeRecords_eq h]
  cases hread : (Outcome.rows taken).read labels with
  | error e => exact .of_unread hread
  | ok records =>
      simp only [consRecords_fst]
      exact ih.cons hread (by simp [Outcome.fails])

/-- What the walk gives from a call that delivers some outcomes. -/
theorem collects_restOfResults {running : Bool} (h : Delivers running s os)
    (hrunning : running = true) (failure : Option DbError) :
    Collects labels (behind failure os) (restOfResults labels failure.isSome s).1 := by
  induction h generalizing failure with
  | finished found count =>
      subst hrunning
      rw [restOfResults_of_ok found]
      exact collects_finished count failure
  | failed found rest ih =>
      subst hrunning
      rw [restOfResults_of_error found]
      cases failure with
      | none => exact ih rfl (some _)
      | some e => exact .of_pair
  | rows found take rest ih =>
      subst hrunning
      rw [restOfResults_of_ok found]
      exact collects_rows take (ih rfl none) failure
  | count found count more rest ih =>
      subst hrunning
      rw [restOfResults_of_ok found]
      exact collects_count count more (ih rfl none) failure

theorem collects_resultsFrom {running hasRows : Bool} (h : Delivers running s os)
    (found : probe running s = (.ok hasRows, t)) (failure : Option DbError) :
    Collects labels (behind failure os) (resultsFrom labels hasRows t).1 := by
  cases h with
  | finished found' count =>
      cases found.symm.trans found'
      exact collects_finished count failure
  | failed found' rest => cases found.symm.trans found'
  | rows found' take rest =>
      cases found.symm.trans found'
      exact collects_rows take (collects_restOfResults rest rfl none) failure
  | count found' count more rest =>
      cases found.symm.trans found'
      exact collects_count count more (collects_restOfResults rest rfl none) failure

theorem delivers_of_error {running : Bool} {e : DbError} (h : Delivers running s os)
    (found : probe running s = (.error e, t)) :
    ∃ rest, os = .failed e :: rest ∧ Delivers running t rest := by
  cases h with
  | failed found' rest =>
      cases found.symm.trans found'
      exact ⟨_, rfl, rest⟩
  | finished found' | rows found' | count found' => cases found.symm.trans found'

theorem executeRetrying_of_ok {hasRows : Bool} (h : Backend.executeCall s = (.ok hasRows, t)) :
    executeRetrying s = (.ok hasRows, t) := by
  unfold executeRetrying
  rw [h]

theorem executeRetrying_of_error {e : DbError} (h : Backend.executeCall s = (.error e, t)) :
    executeRetrying s = Backend.executeCall t := by
  unfold executeRetrying
  rw [h]

/-- What collecting gives from a call that delivers some outcomes. -/
theorem collects_collectResults (h : Delivers false s os) :
    Collects labels os (collectResults labels s).1 := by
  unfold collectResults
  rcases hx : Backend.executeCall s with ⟨e | hasRows, t⟩
  · obtain ⟨rest, rfl, hrest⟩ := delivers_of_error h hx
    rcases hx' : Backend.executeCall t with ⟨e' | hasRows, u⟩
    · obtain ⟨rest, rfl, -⟩ := delivers_of_error hrest hx'
      rw [bind_of_error ((executeRetrying_of_error hx).trans hx')]
      exact .of_pair
    · rw [bind_of_ok ((executeRetrying_of_error hx).trans hx')]
      exact collects_resultsFrom hrest hx' (some e)
  · rw [bind_of_ok (executeRetrying_of_ok hx)]
    exact collects_resultsFrom h hx none

end Session

/-! ### How often the call is run -/

/-- The event runs the call. -/
def Event.runsCall {Callable : Type} (e : Event Callable) : Bool :=
  match e.request with
  | .executeCall .. => true
  | _ => false

/-- The event is a probe that succeeds. -/
def Event.probed {Callable : Type} (e : Event Callable) : Bool :=
  match e.request with
  | .executeCall .. | .moreResults _ => e.done
  | _ => false

/-- The call is run so many times at most, and never behind a probe that has succeeded. -/
def RunsAtMost {Callable : Type} (n : Nat) (ev : List (Event Callable)) : Prop :=
  ev.countP Event.runsCall ≤ n ∧
    ev.Pairwise fun e e' => e.probed = true → e'.runsCall = false

section Runs

variable {Callable : Type} {n : Nat} {e : Event Callable} {ev : List (Event Callable)}

theorem runsAtMost_zero (h : ∀ e ∈ ev, e.runsCall = false) : RunsAtMost 0 ev := by
  constructor
  · rw [List.countP_eq_zero.mpr fun e he => by rw [h e he]; decide]
  · exact List.Pairwise.imp_of_mem (fun _ he _ _ => h _ he)
      (List.pairwise_of_forall (R := fun _ _ => True) fun _ _ => trivial)

theorem runsAtMost_nil : RunsAtMost 0 ([] : List (Event Callable)) := ⟨Nat.le_refl 0, .nil⟩

theorem countP_runsCall_cons_le : (e :: ev).countP Event.runsCall ≤ ev.countP Event.runsCall + 1 := by
  rw [List.countP_cons]
  split <;> omega

theorem RunsAtMost.failed (h : RunsAtMost n ev) (he : e.done = false) :
    RunsAtMost (n + 1) (e :: ev) := by
  refine ⟨Nat.le_trans countP_runsCall_cons_le (Nat.succ_le_succ h.1), ?_⟩
  refine List.pairwise_cons.mpr ⟨fun x _ hprobed => ?_, h.2⟩
  unfold Event.probed at hprobed
  split at hprobed <;> first | (rw [he] at hprobed; cases hprobed) | cases hprobed

theorem RunsAtMost.succeeded (h : RunsAtMost 0 ev) : RunsAtMost 1 (e :: ev) := by
  refine ⟨Nat.le_trans countP_runsCall_cons_le (Nat.succ_le_succ h.1), ?_⟩
  refine List.pairwise_cons.mpr ⟨fun x hx _ => ?_, h.2⟩
  exact Bool.eq_false_iff.mpr (List.countP_eq_zero.mp (Nat.le_zero.mp h.1) x hx)

theorem RunsAtMost.behind {before : List (Event Callable)} (h : RunsAtMost n ev)
    (hbefore : ∀ e ∈ before, e.runsCall = false ∧ e.probed = false) :
    RunsAtMost n (before ++ ev) := by
  have hnone := runsAtMost_zero fun e he => (hbefore e he).1
  constructor
  · rw [List.countP_append, Nat.le_zero.mp hnone.1, Nat.zero_add]
    exact h.1
  · refine List.pairwise_append.mpr ⟨hnone.2, h.2, fun e he x _ hprobed => ?_⟩
    rw [(hbefore e he).2] at hprobed
    cases hprobed

end Runs

namespace Session

/-- What comes behind a successful run does not run the call. -/
theorem log_resultsFrom (labels : Option (List String)) (hasRows : Bool)
    (p : Handle (Backend.Callable σ) × Traced σ) :
    ∃ ev, (resultsFrom (σ := Traced σ) labels hasRows p).2.2.log = p.2.log ++ ev ∧
      RunsAtMost 0 ev := by
  have hgrows : Obeys (GrowsBy fun _ (e : Event (Backend.Callable σ)) => e.runsCall = false)
      (resultsFrom (σ := Traced σ) labels hasRows) :=
    obeys_resultsFrom (σ := Traced σ) labels chains_growsBy (growsBy_use (fun _ _ _ => rfl) _)
      (growsBy_use (fun _ _ _ => rfl) _) hasRows
  obtain ⟨-, ev, hlog, hev⟩ := hgrows p
  exact ⟨ev, hlog, runsAtMost_zero hev⟩

/-- The event that a run of the held call leaves. -/
def ran (p : Handle (Backend.Callable σ) × Traced σ) (done : Bool) :
    Event (Backend.Callable σ) :=
  ⟨.executeCall p.1.number p.1.held, done⟩

theorem log_executeCall_handle (p : Handle (Backend.Callable σ) × Traced σ) :
    (Backend.executeCall (σ := Traced σ) p).2.2.log =
      p.2.log ++ [ran p (Backend.executeCall (σ := Traced σ) p).1.isOk] :=
  rfl

/-- Collecting runs the call twice at most, and not again once a probe has succeeded. -/
theorem log_collectResults (labels : Option (List String))
    (p : Handle (Backend.Callable σ) × Traced σ) :
    ∃ ev, (collectResults (σ := Traced σ) labels p).2.2.log = p.2.log ++ ev ∧
      RunsAtMost 2 ev := by
  unfold collectResults
  have hlog := log_executeCall_handle p
  rcases hx : Backend.executeCall (σ := Traced σ) p with ⟨e | hasRows, q⟩ <;> rw [hx] at hlog
  · have hlog' := log_executeCall_handle q
    have hfirst : (ran p false).done = false := rfl
    rcases hx' : Backend.executeCall (σ := Traced σ) q with ⟨e' | hasRows, r⟩ <;> rw [hx'] at hlog'
    · have hsecond : (ran q false).done = false := rfl
      rw [bind_of_error ((executeRetrying_of_error hx).trans hx')]
      refine ⟨[ran p false, ran q false], ?_, (runsAtMost_nil.failed hsecond).failed hfirst⟩
      rw [hlog', hlog, List.append_assoc]
      rfl
    · obtain ⟨ev, hlog'', hev⟩ := log_resultsFrom labels hasRows r
      rw [bind_of_ok ((executeRetrying_of_error hx).trans hx')]
      refine ⟨ran p false :: ran q true :: ev, ?_, hev.succeeded.failed hfirst⟩
      rw [hlog'', hlog', hlog, List.append_assoc, List.append_assoc]
      rfl
  · obtain ⟨ev, hlog', hev⟩ := log_resultsFrom labels hasRows q
    rw [bind_of_ok (executeRetrying_of_ok hx)]
    refine ⟨ran p true :: ev, ?_, Nat.le_succ_of_le hev.succeeded.1, hev.succeeded.2⟩
    rw [hlog', hlog, List.append_assoc]
    rfl

/-- Binding neither runs the call nor probes it. -/
theorem quiet_boundFrom {n position : Nat} {vs : List Value} :
    ∀ e ∈ (boundFrom (.bindCall n) position vs : List (Event (Backend.Callable σ))),
      e.runsCall = false ∧ e.probed = false := by
  intro e he
  obtain ⟨i, v, rfl⟩ := mem_boundFrom he
  exact ⟨rfl, rfl⟩

/--
**Collecting reads every result set once, and gives up at two failures in a row.**  Once the
labels of a procedure call are settled and its parameters bound, querying it for all results
answers what `Collects` says of the outcomes that the call delivers, and of those nothing
else: the records of all result sets in order, failures that stand alone passed over, or the
second of the first two failures in a row, or the error of the first result set that cannot
be read, whichever comes first.  All in all the call is run twice at most, and not again once
a probe has succeeded.
-/
theorem all_results_collected {s : Session (Traced σ)} {call : Handle (Backend.Callable σ)}
    {labels : Option (List String)} {bound : Handle (Backend.Callable σ) × Traced σ}
    {os : List Outcome} (hop : s.operation = .procedure) (hheld : s.calling.handle = some call)
    (hlabels : s.callLabels = .ok labels)
    (hbound : bindAll Backend.bindCall s.params (call, s.backend) = (.ok (), bound))
    (hos : Delivers (σ := Traced σ) false bound os) :
    (∀ r, Collects labels os r ↔ (queryProcedure true s).1 = r) ∧
      ∃ ev, (queryProcedure true s).2.backend.log = s.backend.log ++ ev ∧ RunsAtMost 2 ev := by
  have hquery : queryHeld true labels s.params (call, s.backend) = collectResults labels bound :=
    bind_of_ok hbound
  have hrun : queryProcedure true s = clearingParams (runCall true) s := by
    simp only [queryProcedure, hop]
  have hcollect : runCall true s = _ :=
    (runCall_of_labels true hlabels).trans (onCall_of_held _ hheld)
  rw [hquery] at hcollect
  constructor
  · intro r
    have hgives : Collects labels os (queryProcedure true s).1 := by
      rw [hrun]
      simp only [clearingParams, andThen, hcollect]
      exact collects_collectResults hos
    constructor
    · exact hgives.unique
    · rintro rfl
      exact hgives
  · obtain ⟨-, evBound, hlog, hev⟩ := logs_bindAllCall s.params (call, s.backend)
    obtain ⟨ev, hlog', hruns⟩ := log_collectResults labels bound
    rw [hbound] at hlog hev
    cases hev
    refine ⟨boundFrom (.bindCall call.number) 1 s.params ++ ev, ?_, hruns.behind quiet_boundFrom⟩
    rw [hrun]
    simp only [clearingParams, andThen, hcollect, hlog']
    rw [show bound.2.log = _ from hlog, List.append_assoc]

/-- A connection whose only call fails at first, fails again between two of its results, and
delivers two result sets with a row count between them. -/
def stuttering : Scripted.Connection where
  script :=
    { probe := [some (.error (.other "lost")), none, some (.error (.other "lost"))]
      calls := [some (.ok [.rows ⟨["a"], [[.bool true]], 0⟩, .count 3,
        .rows ⟨["a"], [[.bool false], [.null]], 0⟩])] }

/-- Both result sets of that call are read. -/
theorem stuttering_results_collected :
    let s := run [.call "refresh(?)", .param (.bool true)] (traced .postgreSql stuttering)
    (queryProcedure true s).1 = .ok [[("a", .bool true)], [("a", .bool false)], [("a", .null)]] ∧
      ∃ ev, (queryProcedure true s).2.backend.log = s.backend.log ++ ev ∧ RunsAtMost 2 ev := by
  intro s
  let outcomes : List Outcome :=
    [.failed (.other "lost"), .rows (.ok (some ⟨["a"], [[.bool true]], 0⟩)),
      .failed (.other "lost"), .count 3, .rows (.ok (some ⟨["a"], [[.bool false], [.null]], 0⟩))]
  let call : Handle Scripted.Call := ⟨0, { text := "\x7bcall refresh(?)\x7d" }⟩
  let bound := (bindAll (Backend.bindCall (σ := Traced Scripted.Connection)) s.params
    (call, s.backend)).2
  have hlabels : s.callLabels = .ok none := rfl
  have hbound : bindAll Backend.bindCall s.params (call, s.backend) = (.ok (), bound) := rfl
  have hos : Delivers false bound outcomes :=
    .failed rfl (.rows rfl rfl (.failed rfl (.count rfl rfl (by decide)
      (.rows rfl rfl (.finished rfl rfl)))))
  obtain ⟨hgives, hruns⟩ := all_results_collected rfl rfl hlabels hbound hos
  have hisolated : Isolated outcomes := by simp [Isolated, outcomes, Outcome.fails]
  have hread : outcomes.mapM (Outcome.read none) =
      .ok [[], [[("a", .bool true)]], [], [], [[("a", .bool false)], [("a", .null)]]] := rfl
  exact ⟨(hgives _).mp (.all hisolated hread), hruns⟩

end Session

end SqlSession
