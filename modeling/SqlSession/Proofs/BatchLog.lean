/-
The log of a batch.

A batch binds each record from position 1 on and puts it into the batch before the next one
is bound, so the events between two additions are one record.  `batchEntries` reads the
batch back from a log by exactly that: what was bound to a statement since it was last put
into the batch.  Forward, `RecordLog` says what binding one record writes and `FillLog` what
filling a batch does: whole entries, and behind them the part of the record that stopped it.
A batch that is run holds every record, bound with the values of its fields in order; one
that stops before that is not run at all.
-/
import SqlSession.Proofs.Execution
import SqlSession.Proofs.StatementLog

namespace SqlSession

open SqlSession.Action Traced

variable {σ : Type} [Backend σ] {Callable : Type}

/-- The value that a record is bound with for a field. -/
def Record.bound? (record : Record) (field : String) : Option Value :=
  (record.value? field).map Value.ofJson

/-! ### What a batch holds -/

/-- The entries of the batch of a statement, each with the positions of its values; `held`
is what is bound but not yet put into the batch. -/
def batchEntries (n : Nat) : List (Value × Nat) → List (Event Callable) → List (List (Value × Nat))
  | _, [] => []
  | held, ⟨.bind m position v, true⟩ :: rest =>
    batchEntries n (if m = n then held ++ [(v, position)] else held) rest
  | held, ⟨.addBatch m, true⟩ :: rest =>
    if m = n then held :: batchEntries n [] rest else batchEntries n held rest
  | held, _ :: rest => batchEntries n held rest

/-- The batch holds the records, each with one value for each of the fields, in order from
position 1 on. -/
def Batched (fields : List String) (records : List Record)
    (entries : List (List (Value × Nat))) : Prop :=
  ∃ rows : List (List Value),
    records.map (fun record => fields.map record.bound?) = rows.map (List.map some) ∧
      entries = rows.map fun row => row.zipIdx 1

/-- The events of one record. -/
def entryLog (n : Nat) (row : List Value) : List (Event Callable) :=
  boundFrom (.bind n) 1 row ++ [⟨.addBatch n, true⟩]

theorem batchEntries_boundFrom (n : Nat) (vs : List Value) (rest : List (Event Callable)) :
    ∀ position held, batchEntries n held (boundFrom (.bind n) position vs ++ rest) =
      batchEntries n (held ++ vs.zipIdx position) rest := by
  induction vs with
  | nil =>
      intro position held
      simp only [boundFrom_nil, List.nil_append, List.zipIdx_nil, List.append_nil]
  | cons v vs ih =>
      intro position held
      simp only [boundFrom_cons, List.cons_append, batchEntries, if_true, ih, List.zipIdx_cons,
        List.append_assoc, List.nil_append]

theorem batchEntries_entryLog (n : Nat) (rows : List (List Value)) (rest : List (Event Callable)) :
    batchEntries n [] (rows.flatMap (entryLog n) ++ rest) =
      rows.map (fun row => row.zipIdx 1) ++ batchEntries n [] rest := by
  induction rows with
  | nil => rfl
  | cons row rows ih =>
      rw [List.flatMap_cons, entryLog]
      simp only [List.append_assoc, batchEntries_boundFrom, List.nil_append, List.cons_append,
        batchEntries, if_true, ih, List.map_cons]

/-- Two lists of fields put the same batch together exactly if every record answers them
alike. -/
theorem batched_iff {fields others : List String} {records : List Record}
    {entries : List (List (Value × Nat))} (h : Batched others records entries) :
    Batched fields records entries ↔
      ∀ record ∈ records, fields.map record.bound? = others.map record.bound? := by
  obtain ⟨rows, hrows, rfl⟩ := h
  constructor
  · intro h
    obtain ⟨rows', hrows', hentries⟩ := h
    have hsame : rows = rows' := by
      have hfst := congrArg (List.map (List.map Prod.fst)) hentries
      simpa only [List.map_map, Function.comp_def, List.zipIdx_map_fst, List.map_id'] using hfst
    rw [← hsame, ← hrows] at hrows'
    exact List.map_inj_left.mp hrows'
  · intro halike
    exact ⟨rows, (List.map_inj_left.mpr halike).trans hrows, rfl⟩

/-! ### Filling a batch -/

/-- The event binds a value to a statement or puts what is bound into its batch. -/
def Fills (n : Nat) (e : Event Callable) : Prop :=
  e.request = .addBatch n ∨ ∃ position v, e.request = .bind n position v

theorem fills_boundFrom {n position : Nat} {row : List Value} :
    ∀ x ∈ (boundFrom (.bind n) position row : List (Event Callable)), Fills n x := by
  intro x hx
  obtain ⟨i, v, rfl⟩ := mem_boundFrom hx
  exact Or.inr ⟨i, v, rfl⟩

theorem fills_entries {n : Nat} {rows : List (List Value)} :
    ∀ x ∈ (rows.flatMap (entryLog n) : List (Event Callable)), Fills n x := by
  intro x hx
  obtain ⟨row, -, hx⟩ := List.mem_flatMap.mp hx
  rcases List.mem_append.mp hx with hx | hx
  · exact fills_boundFrom x hx
  · rw [List.mem_singleton.mp hx]
    exact Or.inl rfl

/-- What binding a record from a position on writes: the values of its fields in order, up to
the first field that it lacks or whose value is refused. -/
inductive RecordLog (n : Nat) (fields : List String) (record : Record) (position : Nat) :
    Except DbError Unit → List (Event Callable) → Prop
  | bound (row : List Value) (hrow : fields.map record.bound? = row.map some) :
      RecordLog n fields record position (.ok ()) (boundFrom (.bind n) position row)
  /-- The record lacks a field. -/
  | lacking (before : List String) (field : String) (after : List String)
      (split : fields = before ++ field :: after) (row : List Value)
      (hrow : before.map record.bound? = row.map some) (hfield : record.bound? field = none) :
      RecordLog n fields record position
        (.error (.batch ("field '" ++ field ++ "' not found in record") record.text))
        (boundFrom (.bind n) position row)
  /-- The value of a field is refused. -/
  | refused (before : List String) (field : String) (after : List String)
      (split : fields = before ++ field :: after) (row : List Value)
      (hrow : before.map record.bound? = row.map some) (v : Value)
      (hfield : record.bound? field = some v) (e : DbError) :
      RecordLog n fields record position (.error (.batch e.message record.text))
        (boundFrom (.bind n) position row ++ [⟨.bind n (position + row.length) v, false⟩])

/-- What filling a batch writes: entry by entry, up to the first record that cannot be bound
or put into the batch. -/
inductive FillLog (n : Nat) (fields : List String) (records : List Record) :
    Except DbError Unit → List (Event Callable) → Prop
  | filled (rows : List (List Value))
      (hrows : records.map (fun record => fields.map record.bound?) = rows.map (List.map some)) :
      FillLog n fields records (.ok ()) (rows.flatMap (entryLog n))
  /-- A record cannot be bound. -/
  | stopped (before : List Record) (record : Record) (after : List Record)
      (split : records = before ++ record :: after) (rows : List (List Value))
      (hrows : before.map (fun record => fields.map record.bound?) = rows.map (List.map some))
      (e : DbError) (ev : List (Event Callable))
      (hrecord : RecordLog n fields record 1 (.error e) ev) :
      FillLog n fields records (.error e) (rows.flatMap (entryLog n) ++ ev)
  /-- A record is bound, but cannot be put into the batch. -/
  | unadded (before : List Record) (record : Record) (after : List Record)
      (split : records = before ++ record :: after) (rows : List (List Value))
      (hrows : before.map (fun record => fields.map record.bound?) = rows.map (List.map some))
      (row : List Value) (hrow : fields.map record.bound? = row.map some) (e : DbError) :
      FillLog n fields records (.error e)
        (rows.flatMap (entryLog n) ++ (boundFrom (.bind n) 1 row ++ [⟨.addBatch n, false⟩]))

theorem isOk_mapError {α : Type} (r : Except DbError α) (g : DbError → DbError) :
    (r.mapError g).isOk = r.isOk := by
  cases r <;> rfl

section Filling

variable {n position : Nat} {fields : List String} {record : Record} {records : List Record}
  {r : Except DbError Unit} {ev : List (Event Callable)}

theorem RecordLog.cons {field : String} {v : Value} (hfield : record.bound? field = some v)
    (h : RecordLog n fields record (position + 1) r ev) :
    RecordLog n (field :: fields) record position r (⟨.bind n position v, true⟩ :: ev) := by
  have hcons : ∀ {before : List String} {row : List Value},
      before.map record.bound? = row.map some →
        (field :: before).map record.bound? = (v :: row).map some := fun hrow => by
    rw [List.map_cons, List.map_cons, hfield, hrow]
  cases h with
  | bound row hrow => exact .bound (v :: row) (hcons hrow)
  | lacking before other after split row hrow hother =>
      exact .lacking (field :: before) other after (congrArg (field :: ·) split) (v :: row)
        (hcons hrow) hother
  | refused before other after split row hrow w hother e =>
      have hrefused : RecordLog n (field :: fields) record position _ (_ : List (Event Callable)) :=
        .refused (field :: before) other after (congrArg (field :: ·) split) (v :: row)
          (hcons hrow) w hother e
      rwa [boundFrom_cons, List.length_cons, ← Nat.add_assoc, Nat.add_right_comm] at hrefused

theorem RecordLog.fills (h : RecordLog n fields record position r ev) : ∀ x ∈ ev, Fills n x := by
  cases h with
  | bound row hrow => exact fills_boundFrom
  | lacking before field after split row hrow hfield => exact fills_boundFrom
  | refused before field after split row hrow v hfield e =>
      refine List.forall_mem_append.mpr ⟨fills_boundFrom, fun x hx => ?_⟩
      rw [List.mem_singleton.mp hx]
      exact Or.inr ⟨_, _, rfl⟩

/-- A record that cannot be bound is the one that the error carries. -/
theorem RecordLog.error {e : DbError} (h : RecordLog n fields record position (.error e) ev) :
    ∃ cause, e = .batch cause record.text := by
  cases h <;> exact ⟨_, rfl⟩

theorem FillLog.cons {row : List Value} (hrow : fields.map record.bound? = row.map some)
    (h : FillLog n fields records r ev) :
    FillLog n fields (record :: records) r (entryLog n row ++ ev) := by
  have hcons : ∀ {before : List Record} {rows : List (List Value)},
      before.map (fun record => fields.map record.bound?) = rows.map (List.map some) →
        (record :: before).map (fun record => fields.map record.bound?) =
          (row :: rows).map (List.map some) := fun hrows => by
    rw [List.map_cons, List.map_cons, hrow, hrows]
  cases h with
  | filled rows hrows => exact .filled (row :: rows) (hcons hrows)
  | stopped before other after split rows hrows e ev hother =>
      rw [← List.append_assoc]
      exact .stopped (record :: before) other after (congrArg (record :: ·) split) (row :: rows)
        (hcons hrows) e ev hother
  | unadded before other after split rows hrows row' hrow' e =>
      rw [← List.append_assoc]
      exact .unadded (record :: before) other after (congrArg (record :: ·) split) (row :: rows)
        (hcons hrows) row' hrow' e

theorem FillLog.fills (h : FillLog n fields records r ev) : ∀ x ∈ ev, Fills n x := by
  cases h with
  | filled rows hrows => exact fills_entries
  | stopped before record after split rows hrows e ev hrecord =>
      exact List.forall_mem_append.mpr ⟨fills_entries, hrecord.fills⟩
  | unadded before record after split rows hrows row hrow e =>
      refine List.forall_mem_append.mpr ⟨fills_entries, List.forall_mem_append.mpr
        ⟨fills_boundFrom, fun x hx => ?_⟩⟩
      rw [List.mem_singleton.mp hx]
      exact Or.inl rfl

end Filling

namespace Session

/-- Binding a field is one request, whose error is reported with the record. -/
def bindField (record : Record) (position : Nat) (v : Value) :
    Action (Backend.Statement σ × σ) Unit :=
  fun s =>
    let answer := Backend.bind position v s
    (answer.1.mapError fun e => .batch e.message record.text, answer.2)

theorem bindFields_cons {record : Record} {field : String} {v : Json}
    (h : record.value? field = some v) (position : Nat) (fields : List String) :
    bindFields (σ := σ) record position (field :: fields) =
      bindField record position (Value.ofJson v) >>= fun _ =>
        bindFields record (position + 1) fields := by
  funext s
  simp only [bindFields, h, bind, bindField]
  rcases Backend.bind position (Value.ofJson v) s with ⟨_ | _, _⟩ <;> rfl

theorem logs_bindField (record : Record) (position : Nat) (v : Value) :
    Logs (fun n r ev =>
        (∀ e, r = .error e → ∃ cause : DbError, e = .batch cause.message record.text) ∧
          ev = [⟨.bind n position v, r.isOk⟩])
      (bindField (σ := Traced σ) record position v) := by
  intro p
  refine ⟨rfl, _, rfl, fun e he => ?_, ?_⟩
  · simp only [bindField] at he
    cases hb : (Backend.bind (σ := Traced σ) position v p).1 with
    | ok _ =>
        rw [hb] at he
        cases he
    | error cause =>
        rw [hb] at he
        cases he
        exact ⟨cause, rfl⟩
  · have hdone : (bindField (σ := Traced σ) record position v p).1.isOk =
        (Backend.bind (σ := Traced σ) position v p).1.isOk := isOk_mapError _ _
    rw [hdone]
    rfl

theorem logs_bindFields (record : Record) (fields : List String) : ∀ position,
    Logs (fun n => RecordLog n fields record position)
      (bindFields (σ := Traced σ) record position fields) := by
  induction fields with
  | nil => exact fun position p => ⟨rfl, [], (List.append_nil _).symm, .bound [] rfl⟩
  | cons field fields ih =>
      intro position p
      cases hv : record.value? field with
      | none =>
          have hfield : record.bound? field = none := by rw [Record.bound?, hv]; rfl
          simp only [bindFields, hv]
          exact ⟨rfl, [], (List.append_nil _).symm, .lacking [] field fields rfl [] rfl hfield⟩
      | some v =>
          have hfield : record.bound? field = some (Value.ofJson v) := by
            rw [Record.bound?, hv]; rfl
          rw [bindFields_cons hv]
          obtain ⟨hn, ev, hlog, h⟩ :=
            (logs_bindField record position (Value.ofJson v)).bind (fun _ => ih (position + 1)) p
          refine ⟨hn, ev, hlog, ?_⟩
          rcases h with ⟨_, _, ev, ⟨-, rfl⟩, hrest, rfl⟩ | ⟨e, hr, he, rfl⟩
          · exact hrest.cons hfield
          · obtain ⟨cause, rfl⟩ := he e rfl
            rw [hr]
            exact .refused [] field fields rfl [] rfl _ hfield cause

theorem logs_fillBatch (fields : List String) (records : List Record) :
    Logs (fun n => FillLog n fields records) (fillBatch (σ := Traced σ) fields records) := by
  induction records with
  | nil => exact fun p => ⟨rfl, [], (List.append_nil _).symm, .filled [] rfl⟩
  | cons record records ih =>
      have hadd : Logs (fun n r ev => ev = [⟨.addBatch n, r.isOk⟩])
          (Backend.addBatch (σ := Traced σ)) := fun p => ⟨rfl, _, rfl, rfl⟩
      have hlogs : Logs _ (fillBatch (σ := Traced σ) fields (record :: records)) :=
        (logs_bindFields record fields 1).bind fun _ => hadd.bind fun _ => ih
      intro p
      obtain ⟨hn, ev, hlog, h⟩ := hlogs p
      refine ⟨hn, ev, hlog, ?_⟩
      rcases h with ⟨_, _, ev, hbound, hrest, rfl⟩ | ⟨e, hr, hrecord⟩
      · cases hbound with
        | bound row hrow =>
            rcases hrest with ⟨_, _, ev, rfl, hfill, rfl⟩ | ⟨e, hr, rfl⟩
            · rw [← List.append_assoc]
              exact hfill.cons hrow
            · rw [hr]
              exact .unadded [] record records rfl [] rfl row hrow e
      · rw [hr]
        exact .stopped [] record records rfl [] rfl e ev hrecord

end Session

/-! ### Running a batch -/

/-- What a batch writes between preparing and closing: if every record is put into it, it is
run. -/
inductive BatchRun (n : Nat) (fields : List String) (records : List Record) :
    Except DbError (List Nat) → List (Event Callable) → Prop
  | fieldless (e : DbError) (hfields : fields = []) : BatchRun n fields records (.error e) []
  | ran (rows : List (List Value))
      (hrows : records.map (fun record => fields.map record.bound?) = rows.map (List.map some))
      (r : Except DbError (List Nat)) :
      BatchRun n fields records r (rows.flatMap (entryLog n) ++ [⟨.executeBatch n, r.isOk⟩])
  | unfilled (e : DbError) (ev : List (Event Callable))
      (hfill : FillLog n fields records (.error e) ev) : BatchRun n fields records (.error e) ev

theorem Session.logs_useBatch (fields : List String) (records : List Record) :
    Logs (fun n => BatchRun n fields records) (useBatch (σ := Traced σ) fields records) := by
  intro p
  cases hfields : fields with
  | nil => exact ⟨rfl, [], (List.append_nil _).symm, .fieldless _ rfl⟩
  | cons field rest =>
      have hrun : Logs (fun n r ev => ev = [⟨.executeBatch n, r.isOk⟩])
          (Backend.executeBatch (σ := Traced σ)) := fun p => ⟨rfl, _, rfl, rfl⟩
      have hlogs : Logs _ (useBatch (σ := Traced σ) (field :: rest) records) :=
        (logs_fillBatch (field :: rest) records).bind fun _ => hrun
      obtain ⟨hn, ev, hlog, h⟩ := hlogs p
      refine ⟨hn, ev, hlog, ?_⟩
      rcases h with ⟨_, _, _, hfill, rfl, rfl⟩ | ⟨e, hr, hfill⟩
      · cases hfill with
        | filled rows hrows => exact .ran rows hrows _
      · rw [hr]
        exact .unfilled e ev hfill

/-- A batch writes only what belongs to it, and if it is run it holds every record. -/
structure BatchLog (n : Nat) (fields : List String) (records : List Record)
    (ev : List (Event Callable)) : Prop where
  only : ∀ x ∈ ev, Fills n x ∨ x.request = .executeBatch n
  ran : ∀ done, ⟨.executeBatch n, done⟩ ∈ ev → ∃ rows : List (List Value),
    records.map (fun record => fields.map record.bound?) = rows.map (List.map some) ∧
      ev = rows.flatMap (entryLog n) ++ [⟨.executeBatch n, done⟩]

theorem not_fills_executeBatch (n : Nat) (done : Bool) :
    ¬Fills n (⟨.executeBatch n, done⟩ : Event Callable) := by
  rintro (h | ⟨_, _, h⟩) <;> cases h

theorem batchLog_of_fills {n : Nat} {fields : List String} {records : List Record}
    {ev : List (Event Callable)} (h : ∀ x ∈ ev, Fills n x) : BatchLog n fields records ev where
  only x hx := Or.inl (h x hx)
  ran done hdone := absurd (h _ hdone) (not_fills_executeBatch n done)

theorem BatchRun.batchLog {n : Nat} {fields : List String} {records : List Record}
    {r : Except DbError (List Nat)} {ev : List (Event Callable)}
    (h : BatchRun n fields records r ev) : BatchLog n fields records ev := by
  cases h with
  | fieldless e hfields => exact batchLog_of_fills fun x hx => absurd hx List.not_mem_nil
  | unfilled e ev hfill => exact batchLog_of_fills hfill.fills
  | ran rows hrows r =>
      refine ⟨List.forall_mem_append.mpr ⟨fun x hx => Or.inl (fills_entries x hx), ?_⟩, ?_⟩
      · intro x hx
        rw [List.mem_singleton.mp hx]
        exact Or.inr rfl
      · intro done hdone
        refine ⟨rows, hrows, ?_⟩
        rcases List.mem_append.mp hdone with hx | hx
        · exact absurd (fills_entries _ hx) (not_fills_executeBatch _ _)
        · rw [List.mem_singleton.mp hx]

theorem Session.logs_batch (fields : List String) (records : List Record) :
    Logs (fun n _ => BatchLog n fields records) (useBatch (σ := Traced σ) fields records) := by
  intro p
  obtain ⟨hn, ev, hlog, h⟩ := logs_useBatch fields records p
  exact ⟨hn, ev, hlog, h.batchLog⟩

/-- A statement whose batch is run was prepared and holds every record. -/
theorem batched_of_run {α : Type} {n m : Nat} {text : String} {fields : List String}
    {records : List Record} {r : Except DbError α} {ev : List (Event Callable)} {done : Bool}
    (h : StatementLog n text [] (fun _ => BatchLog n fields records) r ev)
    (hrun : ⟨.executeBatch m, done⟩ ∈ ev) :
    ⟨.prepare m text, true⟩ ∈ ev ∧ Batched fields records (batchEntries m [] ev) := by
  cases h with
  | refused e => cases List.mem_singleton.mp hrun
  | abandoned e taken v rest split => cases taken <;> cases split
  | closed r ev used =>
      have hmem : ⟨.executeBatch m, done⟩ ∈ ev := by
        rcases mem_closed hrun with heq | ⟨position, v, heq⟩ | hmem | heq
        · cases heq
        · cases heq
        · exact hmem
        · cases heq
      obtain rfl : m = n := by
        rcases used.only _ hmem with (h | ⟨_, _, h⟩) | h <;> cases h
        rfl
      obtain ⟨rows, hrows, rfl⟩ := used.ran done hmem
      refine ⟨List.mem_append_left _ (List.mem_append_left _ (List.mem_cons_self ..)), rows, hrows,
        ?_⟩
      simp only [boundFrom_nil, List.cons_append, List.nil_append, List.append_assoc, batchEntries,
        batchEntries_entryLog, List.append_nil]

end SqlSession
