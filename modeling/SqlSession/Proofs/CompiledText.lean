/-
Executions against the text that they run.

A compiled text fixes what it projects and how many values it takes.  An execution does not
read that off the text: a SELECT is read under labels that are worked out again from the
fields and aliases of the draft, and a batch binds the fields that the draft has by then.
As long as neither was set since the text was compiled, the two agree, whatever else was set
and however often the text was run.  `compiled_text_iff` says so for every run, and also when
they agree after all: exactly if the fields and aliases set since ask for the same labels and
find the same values in each record.
-/
import SqlSession.Backend.Scripted
import SqlSession.Proofs.BatchLog
import SqlSession.Proofs.Provenance
import SqlSession.Proofs.Transparency

namespace SqlSession

open SqlSession.Action Traced

variable {σ : Type} [Backend σ]

/-! ### SELECTs -/

/-- The labels under which a cursor is read are the aliases that a SELECT of the shape
projects. -/
def ReadsProjection (d : Dialect) (shape : Shape) (rs : ResultSet)
    (labels : Option (List String)) : Prop :=
  Sql.resolveAliases d shape.fields shape.aliases = .ok (rs.readLabels labels)

/-- The labels that a draft of the shape asks a cursor for. -/
def askedLabels (d : Dialect) (shape : Shape) (rs : ResultSet) : Except DbError (List String) :=
  (Sql.readLabels d shape.fields shape.aliases).map rs.readLabels

/-- A SELECT that compiles has fields, and an alias for each. -/
theorem projection_of_compiles {d : Dialect} {shape : Shape} {text : String}
    (h : Compiles d .select shape text) :
    shape.fields ≠ [] ∧
      ∃ aliases, Sql.resolveAliases d shape.fields shape.aliases = .ok aliases := by
  obtain ⟨source, condition, order, limit, schema, h⟩ := h
  unfold Sql.compileSelect at h
  cases hfields : shape.fields with
  | nil => simp only [hfields, List.isEmpty_nil, if_true] at h; cases h
  | cons field fields =>
      refine ⟨List.cons_ne_nil _ _, ?_⟩
      simp only [hfields, List.isEmpty_cons, Bool.false_eq_true, if_false] at h
      cases hr : Sql.resolveAliases d (field :: fields) shape.aliases with
      | error e => simp only [hr] at h; cases h
      | ok aliases => exact ⟨aliases, rfl⟩

/-- A draft asks for the aliases that its own text projects. -/
theorem askedLabels_of_compiles {d : Dialect} {shape : Shape} {text : String}
    (h : Compiles d .select shape text) (rs : ResultSet) :
    askedLabels d shape rs = Sql.resolveAliases d shape.fields shape.aliases := by
  obtain ⟨hfields, aliases, hr⟩ := projection_of_compiles h
  have hne : shape.fields.isEmpty = false := List.isEmpty_eq_false_iff.mpr hfields
  simp only [askedLabels, Sql.readLabels, hne, Bool.false_eq_true, if_false, hr]
  rfl

namespace Session

/-- A statement that runs successfully was prepared from its text. -/
theorem runStatement_ok {α : Type} {text : String} {params : List Value}
    {request : Nat → Request (Backend.Callable σ)}
    {a : Action (Backend.Statement σ × σ) α} {s : Session (Traced σ)} {x : α}
    (h : (onConnection (runStatement (σ := Traced σ) text params
      (use (fun n _ => request n) a)) s).1 = .ok x) :
    ∃ n ev, (onConnection (runStatement (σ := Traced σ) text params
        (use (fun n _ => request n) a)) s).2.backend.log = s.backend.log ++ ev ∧
      ⟨.prepare n text, true⟩ ∈ ev ∧ ⟨request n, true⟩ ∈ ev := by
  cases hopen : s.isOpen with
  | false => rw [onConnection_of_closed _ hopen] at h; cases h
  | true =>
      rw [onConnection_of_open _ hopen] at h ⊢
      obtain ⟨ev, hlog, hev⟩ :=
        runStatement_log text params (logs_use (fun n _ => request n) a) s.backend
      simp only at h
      rw [h] at hev
      refine ⟨s.backend.log.length, ev, hlog, ?_⟩
      cases hev with
      | closed r ev used =>
          obtain ⟨held, rfl⟩ := used
          refine ⟨List.mem_append_left _ (List.mem_append_left _ (List.mem_cons_self ..)), ?_⟩
          exact List.mem_append_left _ (List.mem_append_right _ (List.mem_singleton_self _))

/-- A SELECT that succeeds has run its text and is read under the labels of its draft. -/
theorem runSelect_ok {s s' : Session (Traced σ)} {rs : ResultSet} {labels : Option (List String)}
    (h : runSelect s = (.ok (rs, labels), s')) :
    s.selectLabels = .ok labels ∧ ∃ text n ev, s.draftText .select = .ok text ∧
      s'.backend.log = s.backend.log ++ ev ∧ ⟨.prepare n text, true⟩ ∈ ev ∧
      ⟨.executeQuery n, true⟩ ∈ ev := by
  cases ht : s.draftText .select with
  | error e => rw [runSelect_of_error ht] at h; cases h
  | ok text =>
      cases hl : s.selectLabels with
      | error e => rw [runSelect_of_unread ht hl] at h; cases h
      | ok labels' =>
          rw [runSelect_of_text ht hl] at h
          rcases bind_cases _ _ (s.settle .select text) with ⟨rs', hrs, heq⟩ | ⟨e, -, heq⟩ <;>
            rw [heq] at h
          · obtain ⟨n, ev, hlog, hprepare, hrun⟩ := runStatement_ok hrs
            rw [settle_backend] at hlog
            cases h
            exact ⟨rfl, text, n, ev, rfl, hlog, hprepare, hrun⟩
          · cases h

/-! ### Batches -/

/-- A batch that is run was prepared from the text of the INSERT and holds the records, bound
by the fields that the draft has. -/
def HoldsRecords (records : List Record) (s t : Session (Traced σ)) : Prop :=
  ∃ ev, t.backend.log = s.backend.log ++ ev ∧
    ∀ n done, ⟨.executeBatch n, done⟩ ∈ ev → ∃ text, s.draftText .insert = .ok text ∧
      ⟨.prepare n text, true⟩ ∈ ev ∧
      Batched (s.shape .insert).fields records (batchEntries n [] ev)

theorem holdsRecords_nothing (records : List Record) {s t : Session (Traced σ)}
    (h : t.backend = s.backend) : HoldsRecords records s t :=
  ⟨[], by rw [h, List.append_nil], fun _ _ hrun => absurd hrun List.not_mem_nil⟩

theorem holdsRecords_insertBatch (records : List Record) :
    Obeys (HoldsRecords (σ := σ) records) (insertBatch records) := by
  refine obeys_insertBatch_of_run (holdsRecords_nothing records) records fun s text ht => ?_
  rcases onConnection_log text [] (logs_batch s.inserting.parts.fields records)
    (s.settle .insert text) with hsame | ⟨r, ev, hlog, hev⟩
  · rw [hsame]
    exact holdsRecords_nothing records (settle_backend _ _ s)
  · rw [settle_backend] at hlog hev
    exact ⟨ev, hlog, fun n done hrun => ⟨text, ht, batched_of_run hev hrun⟩⟩

theorem holdsRecords_executeBatch (records : List Record) :
    Obeys (HoldsRecords (σ := σ) records) (executeBatch records) :=
  obeys_executeBatch (fun _ => holdsRecords_nothing records rfl) id records
    (holdsRecords_insertBatch records)

/-! ### Every run -/

/--
**Executions agree with a compiled text exactly if its draft still asks for the same.**  In
every reachable session, where the text that runs was compiled and not given by the caller:

* a SELECT is read under the aliases that its text projects exactly if the fields and aliases
  that the draft has by now ask for those labels;
* a batch that is run holds, for each record, one value for each field that its text lists,
  in order, exactly if every record answers those fields as it answers the fields that the
  draft has by now.

Both hold if neither fields nor aliases were set since the text was compiled.
-/
theorem compiled_text_iff (product : Product) (backend : σ) (ms : List Method) :
    let s₀ := traced product backend
    let s := run ms s₀
    (∀ rs labels s', runSelect s = (.ok (rs, labels), s') →
      ∃ text n ev, s'.backend.log = s.backend.log ++ ev ∧
        ⟨.prepare n text, true⟩ ∈ ev ∧ ⟨.executeQuery n, true⟩ ∈ ev ∧
        ∀ o, runningOrigin .select s (origin .select ms s₀ none) = some o →
          Compiles s.dialect .select o.shape text ∧
          (ReadsProjection s.dialect o.shape rs labels ↔
            askedLabels s.dialect (s.shape .select) rs = askedLabels s.dialect o.shape rs) ∧
          (o.reshaped = false → ReadsProjection s.dialect o.shape rs labels)) ∧
    (∀ records, ∃ ev, (executeBatch records s).2.backend.log = s.backend.log ++ ev ∧
      ∀ n done, ⟨.executeBatch n, done⟩ ∈ ev →
        ∃ text, ⟨.prepare n text, true⟩ ∈ ev ∧
          ∀ o, runningOrigin .insert s (origin .insert ms s₀ none) = some o →
            Compiles s.dialect .insert o.shape text ∧
            (Batched o.shape.fields records (batchEntries n [] ev) ↔
              ∀ record ∈ records, o.shape.fields.map record.bound? =
                (s.shape .insert).fields.map record.bound?) ∧
            (o.reshaped = false → Batched o.shape.fields records (batchEntries n [] ev))) := by
  intro s₀ s
  constructor
  · intro rs labels s' h
    obtain ⟨hlabels, text, n, ev, htext, hlog, hprepare, hrun⟩ := runSelect_ok h
    refine ⟨text, n, ev, hlog, hprepare, hrun, fun o ho => ?_⟩
    have hsound : Sound .select s (origin .select ms s₀ none) := sound_origin ms (sound_none s₀)
    obtain ⟨hcompiles, hshape⟩ := hsound.running htext ho
    have hasked : askedLabels s.dialect (s.shape .select) rs = .ok (rs.readLabels labels) :=
      congrArg (Except.map rs.readLabels) hlabels
    have hiff : ReadsProjection s.dialect o.shape rs labels ↔
        askedLabels s.dialect (s.shape .select) rs = askedLabels s.dialect o.shape rs := by
      rw [hasked, askedLabels_of_compiles hcompiles rs, ReadsProjection, eq_comm]
    exact ⟨hcompiles, hiff, fun hsame => hiff.mpr (by rw [hshape hsame])⟩
  · intro records
    obtain ⟨ev, hlog, hbatch⟩ := holdsRecords_executeBatch records s
    refine ⟨ev, hlog, fun n done hrun => ?_⟩
    obtain ⟨text, htext, hprepare, hheld⟩ := hbatch n done hrun
    refine ⟨text, hprepare, fun o ho => ?_⟩
    have hsound : Sound .insert s (origin .insert ms s₀ none) := sound_origin ms (sound_none s₀)
    obtain ⟨hcompiles, hshape⟩ := hsound.running htext ho
    exact ⟨hcompiles, batched_iff hheld, fun hsame => hshape hsame ▸ hheld⟩

/-- A field that is set after the text is compiled is read, although the text does not project
it. -/
theorem unprojected_field_is_read :
    ¬∀ (c : Scripted.Connection) (ms : List Method) (rs : ResultSet)
      (labels : Option (List String)) (o : Origin),
      (runSelect (run ms (traced .postgreSql c))).1 = .ok (rs, labels) →
        runningOrigin .select (run ms (traced .postgreSql c))
          (origin .select ms (traced .postgreSql c) none) = some o →
        ReadsProjection Product.postgreSql.dialect o.shape rs labels := by
  intro h
  have hreads := h {} [.select ["title"], .source "book", .text .select, .fields ["author"]]
    .empty (some ["author"]) ⟨⟨["title"], none⟩, true⟩ rfl (by decide)
  have hsame : ["title"] = ["author"] := Except.ok.inj hreads
  exact absurd hsame (by decide)

end Session

end SqlSession
