/-
The first row of a SELECT.

A query for one row and a query for every row run the same SELECT, so their connections see
the same requests and the sessions end alike.  They part in what they read of the answer: a
query for one row looks at nothing behind the first row, and what says that there is no data
counts for it as an answer without rows.  `queryUnique_beside_query` says that they part in
nothing else.
-/
import SqlSession.Proofs.RowRecords
import SqlSession.Proofs.Terminal
import SqlSession.Proofs.Transparency

namespace SqlSession

/-! ### What is read of the answer -/

namespace ResultSet

variable {rs : ResultSet} {labels : Option (List String)}

theorem firstRecord_of_records {records : List Record} (h : rs.records labels = .ok records) :
    rs.firstRecord labels = .ok (records.headD []) := by
  have hread := recordsOfRows_eq_ok_iff.mp h
  unfold firstRecord
  cases hrest : rs.rest with
  | nil =>
      rw [hrest, List.forall₂_nil_left_iff] at hread
      rw [hread]
      rfl
  | cons row rest =>
      rw [hrest, List.forall₂_cons_left_iff] at hread
      obtain ⟨record, more, hrow, -, rfl⟩ := hread
      exact hrow

/-- The first row can be read, and a row behind it cannot. -/
def FailsBehindFirst (rs : ResultSet) (labels : Option (List String)) (record : Record)
    (e : DbError) : Prop :=
  ∃ row rest, rs.rest = row :: rest ∧
    Record.Holds rs.columns (rs.readLabels labels) row record ∧
      FirstFailure rs.columns (rs.readLabels labels) rest e

theorem firstRecord_of_error {e : DbError} (h : rs.records labels = .error e) :
    rs.firstRecord labels = .error e ∨
      ∃ record, rs.firstRecord labels = .ok record ∧ rs.FailsBehindFirst labels record e := by
  unfold records at h
  unfold firstRecord
  cases hrest : rs.rest with
  | nil =>
      rw [hrest] at h
      cases h
  | cons row rest =>
      rw [hrest, recordsOfRows] at h
      cases hrow : Record.ofRow rs.columns (rs.readLabels labels) row with
      | error e' =>
          rw [hrow] at h
          cases h
          exact .inl hrow
      | ok record =>
          rw [hrow] at h
          cases hmore : recordsOfRows rs.columns (rs.readLabels labels) rest with
          | ok records =>
              rw [hmore] at h
              cases h
          | error e' =>
              rw [hmore] at h
              cases h
              exact .inr ⟨record, hrow, row, rest, hrest, Record.holds_ofRow hrow,
                firstFailure_recordsOfRows hmore⟩

/-- A query for one row fails alike if it reads the row at all. -/
theorem records_of_firstRecord_error {e : DbError} (h : rs.firstRecord labels = .error e) :
    rs.records labels = .error e := by
  unfold firstRecord at h
  unfold records
  split at h
  next => cases h
  next row rest hrest =>
    rw [hrest, recordsOfRows, h]

theorem eq_decode_of_firstRecord {e : DbError} (h : rs.firstRecord labels = .error e) :
    ∃ label, e = .decode label "column not found" :=
  (firstFailure_recordsOfRows (records_of_firstRecord_error h)).eq_decode

end ResultSet

/-! ### Two queries from the same session -/

namespace Session

section Queries

variable {σ : Type} [Backend σ]

theorem query_of_select {s : Session σ} (h : s.operation = .select) :
    query s = ((runSelect s).1.bind fun (rs, labels) => rs.records labels,
      { (runSelect s).2 with params := [] }) := by
  simp only [query, h]
  exact select?_of_select "query" _ h

theorem queryUnique_of_unread {s : Session σ} (h : s.operation = .select) {e : DbError}
    (hrun : (runSelect s).1 = .error e) :
    (queryUnique s).1 = if e.isNoData then .ok [] else .error e := by
  rw [queryUnique, select?_of_select _ _ h, hrun]
  rfl

theorem queryUnique_of_answer {s : Session σ} (h : s.operation = .select) {rs : ResultSet}
    {labels : Option (List String)} (hrun : (runSelect s).1 = .ok (rs, labels)) :
    (queryUnique s).1 = rs.firstRecord labels := by
  rw [queryUnique, select?_of_select _ _ h, hrun]
  simp only [Except.bind]
  cases hfirst : rs.firstRecord labels with
  | ok record => rfl
  | error e =>
      obtain ⟨label, rfl⟩ := ResultSet.eq_decode_of_firstRecord hfirst
      rfl

/--
**A query for one row runs what a query for all of them runs.**  From the same session both
leave the same session behind, with the same requests made of its connection.  Where the one
gives all rows, the other gives the first of them, or the empty record; and where the one for
one row fails, the other fails alike.  An error of the query for all rows is one of the query
for one row too, unless it says that there is no data, which gives the empty record, or that
a row behind the first cannot be read, which is not noticed.
-/
theorem queryUnique_beside_query (s : Session (Traced σ)) (h : s.operation = .select) :
    (queryUnique s).2 = (query s).2 ∧
      (∀ records, (query s).1 = .ok records → (queryUnique s).1 = .ok (records.headD [])) ∧
      (∀ e, (queryUnique s).1 = .error e → (query s).1 = .error e) ∧
      ∀ e, (query s).1 = .error e →
        (queryUnique s).1 = .error e ∨
          (e.isNoData = true ∧ (queryUnique s).1 = .ok []) ∨
          ∃ rs labels record, (runSelect s).1 = .ok (rs, labels) ∧
            rs.FailsBehindFirst labels record e ∧ (queryUnique s).1 = .ok record := by
  have hquery := congrArg Prod.fst (query_of_select h)
  refine ⟨by rw [query_of_select h, queryUnique, select?_of_select _ _ h], ?_⟩
  -- both have run the same SELECT; what is left is how they read what came of it
  cases hrun : (runSelect s).1 with
  | error e =>
      rw [hrun] at hquery
      rw [queryUnique_of_unread h hrun, hquery]
      refine ⟨fun records hrecords => ?_, fun e' he' => ?_, fun e' he' => ?_⟩
      · cases hrecords
      · split at he' <;> cases he'
        rfl
      · obtain rfl : e = e' := Except.error.inj he'
        cases hdata : e.isNoData with
        | true => exact .inr (.inl ⟨rfl, if_pos rfl⟩)
        | false => exact .inl (if_neg Bool.false_ne_true)
  | ok answer =>
      obtain ⟨rs, labels⟩ := answer
      rw [hrun] at hquery
      rw [queryUnique_of_answer h hrun, hquery]
      refine ⟨fun records hrecords => ResultSet.firstRecord_of_records hrecords,
        fun e he => ?_, fun e he => ?_⟩
      · exact ResultSet.records_of_firstRecord_error he
      · rcases ResultSet.firstRecord_of_error he with hfirst | ⟨record, hfirst, hbehind⟩
        · exact .inl hfirst
        · exact .inr (.inr ⟨rs, labels, record, rfl, hbehind, hfirst⟩)

end Queries

/-- A SELECT whose second row has no cell for its only column. -/
def shelfWithGap : Session (Traced Scripted.Connection) :=
  run [.select ["title"], .source "book"] <| traced .postgreSql
    { script := { executeQuery :=
        [some (.ok { columns := ["title"], rows := [[.text "Dune"], []] })] } }

/-- The query for one row reads the first and does not get to the second. -/
theorem shelfWithGap_first :
    shelfWithGap.operation = .select ∧
      (query shelfWithGap).1 = .error (.decode "title" "column not found") ∧
      (queryUnique shelfWithGap).1 = .ok [("title", .text "Dune")] ∧
      (queryUnique shelfWithGap).2.backend.log = (query shelfWithGap).2.backend.log := by
  obtain ⟨hstate, -, -, -⟩ := queryUnique_beside_query shelfWithGap rfl
  exact ⟨rfl, rfl, rfl, congrArg (fun s => s.backend.log) hstate⟩

end Session

end SqlSession
