/-
The records of a result set.

A row becomes a record label by label.  `Resolves` says at which column a label is found
without searching for it: at the first that has exactly the label, and only where none has
it at the first that has it up to the case of ASCII letters.  The column may still lie
behind the end of a row, since rows are as long as the server sends them; `Found` says that
it does not.

Reading the rows fails at the first label of the first row that is not found there, and
otherwise gives one record for each row.  Moving the cursor from row to row and asking for
one label after the other comes to the same, which is `records_eq_next`.
-/
import Mathlib.Data.List.Forall2
import SqlSession.Proofs.Json.Rereading
import SqlSession.Session.Record

namespace SqlSession

/-! ### Names in order of their first occurrence -/

private theorem eraseDups_of_nodup {names : List String} (h : names.Nodup) :
    names.eraseDups = names := by
  induction names with
  | nil => rfl
  | cons name rest ih =>
      obtain ⟨hname, hrest⟩ := List.nodup_cons.mp h
      have hfilter : rest.filter (fun other => !other == name) = rest := by
        refine List.filter_eq_self.mpr fun other hother => ?_
        have hne : other ≠ name := fun heq => hname (heq ▸ hother)
        simpa using hne
      rw [List.eraseDups_cons, hfilter, ih hrest]

private theorem eraseDups_append_cons_of_mem {names rest : List String} {name : String}
    (h : name ∈ names) : (names ++ name :: rest).eraseDups = (names ++ rest).eraseDups := by
  rw [List.eraseDups_append, List.eraseDups_append, List.cons_removeAll, if_neg]
  simpa using h

namespace Members

variable {members : List (String × Json)}

theorem get?_cons (name other : String) (value : Json) (members : List (String × Json)) :
    get? ((name, value) :: members) other =
      if other = name then some value else get? members other := by
  unfold get?
  rw [List.lookup_cons]
  by_cases h : other = name
  · rw [if_pos h, beq_iff_eq.mpr h]
  · rw [if_neg h, beq_false_of_ne h]

theorem get?_insert (members : List (String × Json)) (name other : String) (value : Json) :
    get? (insert members name value) other =
      if other = name then some value else get? members other := by
  induction members with
  | nil => exact get?_cons name other value []
  | cons first rest ih =>
      obtain ⟨k, v⟩ := first
      unfold insert
      split
      next hk =>
        obtain rfl : k = name := hk
        rw [get?_cons, get?_cons]
        split <;> rfl
      next hk =>
        rw [get?_cons, get?_cons, ih]
        by_cases hother : other = k
        · rw [if_pos hother, if_pos hother, if_neg fun hname => hk (hother.symm.trans hname)]
        · rw [if_neg hother, if_neg hother]

/-- Where the names are distinct, a member is found under its name. -/
theorem get?_of_mem (h : (members.map Prod.fst).Nodup) {name : String} {value : Json}
    (hmem : (name, value) ∈ members) : get? members name = some value := by
  obtain ⟨before, after, rfl⟩ := List.append_of_mem hmem
  rw [List.map_append, List.map_cons] at h
  refine List.lookup_eq_some_iff.mpr ⟨before, after, rfl, fun m hm => ?_⟩
  have hname : name ∉ before.map Prod.fst := fun hin =>
    (List.nodup_append.mp h).2.2 name hin name (List.mem_cons_self ..) rfl
  have hne : name ≠ m.1 := fun heq => hname (heq ▸ List.mem_map_of_mem hm)
  simpa using hne

end Members

/-! ### Where a label is found -/

namespace ResultSet

/-- The label stands for the column at an index: the first that has exactly this label, or
where none has it, the first that has it up to the case of ASCII letters. -/
def Resolves (columns : List String) (label : String) (i : Nat) : Prop :=
  (columns[i]? = some label ∧ ∀ j < i, columns[j]? ≠ some label) ∨
    (label ∉ columns ∧ (∃ c, columns[i]? = some c ∧ Text.asciiCaseEq c label = true) ∧
      ∀ j < i, ∀ c, columns[j]? = some c → Text.asciiCaseEq c label = false)

/-- The row has a cell at the column for which the label stands. -/
def Found (columns : List String) (row : List Value) (label : String) : Prop :=
  ∃ i, Resolves columns label i ∧ i < row.length

variable {columns labels : List String} {row : List Value} {label : String}

theorem findIdx?_eq_some_iff {p : String → Bool} {i : Nat} :
    columns.findIdx? p = some i ↔
      (∃ c, columns[i]? = some c ∧ p c = true) ∧
        ∀ j < i, ∀ c, columns[j]? = some c → p c = false := by
  rw [List.findIdx?_eq_some_iff_getElem]
  constructor
  · rintro ⟨hi, hp, hfirst⟩
    refine ⟨⟨columns[i], List.getElem?_eq_getElem hi, hp⟩, fun j hj c hc => ?_⟩
    obtain ⟨hjlt, rfl⟩ := List.getElem?_eq_some_iff.mp hc
    exact eq_false_of_ne_true (hfirst j hj)
  · rintro ⟨⟨c, hc, hp⟩, hfirst⟩
    obtain ⟨hi, rfl⟩ := List.getElem?_eq_some_iff.mp hc
    refine ⟨hi, hp, fun j hj => ?_⟩
    exact ne_true_of_eq_false (hfirst j hj _ (List.getElem?_eq_getElem (hj.trans hi)))

theorem indexOf?_eq_some_iff {i : Nat} :
    indexOf? columns label = some i ↔ Resolves columns label i := by
  have hexact : ∀ {i : Nat}, columns.findIdx? (· == label) = some i ↔
      columns[i]? = some label ∧ ∀ j < i, columns[j]? ≠ some label := by
    intro i
    rw [findIdx?_eq_some_iff]
    refine and_congr ?_ (forall₂_congr fun j _ => ?_)
    · simp
    · exact ⟨fun h hj => by simpa using h label hj, fun h c hc => by
        have hne : c ≠ label := fun heq => h (heq ▸ hc)
        simpa using hne⟩
  unfold indexOf? Resolves
  cases hfind : columns.findIdx? (· == label) with
  | some k =>
      have hk := hexact.mp hfind
      have hmem : label ∈ columns := List.mem_of_getElem? hk.1
      constructor
      · intro h
        cases h
        exact .inl hk
      · rintro (h | ⟨hnot, -⟩)
        · exact hfind.symm.trans (hexact.mpr h)
        · exact absurd hmem hnot
  | none =>
      have hnot : label ∉ columns := fun hmem => by
        simpa using List.findIdx?_eq_none_iff.mp hfind label hmem
      rw [findIdx?_eq_some_iff]
      constructor
      · exact fun h => .inr ⟨hnot, h⟩
      · rintro (h | h)
        · exact absurd (List.mem_of_getElem? h.1) hnot
        · exact h.2

/-- A label stands for at most one column. -/
theorem Resolves.unique {i j : Nat} (hi : Resolves columns label i)
    (hj : Resolves columns label j) : i = j :=
  Option.some.inj ((indexOf?_eq_some_iff.mpr hi).symm.trans (indexOf?_eq_some_iff.mpr hj))

/-- Among distinct columns each label stands for its own. -/
theorem Resolves.eq_of_nodup (h : columns.Nodup) {i j : Nat} (hi : columns[i]? = some label)
    (hj : Resolves columns label j) : j = i := by
  rcases hj with ⟨hj, -⟩ | ⟨hnot, -⟩
  · obtain ⟨hlt, -⟩ := List.getElem?_eq_some_iff.mp hj
    exact (List.getElem?_inj hlt h).mp (hj.trans hi.symm)
  · exact absurd (List.mem_of_getElem? hi) hnot

theorem cell_eq_ok_iff {v : Value} :
    cell columns row label = .ok v ↔ ∃ i, Resolves columns label i ∧ row[i]? = some v := by
  simp only [← indexOf?_eq_some_iff, ← Option.bind_eq_some_iff, cell]
  split
  next w hw => rw [hw, Except.ok.injEq, Option.some.injEq]
  next hnone => simp only [hnone, reduceCtorEq]

theorem exists_cell_iff : (∃ v, cell columns row label = .ok v) ↔ Found columns row label := by
  simp only [cell_eq_ok_iff]
  constructor
  · rintro ⟨v, i, hi, hv⟩
    exact ⟨i, hi, (List.getElem?_eq_some_iff.mp hv).1⟩
  · rintro ⟨i, hi, hlt⟩
    exact ⟨row[i], i, hi, List.getElem?_eq_getElem hlt⟩

theorem cell_of_error {e : DbError} (h : cell columns row label = .error e) :
    ¬Found columns row label ∧ e = .decode label "column not found" := by
  refine ⟨fun hfound => ?_, ?_⟩
  · obtain ⟨v, hv⟩ := exists_cell_iff.mpr hfound
    rw [h] at hv
    cases hv
  · unfold cell at h
    split at h <;> cases h
    rfl

end ResultSet

open ResultSet

/-! ### The record of a row -/

namespace Record

variable {columns labels : List String} {row : List Value} {start record : Record}

/-- The record has the labels for its names, each at the place of its first occurrence, and
under each the normal form of the cell for which it stands. -/
structure Holds (columns labels : List String) (row : List Value) (record : Record) : Prop where
  names : record.map Prod.fst = labels.eraseDups
  values : ∀ label ∈ labels, ∃ i v, Resolves columns label i ∧ row[i]? = some v ∧
    Members.get? record label = some v.normalize

theorem names_addCells (h : addCells columns row labels start = .ok record)
    (hstart : (start.map Prod.fst).Nodup) :
    record.map Prod.fst = (start.map Prod.fst ++ labels).eraseDups := by
  induction labels generalizing start with
  | nil =>
      cases h
      rw [List.append_nil, eraseDups_of_nodup hstart]
  | cons label rest ih =>
      unfold addCells at h
      split at h
      next v hv =>
        rw [ih h (Members.nodup_insert hstart)]
        by_cases hmem : label ∈ start.map Prod.fst
        · rw [Members.names_insert_of_mem hmem, eraseDups_append_cons_of_mem hmem]
        · rw [Members.insert_of_notMem hmem, List.map_append, List.append_assoc]
          rfl
      next => cases h

/-- What is put under one label is not touched by the others. -/
theorem get?_addCells (h : addCells columns row labels start = .ok record) (name : String) :
    if name ∈ labels then
      ∃ v, cell columns row name = .ok v ∧ Members.get? record name = some v.normalize
    else Members.get? record name = Members.get? start name := by
  induction labels generalizing start with
  | nil =>
      cases h
      rw [if_neg List.not_mem_nil]
  | cons label rest ih =>
      unfold addCells at h
      split at h
      next v hv =>
        -- a label that comes again puts the same cell in its place, so the last one decides
        have hrest := ih h
        by_cases hin : name ∈ rest
        · rw [if_pos hin] at hrest
          rw [if_pos (List.mem_cons_of_mem _ hin)]
          exact hrest
        · rw [if_neg hin, Members.get?_insert] at hrest
          by_cases hname : name = label
          · subst hname
            rw [if_pos rfl] at hrest
            rw [if_pos (List.mem_cons_self ..)]
            exact ⟨v, hv, hrest⟩
          · rw [if_neg hname] at hrest
            rw [if_neg (by simp [hname, hin])]
            exact hrest
      next => cases h

/-- Reading a row fails at the first label that is not found in it. -/
theorem addCells_of_error {e : DbError} (h : addCells columns row labels start = .error e) :
    ∃ before label after, labels = before ++ label :: after ∧
      (∀ l ∈ before, Found columns row l) ∧ ¬Found columns row label ∧
        e = .decode label "column not found" := by
  induction labels generalizing start with
  | nil => cases h
  | cons label rest ih =>
      unfold addCells at h
      split at h
      next v hv =>
        obtain ⟨before, other, after, rfl, hbefore, hother⟩ := ih h
        refine ⟨label :: before, other, after, rfl, fun l hl => ?_, hother⟩
        rcases List.mem_cons.mp hl with rfl | hl
        · exact exists_cell_iff.mp ⟨v, hv⟩
        · exact hbefore l hl
      next hv =>
        cases h
        exact ⟨[], label, rest, rfl, fun l hl => absurd hl List.not_mem_nil, cell_of_error hv⟩

theorem holds_ofRow (h : ofRow columns labels row = .ok record) :
    Holds columns labels row record where
  names := names_addCells h List.nodup_nil
  values label hlabel := by
    have hvalue := get?_addCells h label
    rw [if_pos hlabel] at hvalue
    obtain ⟨v, hv, hget⟩ := hvalue
    obtain ⟨i, hi, hcell⟩ := cell_eq_ok_iff.mp hv
    exact ⟨i, v, hi, hcell, hget⟩

theorem Holds.found (h : Holds columns labels row record) :
    ∀ label ∈ labels, Found columns row label := by
  intro label hlabel
  obtain ⟨i, v, hi, hv, -⟩ := h.values label hlabel
  exact ⟨i, hi, (List.getElem?_eq_some_iff.mp hv).1⟩

/-- Under the labels of distinct columns the record of a row is the row itself. -/
theorem Holds.eq_zip (hcolumns : columns.Nodup) (h : Holds columns columns row record) :
    record = columns.zip (row.map Value.normalize) := by
  have hnames : record.map Prod.fst = columns := h.names.trans (eraseDups_of_nodup hcolumns)
  have hlength : record.length = columns.length := by rw [← hnames, List.length_map]
  have hentry : ∀ i (hi : i < record.length), ∃ v, row[i]? = some v ∧
      columns[i]? = some record[i].1 ∧ record[i].2 = v.normalize := by
    intro i hi
    have hlabel : columns[i]? = some record[i].1 := by
      rw [← hnames, List.getElem?_map, List.getElem?_eq_getElem hi]
      rfl
    obtain ⟨j, v, hj, hv, hget⟩ := h.values _ (List.mem_of_getElem? hlabel)
    obtain rfl := hj.eq_of_nodup hcolumns hlabel
    have hmem := Members.get?_of_mem (hnames ▸ hcolumns) (List.getElem_mem hi)
    exact ⟨v, hv, hlabel, Option.some.inj (hmem.symm.trans hget)⟩
  refine List.ext_getElem? fun i => ?_
  by_cases hi : i < record.length
  · obtain ⟨v, hv, hlabel, hvalue⟩ := hentry i hi
    rw [List.getElem?_eq_getElem hi]
    symm
    rw [List.getElem?_zip_eq_some]
    exact ⟨hlabel, by rw [List.getElem?_map, hv, hvalue]; rfl⟩
  · rw [List.getElem?_eq_none (Nat.le_of_not_lt hi), List.getElem?_eq_none]
    rw [List.length_zip]
    omega

end Record

/-! ### The records of the rows -/

namespace ResultSet

variable {columns labels : List String} {rows : List (List Value)} {records : List Record}

/-- The error of the first row in which a label is not found, which is about the first such
label. -/
def FirstFailure (columns labels : List String) (rows : List (List Value)) (e : DbError) : Prop :=
  ∃ before row after, rows = before ++ row :: after ∧
    (∀ r ∈ before, ∀ label ∈ labels, Found columns r label) ∧
      ∃ taken label left, labels = taken ++ label :: left ∧
        (∀ l ∈ taken, Found columns row l) ∧ ¬Found columns row label ∧
          e = .decode label "column not found"

theorem recordsOfRows_eq_ok_iff : recordsOfRows columns labels rows = .ok records ↔
    List.Forall₂ (fun row record => Record.ofRow columns labels row = .ok record) rows records := by
  induction rows generalizing records with
  | nil =>
      rw [List.forall₂_nil_left_iff, recordsOfRows, Except.ok.injEq]
      exact eq_comm
  | cons row rest ih =>
      rw [List.forall₂_cons_left_iff]
      unfold recordsOfRows
      cases hrow : Record.ofRow columns labels row with
      | error e => simp
      | ok record =>
          cases hrest : recordsOfRows columns labels rest with
          | error e =>
              simp only [← ih, hrest, reduceCtorEq, false_and, and_false, exists_false]
          | ok more =>
              simp only [← ih, hrest, Except.ok.injEq]
              constructor
              · rintro rfl
                exact ⟨record, more, rfl, rfl, rfl⟩
              · rintro ⟨_, _, rfl, rfl, rfl⟩
                rfl

theorem holds_recordsOfRows (h : recordsOfRows columns labels rows = .ok records) :
    List.Forall₂ (Record.Holds columns labels) rows records :=
  (recordsOfRows_eq_ok_iff.mp h).imp fun _ _ => Record.holds_ofRow

theorem firstFailure_recordsOfRows {e : DbError}
    (h : recordsOfRows columns labels rows = .error e) : FirstFailure columns labels rows e := by
  induction rows with
  | nil => cases h
  | cons row rest ih =>
      unfold recordsOfRows at h
      split at h
      next hrow =>
        cases h
        exact ⟨[], row, rest, rfl, fun r hr => absurd hr List.not_mem_nil,
          Record.addCells_of_error hrow⟩
      next record hrecord =>
        split at h <;> cases h
        next hmore =>
          obtain ⟨before, other, after, rfl, hbefore, hfails⟩ := ih hmore
          refine ⟨row :: before, other, after, rfl, fun r hr => ?_, hfails⟩
          rcases List.mem_cons.mp hr with rfl | hr
          · exact (Record.holds_ofRow hrecord).found
          · exact hbefore r hr

theorem FirstFailure.not_found {e : DbError} (h : FirstFailure columns labels rows e) :
    ∃ row ∈ rows, ∃ label ∈ labels, ¬Found columns row label := by
  obtain ⟨before, row, after, rfl, -, taken, label, left, rfl, -, hnot, -⟩ := h
  exact ⟨row, by simp, label, by simp, hnot⟩

theorem FirstFailure.eq_decode {e : DbError} (h : FirstFailure columns labels rows e) :
    ∃ label, e = .decode label "column not found" := by
  obtain ⟨-, -, -, -, -, -, label, -, -, -, -, he⟩ := h
  exact ⟨label, he⟩

/-- Every label is found in every row exactly if there is no row, or each label stands for a
column that every row has. -/
theorem found_iff :
    (∀ row ∈ rows, ∀ label ∈ labels, Found columns row label) ↔
      rows = [] ∨
        ∀ label ∈ labels, ∃ i, Resolves columns label i ∧ ∀ row ∈ rows, i < row.length := by
  constructor
  · intro h
    cases rows with
    | nil => exact .inl rfl
    | cons first rest =>
        refine .inr fun label hlabel => ?_
        obtain ⟨i, hi, -⟩ := h first (List.mem_cons_self ..) label hlabel
        refine ⟨i, hi, fun row hrow => ?_⟩
        obtain ⟨j, hj, hlt⟩ := h row hrow label hlabel
        rwa [hi.unique hj]
  · rintro (rfl | h) row hrow label hlabel
    · cases hrow
    · obtain ⟨i, hi, hlt⟩ := h label hlabel
      exact ⟨i, hi, hlt row hrow⟩

theorem isOk_recordsOfRows_iff : (recordsOfRows columns labels rows).isOk = true ↔
    ∀ row ∈ rows, ∀ label ∈ labels, Found columns row label := by
  cases h : recordsOfRows columns labels rows with
  | ok records =>
      have hholds := holds_recordsOfRows h
      refine iff_of_true rfl fun row hrow => ?_
      obtain ⟨i, hi, rfl⟩ := List.getElem_of_mem hrow
      have hget := (List.forall₂_iff_get.mp hholds).2 i hi (hholds.length_eq ▸ hi)
      exact hget.found
  | error e =>
      obtain ⟨row, hrow, label, hlabel, hnot⟩ := (firstFailure_recordsOfRows h).not_found
      exact iff_of_false nofun fun hall => hnot (hall row hrow label hlabel)

/--
**The records of a result set.**  Reading a result set from its start succeeds exactly if
there is no row, or every label stands for a column that every row has.  It then gives one
record for each row, in order, with the labels for its names and under each the normal form
of the cell for which the label stands.  Otherwise it fails with the error of the first row,
and in it of the first label, that lacks a cell.  Under the labels of distinct columns, each
record is its row, column by column.
-/
theorem records_of_fresh (columns : List String) (rows : List (List Value))
    (labels : Option (List String)) :
    ((({ columns, rows } : ResultSet).records labels).isOk = true ↔
        rows = [] ∨ ∀ label ∈ labels.getD columns,
          ∃ i, Resolves columns label i ∧ ∀ row ∈ rows, i < row.length) ∧
      (∀ records, ({ columns, rows } : ResultSet).records labels = .ok records →
        List.Forall₂ (Record.Holds columns (labels.getD columns)) rows records) ∧
      (∀ e, ({ columns, rows } : ResultSet).records labels = .error e →
        FirstFailure columns (labels.getD columns) rows e) ∧
      (columns.Nodup → ∀ records, ({ columns, rows } : ResultSet).records none = .ok records →
        records = rows.map fun row => columns.zip (row.map Value.normalize)) := by
  refine ⟨isOk_recordsOfRows_iff.trans found_iff, fun records h => holds_recordsOfRows h,
    fun e h => firstFailure_recordsOfRows h, fun hcolumns records h => ?_⟩
  have hholds : List.Forall₂ (Record.Holds columns columns) rows records := holds_recordsOfRows h
  have hzip : List.Forall₂ (fun row record => columns.zip (row.map Value.normalize) = record)
      rows records := hholds.imp fun row record hrecord => (hrecord.eq_zip hcolumns).symm
  rw [← List.forall₂_map_left_iff, List.forall₂_eq_eq_eq] at hzip
  exact hzip.symm

/-- Two columns whose names differ in case only, read under their own labels. -/
theorem records_of_case_variants :
    ({ columns := ["id", "ID"], rows := [[.int 1, .null]] } : ResultSet).records none =
      .ok [["id", "ID"].zip ([.int 1, .null].map Value.normalize)] := by
  obtain ⟨hok, -, -, hzip⟩ := records_of_fresh ["id", "ID"] [[.int 1, .null]] none
  have hread := hok.mpr <| .inr fun label hlabel => by
    rcases List.mem_pair.mp hlabel with rfl | rfl
    · exact ⟨0, indexOf?_eq_some_iff.mp rfl, by simp⟩
    · exact ⟨1, indexOf?_eq_some_iff.mp rfl, by simp⟩
  cases h : ({ columns := ["id", "ID"], rows := [[.int 1, .null]] } : ResultSet).records none with
  | ok records =>
      rw [hzip (by decide) records h]
      rfl
  | error e =>
      rw [h] at hread
      cases hread

/-! ### Moving the cursor -/

variable {rs : ResultSet} {row : List Value} {rest : List (List Value)}

/-- The record of the row that the cursor is on, asked for label by label. -/
def recordHere (rs : ResultSet) (labels : List String) : Except DbError Record :=
  labels.foldlM
    (fun record label => (rs.get label).map fun v => Members.insert record label v.normalize) []

theorem next_of_rest_nil (h : rs.rest = []) : rs.next.1 = false := by
  have hle : rs.rows.length ≤ rs.position := List.drop_eq_nil_iff.mp h
  rw [next, if_neg (Nat.not_lt.mpr hle)]

/-- The cursor goes to the first row that it has not entered, and leaves the others. -/
theorem next_of_rest_cons (h : rs.rest = row :: rest) :
    rs.next.1 = true ∧ rs.next.2.columns = rs.columns ∧ rs.next.2.current = .ok row ∧
      rs.next.2.rest = rest := by
  have hlt : rs.position < rs.rows.length := by
    refine Nat.lt_of_not_le fun hle => ?_
    have hnil : rs.rest = [] := List.drop_eq_nil_iff.mpr hle
    rw [hnil] at h
    cases h
  have hdrop : rs.rows[rs.position] :: rs.rows.drop (rs.position + 1) = row :: rest :=
    (List.drop_eq_getElem_cons hlt).symm.trans h
  obtain ⟨hrow, hrest⟩ := List.cons.inj hdrop
  rw [next, if_pos hlt]
  refine ⟨rfl, rfl, ?_, hrest⟩
  simp only [current, List.getElem?_eq_getElem hlt, hrow]

theorem recordHere_of_current (h : rs.current = .ok row) (labels : List String) :
    rs.recordHere labels = Record.ofRow rs.columns labels row := by
  have hget : ∀ label, rs.get label = cell rs.columns row label := fun label => by
    simp only [get, h]
  unfold recordHere Record.ofRow
  generalize ([] : Record) = start
  induction labels generalizing start with
  | nil => rfl
  | cons label labels ih =>
      rw [List.foldlM_cons, hget, Record.addCells]
      cases cell rs.columns row label with
      | ok v => exact ih _
      | error e => rfl

/-- The records of a result set are those that a caller gets who moves the cursor until there
is no further row and reads each row under every label: no row is passed over, and none is
read twice. -/
theorem records_eq_next (rs : ResultSet) (labels : List String) :
    rs.records (some labels) =
      if rs.next.1 then do
        let record ← rs.next.2.recordHere labels
        let records ← rs.next.2.records (some labels)
        return record :: records
      else .ok [] := by
  unfold records
  cases h : rs.rest with
  | nil =>
      rw [next_of_rest_nil h]
      rfl
  | cons row rest =>
      obtain ⟨hnext, hcolumns, hcurrent, hrest⟩ := next_of_rest_cons h
      rw [hnext, if_pos rfl, recordHere_of_current hcurrent, hcolumns, hrest]
      simp only [readLabels, Option.getD_some, recordsOfRows]
      cases Record.ofRow rs.columns labels row with
      | error e => rfl
      | ok record =>
          cases recordsOfRows rs.columns labels rest with
          | error e => rfl
          | ok records => rfl

end ResultSet

end SqlSession
