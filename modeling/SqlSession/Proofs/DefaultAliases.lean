/-
The aliases that come from the fields.

Without explicit aliases a SELECT labels every column after its field, and reads each row
under these labels.  A record has one entry for each label that differs from the others, so a
column is lost exactly where two fields have the same alias.

Where a label may hold a dot, the alias is the field.  Where it may not, the dots of a field
become underscores, and two fields that differ in nothing else have the same alias.
`default_aliases_keep_columns` says that nothing else makes them the same, and what the records
of a query are.
-/
import Mathlib.Data.Finset.Card
import SqlSession.Backend.Scripted
import SqlSession.Proofs.FirstRow

namespace SqlSession

/-! ### Fields with the same alias -/

namespace Sql

variable {d : Dialect} {a b : String} {fields : List String}

/-- The characters are the same, or one is a dot and the other an underscore. -/
def SameButDot (c c' : Char) : Prop :=
  c = c' ∨ c = '.' ∧ c' = '_' ∨ c = '_' ∧ c' = '.'

instance (c c' : Char) : Decidable (SameButDot c c') :=
  inferInstanceAs (Decidable (_ ∨ _))

/-- The texts are the same, up to dots in the one that are underscores in the other. -/
def SameButDots (a b : String) : Prop :=
  List.Forall₂ SameButDot a.toList b.toList

instance (a b : String) : Decidable (SameButDots a b) :=
  inferInstanceAs (Decidable (List.Forall₂ _ _ _))

theorem undotted_eq_iff {c c' : Char} :
    ((if c = '.' then '_' else c) = if c' = '.' then '_' else c') ↔ SameButDot c c' := by
  unfold SameButDot
  by_cases hc : c = '.'
  · by_cases hc' : c' = '.'
    · simp [hc, hc']
    · simp [hc, hc', eq_comm]
  · by_cases hc' : c' = '.'
    · simp [hc, hc']
    · simp [hc, hc']

theorem defaultAlias_eq_iff : defaultAlias d a = defaultAlias d b ↔
    if d.dottedLabels then a = b else SameButDots a b := by
  unfold defaultAlias
  split_ifs
  · rfl
  · rw [String.ofList_inj, ← List.forall₂_eq_eq_eq, List.forall₂_map_left_iff,
      List.forall₂_map_right_iff]
    simp only [undotted_eq_iff]
    rfl

/-- Distinct fields have distinct aliases, unless dots become underscores and two of the fields
are the same up to that. -/
theorem nodup_defaultAliases_iff (h : fields.Nodup) : (defaultAliases d fields).Nodup ↔
    d.dottedLabels = true ∨ fields.Pairwise fun a b => ¬SameButDots a b := by
  rw [defaultAliases, List.Nodup, List.pairwise_map]
  simp only [ne_eq, defaultAlias_eq_iff]
  cases hd : d.dottedLabels with
  | true => exact iff_of_true (by simpa [List.Nodup] using h) (.inl rfl)
  | false => simp

end Sql

/-! ### Entries of a record -/

namespace Record

variable {columns labels : List String} {row : List Value} {start record : Record}

theorem nodup_addCells (h : addCells columns row labels start = .ok record)
    (hstart : (start.map Prod.fst).Nodup) : (record.map Prod.fst).Nodup := by
  induction labels generalizing start with
  | nil =>
      cases h
      exact hstart
  | cons label rest ih =>
      unfold addCells at h
      split at h
      next v hv => exact ih h (Members.nodup_insert hstart)
      next => cases h

/-- The record of a row has one entry for all labels that are the same. -/
theorem length_ofRow (h : ofRow columns labels row = .ok record) :
    record.length = labels.toFinset.card := by
  have hnodup : (record.map Prod.fst).Nodup := nodup_addCells h List.nodup_nil
  have hsame : (record.map Prod.fst).toFinset = labels.toFinset := by
    ext name
    rw [List.mem_toFinset, List.mem_toFinset, (holds_ofRow h).names, List.mem_eraseDups]
  rw [← hsame, List.toFinset_card_of_nodup hnodup, List.length_map]

end Record

namespace ResultSet

variable {columns labels : List String} {rows : List (List Value)} {records : List Record}
  {record : Record} {label : String}

/-- A record has no more entries than there are labels, and as many exactly if the labels are
distinct. -/
theorem length_of_mem_records (h : recordsOfRows columns labels rows = .ok records)
    (hrecord : record ∈ records) :
    record.length ≤ labels.length ∧ (record.length = labels.length ↔ labels.Nodup) := by
  have hall := recordsOfRows_eq_ok_iff.mp h
  obtain ⟨i, hi, rfl⟩ := List.getElem_of_mem hrecord
  have hrow := (List.forall₂_iff_get.mp hall).2 i (hall.length_eq ▸ hi) hi
  have hcard : records[i].length = labels.toFinset.card := Record.length_ofRow hrow
  rw [hcard]
  exact ⟨List.toFinset_card_le labels, Multiset.toFinset_card_eq_card_iff_nodup⟩

theorem records_eq_zip (h : recordsOfRows columns columns rows = .ok records)
    (hcolumns : columns.Nodup) :
    records = rows.map fun row => columns.zip (row.map Value.normalize) := by
  have hzip : List.Forall₂ (fun row record => columns.zip (row.map Value.normalize) = record)
      rows records := (holds_recordsOfRows h).imp fun _ _ hrow => (hrow.eq_zip hcolumns).symm
  rw [← List.forall₂_map_left_iff, List.forall₂_eq_eq_eq] at hzip
  exact hzip.symm

theorem resolves_of_mem (h : label ∈ columns) : ∃ i < columns.length, Resolves columns label i := by
  have hsome : (columns.findIdx? (· == label)).isSome = true := by
    rw [List.findIdx?_isSome, List.any_eq_true]
    exact ⟨label, h, beq_self_eq_true label⟩
  obtain ⟨i, hi⟩ := Option.isSome_iff_exists.mp hsome
  obtain ⟨⟨c, hc, -⟩, -⟩ := findIdx?_eq_some_iff.mp hi
  refine ⟨i, (List.getElem?_eq_some_iff.mp hc).1, indexOf?_eq_some_iff.mp ?_⟩
  simp only [indexOf?, hi]

/-- Rows with a cell for every column can be read under the labels of the columns. -/
theorem exists_records_of_columns (hrows : ∀ row ∈ rows, columns.length ≤ row.length) :
    ∃ records, recordsOfRows columns columns rows = .ok records := by
  have hok := isOk_recordsOfRows_iff.mpr fun row hrow label hlabel => by
    obtain ⟨i, hi, hresolves⟩ := resolves_of_mem hlabel
    exact ⟨i, hresolves, hi.trans_le (hrows row hrow)⟩
  cases hread : recordsOfRows columns columns rows with
  | ok records => exact ⟨records, rfl⟩
  | error e =>
      rw [hread] at hok
      cases hok

end ResultSet

/-! ### A query under the aliases -/

namespace Session

variable {σ : Type} [Backend σ]

/-- An active SELECT of the fields, without explicit aliases, is answered by a cursor whose columns
are labelled as they are projected; every row has a cell for each column. -/
structure AnsweredAsProjected (p : Product) (fields : List String) (s : Session σ)
    (rs : ResultSet) : Prop where
  product : s.product = p
  active : s.operation = .select
  isOpen : s.isOpen = true
  selected : s.selecting.parts.fields = fields
  unaliased : s.selecting.parts.aliases = none
  nonempty : fields ≠ []
  answered : ∃ text statement b, s.draftText .select = .ok text ∧
    opened text s.params s.backend = (.ok statement, b) ∧
      (Backend.executeQuery (statement, b)).1 = .ok rs
  columns : rs.columns = Sql.defaultAliases p.dialect fields
  rows : ∀ row ∈ rs.rest, fields.length ≤ row.length

theorem runSelect_of_answered {p : Product} {fields : List String} {s : Session σ} {rs : ResultSet}
    (h : AnsweredAsProjected p fields s rs) :
    (runSelect s).1 = .ok (rs, some rs.columns) := by
  obtain ⟨text, statement, b, htext, hopened, hasked⟩ := h.answered
  have hlabels : s.selectLabels = .ok (some rs.columns) := by
    rw [selectLabels, Sql.readLabels, h.selected, h.unaliased,
      if_neg (by simpa using h.nonempty), dialect, h.product, h.columns]
    rfl
  have hrun : (runStatement text s.params Backend.executeQuery s.backend).1 = .ok rs := by
    simp only [runStatement, hopened]
    exact hasked
  have hconnection : (onConnection (runStatement text s.params Backend.executeQuery)
      (s.settle .select text)).1 = .ok rs := by
    rw [onConnection_of_open _ (by rw [settle_isOpen, h.isOpen]), settle_backend, hrun]
  rw [runSelect_of_text htext hlabels]
  exact congrArg Prod.fst (Action.bind_of_ok (Prod.ext hconnection rfl))

/--
**Where the aliases that come from the fields are distinct, no column is lost.**  For every product
and distinct fields they are distinct exactly if its labels may hold dots, or no two of the fields
are the same up to dots and underscores.  A query for the fields without explicit aliases, that is
answered by a cursor with the labels of its projection, gives one record for each row.  If the
aliases are distinct, each record has for its entries the aliases, with the cells of the row in
their normal form, column by column; and otherwise every record has fewer entries than there are
fields.
-/
theorem default_aliases_keep_columns (p : Product) (fields : List String)
    (hdistinct : fields.Nodup) :
    ((Sql.defaultAliases p.dialect fields).Nodup ↔
        p.dialect.dottedLabels = true ∨ fields.Pairwise fun a b => ¬Sql.SameButDots a b) ∧
      ∀ (σ : Type) [Backend σ] (s : Session σ) (rs : ResultSet),
        AnsweredAsProjected p fields s rs →
        ∃ records, (query s).1 = .ok records ∧ records.length = rs.rest.length ∧
          ((Sql.defaultAliases p.dialect fields).Nodup → records = rs.rest.map fun row =>
            (Sql.defaultAliases p.dialect fields).zip (row.map Value.normalize)) ∧
          ∀ record ∈ records, record.length ≤ fields.length ∧
            (record.length = fields.length ↔ (Sql.defaultAliases p.dialect fields).Nodup) := by
  refine ⟨Sql.nodup_defaultAliases_iff hdistinct, fun σ _ s rs h => ?_⟩
  have hlength : (Sql.defaultAliases p.dialect fields).length = fields.length := List.length_map ..
  obtain ⟨records, hread⟩ :=
    ResultSet.exists_records_of_columns fun row hrow => hlength ▸ h.rows row hrow
  have hquery : (query s).1 = .ok records := by
    rw [query_of_select h.active, runSelect_of_answered h, h.columns, ← hread, ← h.columns]
    rfl
  refine ⟨records, hquery, ?_, ResultSet.records_eq_zip hread, fun record hrecord => ?_⟩
  · exact (ResultSet.holds_recordsOfRows hread).length_eq.symm
  · rw [← hlength]
    exact ResultSet.length_of_mem_records hread hrecord

/-- A field whose dot becomes an underscore, beside another: both columns are in the record. -/
theorem dotted_field_keeps_column :
    let fields := ["book.id", "title"]
    let rs : ResultSet := { columns := ["book_id", "title"], rows := [[.text "1", .text "Dune"]] }
    let s := run [.select fields, .source "book"] <| traced .pervasive
      ({ script := { executeQuery := [some (.ok rs)] } } : Scripted.Connection)
    fields.Nodup ∧ AnsweredAsProjected .pervasive fields s rs ∧
      (query s).1 = .ok [[("book_id", .text "1"), ("title", .text "Dune")]] := by
  intro fields rs s
  have htext : s.draftText .select =
      .ok "select book.id \"book_id\", title \"title\" from book" := by decide
  have hanswered : AnsweredAsProjected .pervasive fields s rs :=
    { product := rfl, active := rfl, isOpen := rfl, selected := rfl, unaliased := rfl,
      nonempty := by decide,
      answered := ⟨_, _, _, htext, rfl, rfl⟩, columns := rfl, rows := by decide }
  have hdistinct : fields.Nodup := by decide
  obtain ⟨haliases, hrecords⟩ := default_aliases_keep_columns .pervasive fields hdistinct
  obtain ⟨records, hquery, -, hzip, -⟩ := hrecords _ s rs hanswered
  refine ⟨hdistinct, hanswered, hquery.trans ?_⟩
  rw [hzip (haliases.mpr (.inr (by decide)))]
  rfl

/-- Two fields that are one alias, and a record without the second column. -/
theorem dotted_names_share_alias :
    let fields := ["a.b", "a_b"]
    let rs : ResultSet := { columns := ["a_b", "a_b"], rows := [[.text "1", .text "2"]] }
    let s := run [.select fields, .source "book"] <| traced .pervasive
      ({ script := { executeQuery := [some (.ok rs)] } } : Scripted.Connection)
    fields.Nodup ∧ ¬(Sql.defaultAliases s.dialect fields).Nodup ∧
      (query s).1 = .ok [[("a_b", .text "1")]] :=
  ⟨by decide, by decide, rfl⟩

end Session

end SqlSession
