/-
What a description says.

A description puts four answers together: the listing of the base tables, the columns of the
primary key, the members of the indexes, and the rows that describe the columns.  `Describes`
says what a column has to say of its row, given the other three; nothing in it goes by the order
in which the answers are read, by the sets that are made of them or by NULLs that stand between
them.

The source may answer as it likes, and differently each time.  Three of the answers are those
that it gives during the description.  The listing may be older: it is the first one that a
description could read, and `keptListing` follows the source through the history to that moment.
No description takes it back, not even one that fails.
-/
import Mathlib.Data.List.Forall2
import SqlSession.Proofs.Catalog.KeptListing

namespace SqlSession.Catalog

variable {σ α : Type} [Backend σ]

/-! ### What stands in an answer -/

/-- The rows of an answer that its cursor has not entered, each under the labels. -/
def rowsOf (rs : ResultSet) : List Row :=
  rs.rest.map (Row.mk rs.columns)

/-- The row shows the text under the label. -/
def Row.Shows (row : Row) (label s : String) : Prop :=
  row.text? label = .ok (some s)

/-- A row of the answer shows the text under the label. -/
def Names (rs : ResultSet) (label s : String) : Prop :=
  ∃ row ∈ rowsOf rs, row.Shows label s

/-- A row of the answer shows the name as that of a base table. -/
def NamesTable (rs : ResultSet) (name : String) : Prop :=
  ∃ row ∈ rowsOf rs, row.Shows "TABLE_NAME" name ∧
    ∃ type, row.Shows "TABLE_TYPE" type ∧ Text.asciiCaseEq type "TABLE" = true

theorem Row.text_eq_ok_iff {row : Row} {label s : String} :
    row.text label = .ok s ↔ row.Shows label s := by
  unfold Row.text Row.Shows
  cases row.text? label with
  | error e => simp
  | ok value => cases value <;> simp

theorem Row.int_eq_ok_iff {row : Row} {label : String} {n : Int64} :
    row.int label = .ok n ↔
      ∃ value, ResultSet.cellInt row.columns row.cells label = .ok value ∧ n = value.getD 0 := by
  unfold Row.int
  cases ResultSet.cellInt row.columns row.cells label with
  | error e => simp [Except.map, Except.mapError]
  | ok value => simp [Except.map, Except.mapError, eq_comm]

/-! ### Reading all rows -/

/-- If all rows can be read, what is read is what each of them gives, in order. -/
theorem map_of_readRows {read : Row → Except CatalogError α} {rs : ResultSet} {xs : List α}
    (h : readRows read rs = .ok xs) : (rowsOf rs).map read = xs.map Except.ok := by
  rw [rowsOf, List.map_map]
  unfold readRows at h
  generalize rs.rest = rows at h ⊢
  induction rows generalizing xs with
  | nil =>
      cases h
      rfl
  | cons cells rows ih =>
      rw [List.mapM_cons] at h
      cases hread : read ⟨rs.columns, cells⟩ with
      | error e =>
          rw [hread] at h
          cases h
      | ok x =>
          cases hrest : rows.mapM fun cells => read ⟨rs.columns, cells⟩ with
          | error e =>
              rw [hread, hrest] at h
              cases h
          | ok rest =>
              rw [hread, hrest] at h
              cases h
              rw [List.map_cons, List.map_cons, ih hrest, Function.comp_apply, hread]

theorem mem_of_readRows {read : Row → Except CatalogError α} {rs : ResultSet} {xs : List α}
    (h : readRows read rs = .ok xs) {x : α} : x ∈ xs ↔ ∃ row ∈ rowsOf rs, read row = .ok x := by
  rw [← List.mem_map, map_of_readRows h,
    List.mem_map_of_injective fun _ _ => Except.ok.inj]

theorem forall₂_of_readRows {read : Row → Except CatalogError α} {rs : ResultSet} {xs : List α}
    (h : readRows read rs = .ok xs) :
    List.Forall₂ (fun row x => read row = .ok x) (rowsOf rs) xs := by
  rw [← List.forall₂_map_left_iff (R := fun r x => r = Except.ok x),
    ← List.forall₂_map_right_iff, List.forall₂_eq_eq_eq]
  exact map_of_readRows h

theorem mem_columnValues {label : String} {rs : ResultSet} {names : List String}
    (h : columnValues label rs = .ok names) (s : String) : s ∈ names ↔ Names rs label s := by
  unfold columnValues at h
  cases hread : readRows (Row.text? · label) rs with
  | error e =>
      rw [hread] at h
      cases h
  | ok values =>
      rw [hread] at h
      cases h
      simp only [List.mem_filterMap, id, exists_eq_right, mem_of_readRows hread]
      rfl

theorem baseTableOf_eq_ok_some_iff {row : Row} {name : String} :
    baseTableOf row = .ok (some name) ↔ row.Shows "TABLE_NAME" name ∧
      ∃ type, row.Shows "TABLE_TYPE" type ∧ Text.asciiCaseEq type "TABLE" = true := by
  have hempty : Text.asciiCaseEq "" "TABLE" = false := by decide
  unfold baseTableOf
  rw [← Row.text_eq_ok_iff]
  unfold Row.Shows
  cases row.text? "TABLE_TYPE" with
  | error e => simp
  | ok type =>
      cases type with
      | none => simp [hempty]
      | some type =>
          cases row.text "TABLE_NAME" <;>
            by_cases htype : Text.asciiCaseEq type "TABLE" = true <;> simp [htype, Except.map]

theorem mem_baseTableNames {rs : ResultSet} {names : List String}
    (h : baseTableNames rs = .ok names) (name : String) : name ∈ names ↔ NamesTable rs name := by
  unfold baseTableNames at h
  cases hread : readRows baseTableOf rs with
  | error e =>
      rw [hread] at h
      cases h
  | ok values =>
      rw [hread] at h
      cases h
      simp only [List.mem_filterMap, id, exists_eq_right, mem_of_readRows hread,
        baseTableOf_eq_ok_some_iff]
      rfl

/-! ### What a column says of its row -/

/-- The column is what its row says, beside the listing of the base tables, the primary key and
the indexes. -/
structure Describes (listing keys indexes : ResultSet) (row : Row) (c : Column) : Prop where
  name : row.Shows "COLUMN_NAME" c.name
  /-- Where the row has no size, it is 0. -/
  size : ∃ size, ResultSet.cellInt row.columns row.cells "COLUMN_SIZE" = .ok size ∧
    c.size = size.getD 0
  /-- A row without a code has the code 0, and one without a type name an empty one. -/
  type : ∃ code typeName, ResultSet.cellInt row.columns row.cells "DATA_TYPE" = .ok code ∧
    row.text? "TYPE_NAME" = .ok typeName ∧
    c.type = .ofColumn ⟨(code.getD 0).toInt⟩ (typeName.getD "")
  nullable : c.nullable = true ↔
    ∃ s, row.Shows "IS_NULLABLE" s ∧ Text.asciiCaseEq s "yes" = true
  primaryKey : c.primaryKey = true ↔ Names keys "COLUMN_NAME" c.name
  indexed : c.indexed = true ↔ Names indexes "COLUMN_NAME" c.name ∧ c.name ≠ "id"
  references : ∀ base, c.references = some base ↔
    base ≠ "" ∧ c.name = base ++ "_id" ∧ NamesTable listing base

/-- What is known of a table is what the answers name. -/
structure Surroundings.From (known : Surroundings) (listing keys indexes : ResultSet) : Prop where
  baseTables : baseTableNames listing = .ok known.baseTables
  primaryKey : columnValues "COLUMN_NAME" keys = .ok known.primaryKey
  indexed : columnValues "COLUMN_NAME" indexes = .ok known.indexed

theorem describes_of_columnOf {known : Surroundings} {listing keys indexes : ResultSet} {row : Row}
    {c : Column} (hknown : known.From listing keys indexes) (h : columnOf known row = .ok c) :
    Describes listing keys indexes row c := by
  unfold columnOf at h
  cases hname : row.text "COLUMN_NAME" with
  | error e => rw [hname] at h; cases h
  | ok name =>
    cases hcode : row.int "DATA_TYPE" with
    | error e => rw [hname, hcode] at h; cases h
    | ok code =>
      cases htype : row.text? "TYPE_NAME" with
      | error e => rw [hname, hcode, htype] at h; cases h
      | ok typeName =>
        rw [hname, hcode, htype] at h
        dsimp only [bind, Except.bind] at h
        split at h
        · cases h
        cases hsize : row.int "COLUMN_SIZE" with
        | error e => rw [hsize] at h; cases h
        | ok size =>
          cases hnullable : row.text? "IS_NULLABLE" with
          | error e => rw [hsize, hnullable] at h; cases h
          | ok nullable =>
            rw [hsize, hnullable] at h
            cases h
            obtain ⟨code', hcode', rfl⟩ := Row.int_eq_ok_iff.mp hcode
            exact {
              name := Row.text_eq_ok_iff.mp hname
              size := Row.int_eq_ok_iff.mp hsize
              type := ⟨code', typeName, hcode', htype, rfl⟩
              nullable := by
                simp only [Row.Shows, hnullable]
                cases nullable <;> simp
              primaryKey := by
                rw [List.contains_iff_mem, mem_columnValues hknown.primaryKey]
              indexed := by
                simp only [Bool.and_eq_true, bne_iff_ne, List.contains_iff_mem,
                  mem_columnValues hknown.indexed, and_comm]
              references := fun base => by
                simp only [Option.filter_eq_some_iff, referenceName?_eq_some_iff,
                  List.contains_iff_mem, mem_baseTableNames hknown.baseTables, and_assoc] }

namespace Introspector

/-! ### Asking

A question is put to the source as it stands, and the answer read leaves the listing alone.
-/

theorem ask_eq_ok {request : CatalogRequest} {read : ResultSet → Except CatalogError α}
    {i j : Introspector σ} {x : α} (h : ask request read i = (.ok x, j)) :
    ∃ rs, Backend.catalog request i.backend = (.ok rs, j.backend) ∧ read rs = .ok x := by
  unfold ask at h
  split at h
  · rename_i rs b hrs
    obtain ⟨hx, rfl⟩ := Prod.mk.inj h
    exact ⟨rs, hrs, hx⟩
  · cases h

@[simp] theorem baseTables_ask (request : CatalogRequest)
    (read : ResultSet → Except CatalogError α) (i : Introspector σ) :
    (ask request read i).2.baseTables = i.baseTables := by
  unfold ask
  split <;> rfl

/-- The three questions about the table itself, one after the other, with their answers. -/
def Consulted (catalog schema : Option String) (table : String) (b b' : σ)
    (keys indexes columns : ResultSet) : Prop :=
  ∃ b₁ b₂, Backend.catalog (.primaryKeys catalog schema table) b = (.ok keys, b₁) ∧
    Backend.catalog (.indexInfo catalog schema table) b₁ = (.ok indexes, b₂) ∧
    Backend.catalog (.columns catalog schema table) b₂ = (.ok columns, b')

/-- A description that succeeds has put its four answers together. -/
theorem describe_eq_ok {catalog schema : Option String} {table : String} {i : Introspector σ}
    {t : Table} (h : (describe catalog schema table i).1 = .ok t) :
    ∃ known keys indexes columns,
      (knownTables catalog schema i).1 = .ok known.baseTables ∧
      columnValues "COLUMN_NAME" keys = .ok known.primaryKey ∧
      columnValues "COLUMN_NAME" indexes = .ok known.indexed ∧
      Consulted catalog schema table (knownTables catalog schema i).2.backend
        (describe catalog schema table i).2.backend keys indexes columns ∧
      readRows (columnOf known) columns = .ok t.columns ∧
      t = { catalog := catalog.getD "", schema := schema.getD "", name := table, type := "TABLE",
            columns := t.columns } := by
  unfold describe surroundings at h ⊢
  rcases hlisted : knownTables catalog schema i with ⟨e | names, i₁⟩ <;>
    simp only [hlisted] at h ⊢
  · cases h
  rcases hkeys : primaryKey catalog schema table i₁ with ⟨e | key, i₂⟩ <;>
    simp only [hkeys] at h ⊢
  · cases h
  rcases hindexes : indexedColumns catalog schema table i₂ with ⟨e | indexed, i₃⟩ <;>
    simp only [hindexes] at h ⊢
  · cases h
  rcases hcolumns : ask (.columns catalog schema table)
      (readRows (columnOf ⟨names, key, indexed⟩)) i₃ with ⟨e | columns, i₄⟩ <;>
    simp only [hcolumns] at h ⊢
  · cases h
  cases h
  obtain ⟨keys, hkeys, hkey⟩ := ask_eq_ok hkeys
  obtain ⟨indexes, hindexes, hindexed⟩ := ask_eq_ok hindexes
  obtain ⟨rows, hrows, hread⟩ := ask_eq_ok hcolumns
  exact ⟨⟨names, key, indexed⟩, keys, indexes, rows, rfl, hkey, hindexed,
    ⟨_, _, hkeys, hindexes, hrows⟩, hread, rfl⟩

/-! ### The listing that is kept -/

/-- The listing that an enquiry has read for the introspector to keep, if it is a description,
none is kept yet and the listing can be read. -/
def newListing? (e : Enquiry) (i : Introspector σ) : Option ResultSet :=
  match e, i.baseTables with
  | .describe catalog schema _, none =>
    (Backend.catalog (.tables catalog schema) i.backend).1.toOption.filter
      fun rs => (baseTableNames rs).isOk
  | _, _ => none

/-- The listing that is kept after some enquiries: the first one that was read. -/
def keptListing (i : Introspector σ) : List Enquiry → Option ResultSet
  | [] => none
  | e :: past => (newListing? e i).or (keptListing (i.enquire e) past)

/-- What is kept is the names that the listing names. -/
def Keeps (listing : Option ResultSet) (i : Introspector σ) : Prop :=
  i.baseTables.map Except.ok = listing.map baseTableNames

omit [Backend σ] in
theorem keeps_fresh (b : σ) : Keeps none (fresh b) := rfl

theorem knownTables_of_kept (catalog schema : Option String) {i : Introspector σ}
    {names : List String} (h : i.baseTables = some names) :
    knownTables catalog schema i = (.ok names, i) := by
  unfold knownTables
  rw [h]

/-- The base tables that serve a description are kept by then. -/
theorem baseTables_of_knownTables {catalog schema : Option String} {i : Introspector σ}
    {names : List String} (h : (knownTables catalog schema i).1 = .ok names) :
    (knownTables catalog schema i).2.baseTables = some names := by
  unfold knownTables at h ⊢
  split
  · rename_i names' hkept
    simp only [hkept] at h
    cases h
    exact hkept
  · rename_i hkept
    simp only [hkept] at h
    split <;> rename_i hlisted <;> rw [hlisted] at h <;> cases h
    rfl

theorem baseTables_describe (catalog schema : Option String) (table : String)
    (i : Introspector σ) : (describe catalog schema table i).2.baseTables =
      (knownTables catalog schema i).2.baseTables := by
  unfold describe surroundings
  rcases hlisted : knownTables catalog schema i with ⟨e | names, i₁⟩ <;> simp only
  have hkeys := baseTables_ask (.primaryKeys catalog schema table) (columnValues "COLUMN_NAME") i₁
  rcases h : primaryKey catalog schema table i₁ with ⟨e | key, i₂⟩ <;>
    simp only [primaryKey] at h <;> rw [h] at hkeys <;> simp only
  · exact hkeys
  have hindexes := baseTables_ask (.indexInfo catalog schema table) (columnValues "COLUMN_NAME") i₂
  rcases h : indexedColumns catalog schema table i₂ with ⟨e | indexed, i₃⟩ <;>
    simp only [indexedColumns] at h <;> rw [h] at hindexes <;> simp only
  · exact hindexes.trans hkeys
  have hcolumns := baseTables_ask (.columns catalog schema table)
    (readRows (columnOf ⟨names, key, indexed⟩)) i₃
  rcases h : ask (.columns catalog schema table)
      (readRows (columnOf ⟨names, key, indexed⟩)) i₃ with ⟨e | columns, i₄⟩ <;>
    rw [h] at hcolumns <;> exact hcolumns.trans (hindexes.trans hkeys)

/-- A listing that is kept stays; without one, a description keeps what it can read. -/
theorem Keeps.knownTables {listing : Option ResultSet} {i : Introspector σ}
    (h : Keeps listing i) (catalog schema : Option String) (table : String) :
    Keeps (listing.or (newListing? (.describe catalog schema table) i))
      (knownTables catalog schema i).2 := by
  cases hkept : i.baseTables with
  | some names =>
      have hnone : newListing? (.describe catalog schema table) i = none := by
        simp only [newListing?, hkept]
      rwa [knownTables_of_kept catalog schema hkept, hnone, Option.or_none]
  | none =>
      have hlisting : listing = none := by
        unfold Keeps at h
        rw [hkept] at h
        exact Option.map_eq_none_iff.mp h.symm
      unfold Introspector.knownTables Keeps
      simp only [hlisting, Option.none_or, newListing?, hkept, tables, ask]
      rcases Backend.catalog (.tables catalog schema) i.backend with ⟨e | rs, b⟩
      · rfl
      · simp only [Except.toOption]
        cases hnames : baseTableNames rs with
        | error e =>
            rw [Option.filter_some_neg (by rw [hnames]; rfl)]
            rfl
        | ok names =>
            rw [Option.filter_some_pos (by rw [hnames]; rfl)]
            exact congrArg some hnames.symm

theorem Keeps.enquire {listing : Option ResultSet} {i : Introspector σ} (h : Keeps listing i)
    (e : Enquiry) : Keeps (listing.or (newListing? e i)) (i.enquire e) := by
  have hask {α : Type} (request : CatalogRequest) (read : ResultSet → Except CatalogError α) :
      Keeps (listing.or none) (ask request read i).2 := by
    rw [Option.or_none, Keeps, baseTables_ask]
    exact h
  cases e with
  | catalogs => exact hask _ _
  | schemas => exact hask _ _
  | tables catalog schema => exact hask _ _
  | primaryKey catalog schema table => exact hask _ _
  | indexedColumns catalog schema table => exact hask _ _
  | describe catalog schema table =>
      rw [Keeps, Introspector.enquire, baseTables_describe]
      exact h.knownTables catalog schema table

theorem Keeps.enquireAll {listing : Option ResultSet} {i : Introspector σ} (h : Keeps listing i)
    (past : List Enquiry) : Keeps (listing.or (keptListing i past)) (i.enquireAll past) := by
  induction past generalizing listing i with
  | nil => rwa [keptListing, Option.or_none]
  | cons e past ih =>
      rw [keptListing, ← Option.or_assoc]
      exact ih (h.enquire e)

theorem keptListing_append (i : Introspector σ) (past : List Enquiry) (e : Enquiry) :
    keptListing i (past ++ [e]) = (keptListing i past).or (newListing? e (i.enquireAll past)) := by
  induction past generalizing i with
  | nil => rw [List.nil_append, keptListing, keptListing, keptListing, Option.or_none]; rfl
  | cons e' past ih =>
      rw [List.cons_append, keptListing, ih, keptListing, Option.or_assoc]
      rfl

/--
**A description says what its answers say.**  Take any source and any enquiries before, and a
description that succeeds.  Then there is a listing that the introspector keeps, the first that a
description could read, and the source has just answered which columns are in the primary key,
which are in an index, and what the columns are; the table has one column for each row of the
last answer, in order, and each of them says what its row, the key, the indexes and the listing
say.  A listing that was kept before is still kept, whether the description succeeds or fails.
-/
theorem describe_by_answers (b : σ) (past : List Enquiry) (catalog schema : Option String)
    (table : String) :
    let i := (fresh b).enquireAll past
    let out := describe catalog schema table i
    (∀ t, out.1 = .ok t → ∃ listing keys indexes columns,
      keptListing (fresh b) (past ++ [.describe catalog schema table]) = some listing ∧
      Consulted catalog schema table (knownTables catalog schema i).2.backend out.2.backend
        keys indexes columns ∧
      t.catalog = catalog.getD "" ∧ t.schema = schema.getD "" ∧ t.name = table ∧
      t.type = "TABLE" ∧
      List.Forall₂ (Describes listing keys indexes) (rowsOf columns) t.columns) ∧
    ∀ names, i.baseTables = some names → out.2.baseTables = some names := by
  intro i out
  refine ⟨fun t ht => ?_, fun names hkept => ?_⟩
  · obtain ⟨known, keys, indexes, columns, hnames, hkey, hindexed, hconsulted, hread, ht⟩ :=
      describe_eq_ok ht
    have hkept : Keeps (keptListing (fresh b) (past ++ [.describe catalog schema table]))
        (knownTables catalog schema i).2 := by
      rw [keptListing_append]
      have hi : Keeps (keptListing (fresh b) past) i := (keeps_fresh b).enquireAll past
      exact hi.knownTables catalog schema table
    rw [Keeps, baseTables_of_knownTables hnames] at hkept
    obtain ⟨listing, hlisting, hbase⟩ := Option.map_eq_some_iff.mp hkept.symm
    have hknown : known.From listing keys indexes := ⟨hbase, hkey, hindexed⟩
    refine ⟨listing, keys, indexes, columns, hlisting, hconsulted, by rw [ht], by rw [ht],
      by rw [ht], by rw [ht], ?_⟩
    exact (forall₂_of_readRows hread).imp fun row c hc => describes_of_columnOf hknown hc
  · rw [baseTables_describe, knownTables_of_kept catalog schema hkept]
    exact hkept

/-- A base table and a view, and the columns of a book, which refers to both by name.  Its key and
its indexes are listed with a NULL each. -/
def oneSchema : Answers
  | .tables _ _ =>
    .ok ⟨["TABLE_NAME", "TABLE_TYPE"],
      [[.text "author", .text "Table"], [.text "price", .text "VIEW"]], 0⟩
  | .primaryKeys _ _ _ => .ok ⟨["COLUMN_NAME"], [[.text "id"], [.null]], 0⟩
  | .indexInfo _ _ _ => .ok ⟨["COLUMN_NAME"], [[.null], [.text "id"], [.text "author_id"]], 0⟩
  | .columns _ _ _ =>
    .ok ⟨["COLUMN_NAME", "DATA_TYPE", "TYPE_NAME", "COLUMN_SIZE", "IS_NULLABLE"],
      [[.text "id", .int 4, .text "int4", .null, .text "NO"],
        [.text "author_id", .null, .text "INT", .int 10, .text "Yes"],
        [.text "price_id", .int 4, .null, .int 10, .null]], 0⟩
  | _ => .ok .empty

/-- The book is described behind its author, with the listing that was read for the author. -/
theorem book_described_behind_author :
    let b : FixedCatalog := ⟨oneSchema⟩
    let past : List Enquiry := [.schemas, .describe none none "author"]
    let i := (fresh b).enquireAll past
    let out := describe none none "book" i
    i.baseTables = some ["author"] ∧ out.2.baseTables = some ["author"] ∧
      ∃ t, out.1 = .ok t ∧
        t.columns.map (fun c => (c.primaryKey, c.indexed, c.references)) =
          [(true, false, none), (false, true, some "author"), (false, false, none)] ∧
        ∃ listing keys indexes columns,
          keptListing (fresh b) (past ++ [.describe none none "book"]) = some listing ∧
            List.Forall₂ (Describes listing keys indexes) (rowsOf columns) t.columns := by
  intro b past i out
  obtain ⟨hdescribed, hkept⟩ := describe_by_answers b past none none "book"
  obtain ⟨listing, keys, indexes, columns, hlisting, -, -, -, -, -, hcolumns⟩ := hdescribed _ rfl
  exact ⟨rfl, hkept _ rfl, _, rfl, rfl, listing, keys, indexes, columns, hlisting, hcolumns⟩

end Introspector

end SqlSession.Catalog
