/-
Descriptions after other enquiries.

An introspector lists the base tables once.  The first description that succeeds in it keeps
the listing, and every later one takes it from there, whichever catalog and schema it is for.
Nothing else that was asked before reaches a description: on a source whose answers depend on
the question alone, an introspector with a past differs from a fresh one in that listing and in
nothing else, and what the listing decides is which tables the columns refer to.

`Serves` is the invariant that carries this through a history: the source still answers as it
did, and the listing that is kept, if there is one, is that of the place listed first.
-/
import SqlSession.Catalog.Introspection

namespace SqlSession.Catalog

variable {σ α : Type} [Backend σ]

/-! ### Sources that answer by the question -/

/-- An answer for each question. -/
abbrev Answers := CatalogRequest → Except DbError ResultSet

/-- Whatever was asked before, the source gives the answers. -/
def AnswersBy (answers : Answers) (b : σ) : Prop :=
  ∀ (past : List CatalogRequest) (request : CatalogRequest),
    (Backend.catalog request (past.foldl (fun b r => (Backend.catalog r b).2) b)).1 =
      answers request

theorem AnswersBy.answer {answers : Answers} {b : σ} (h : AnswersBy answers b)
    (request : CatalogRequest) : (Backend.catalog request b).1 = answers request :=
  h [] request

theorem AnswersBy.next {answers : Answers} {b : σ} (h : AnswersBy answers b)
    (request : CatalogRequest) : AnswersBy answers (Backend.catalog request b).2 :=
  fun past => h (request :: past)

/-- A source that is nothing but its answers. -/
structure FixedCatalog where
  answers : Answers

/-- It has no statements and no calls, and transactions mean nothing to it. -/
instance : Backend FixedCatalog where
  Statement := Empty
  Callable := Empty
  prepare _ := Action.fail (.unsupported "statements")
  prepareCall _ := Action.fail (.unsupported "procedure calls")
  setAutoCommit _ := pure ()
  autoCommit _ := true
  commit := pure ()
  rollback := pure ()
  isValid := pure true
  close := pure ()
  catalog request := fun c => (c.answers request, c)
  bind _ _ := fun s => s.1.elim
  executeUpdate := fun s => s.1.elim
  executeQuery := fun s => s.1.elim
  execute := fun s => s.1.elim
  addBatch := fun s => s.1.elim
  executeBatch := fun s => s.1.elim
  closeStatement statement := statement.elim
  callText call := call.elim
  bindCall _ _ := fun s => s.1.elim
  register _ _ := fun s => s.1.elim
  executeCall := fun s => s.1.elim
  queryCall := fun s => s.1.elim
  resultSet := fun s => s.1.elim
  moreResults := fun s => s.1.elim
  updateCount call := call.elim
  outValue _ call := call.elim
  closeCall call := call.elim
  resultsLeft call := call.elim
  resultsLeft_of_failed {s} := s.1.elim
  resultsLeft_of_rows {s} := s.1.elim
  resultsLeft_of_count {s} := s.1.elim
  resultsLeft_of_taken {s} := s.1.elim

theorem answersBy_fixed (answers : Answers) : AnswersBy answers (FixedCatalog.mk answers) := by
  intro past request
  induction past with
  | nil => rfl
  | cons r past ih => exact ih

/-! ### What the answers say -/

/-- A catalog and a schema, as a question names them. -/
abbrev Place := Option String × Option String

/-- The same answers, except that the base tables of one place stand for those of any. -/
def relisted (place : Place) (answers : Answers) : Answers
  | .tables _ _ => answers (.tables place.1 place.2)
  | request => answers request

/-- What is read from the answer to a question. -/
def answered (answers : Answers) (request : CatalogRequest)
    (read : ResultSet → Except CatalogError α) : Except CatalogError α :=
  match answers request with
  | .ok rs => read rs
  | .error e => .error (.database e)

/-- The base tables of a place. -/
def listedIn (answers : Answers) (place : Place) : Except CatalogError (List String) :=
  answered answers (.tables place.1 place.2) baseTableNames

/-- What is known of a table, given the listing of base tables that serves it. -/
def knownBy (answers : Answers) (listing : Except CatalogError (List String))
    (catalog schema : Option String) (table : String) : Except CatalogError Surroundings := do
  let baseTables ← listing
  let primaryKey ← answered answers (.primaryKeys catalog schema table) (columnValues "COLUMN_NAME")
  let indexed ← answered answers (.indexInfo catalog schema table) (columnValues "COLUMN_NAME")
  return { baseTables, primaryKey, indexed }

/-- The description of a table, given the listing of base tables that serves it. -/
def describedBy (answers : Answers) (listing : Except CatalogError (List String))
    (catalog schema : Option String) (table : String) : Except CatalogError Table := do
  let known ← knownBy answers listing catalog schema table
  let columns ← answered answers (.columns catalog schema table) (readRows (columnOf known))
  return { catalog := catalog.getD "", schema := schema.getD "", name := table, type := "TABLE",
           columns }

/-! ### Histories -/

/-- A question to an introspector. -/
inductive Enquiry where
  | catalogs
  | schemas
  | tables (catalog schema : Option String)
  | primaryKey (catalog schema : Option String) (table : String)
  | indexedColumns (catalog schema : Option String) (table : String)
  | describe (catalog schema : Option String) (table : String)

/-- The place whose base tables are listed for the enquiry, if it is a description and the
listing succeeds. -/
def Enquiry.listed? (answers : Answers) : Enquiry → Option Place
  | .describe catalog schema _ =>
    if (listedIn answers (catalog, schema)).isOk then some (catalog, schema) else none
  | _ => none

/-- The place whose base tables are listed first. -/
def firstListed (answers : Answers) (past : List Enquiry) : Option Place :=
  past.findSome? (Enquiry.listed? answers)

theorem listedIn_of_firstListed {answers : Answers} {past : List Enquiry} {place : Place}
    (h : firstListed answers past = some place) : ∃ names, listedIn answers place = .ok names := by
  obtain ⟨e, -, he⟩ := List.exists_of_findSome?_eq_some h
  unfold Enquiry.listed? at he
  split at he
  · rename_i catalog schema table
    split at he
    · rename_i hok
      cases he
      cases hlisted : listedIn answers (catalog, schema) with
      | error e =>
          rw [hlisted] at hok
          cases hok
      | ok names => exact ⟨names, rfl⟩
    · cases he
  · cases he

/-- The place whose listing serves a description after a history can be listed, if the place
described can. -/
theorem listedIn_getD_firstListed {answers : Answers} (past : List Enquiry) {own : Place}
    {names : List String} (h : listedIn answers own = .ok names) :
    ∃ names, listedIn answers ((firstListed answers past).getD own) = .ok names := by
  cases hfirst : firstListed answers past with
  | none => exact ⟨names, h⟩
  | some place => exact listedIn_of_firstListed hfirst

namespace Introspector

/-- An introspector of which nothing was asked yet. -/
def fresh (b : σ) : Introspector σ :=
  { backend := b }

/-- The introspector after an enquiry, whatever the answer was. -/
def enquire (e : Enquiry) (i : Introspector σ) : Introspector σ :=
  match e with
  | .catalogs => i.catalogs.2
  | .schemas => i.schemas.2
  | .tables catalog schema => (i.tables catalog schema).2
  | .primaryKey catalog schema table => (i.primaryKey catalog schema table).2
  | .indexedColumns catalog schema table => (i.indexedColumns catalog schema table).2
  | .describe catalog schema table => (i.describe catalog schema table).2

/-- The introspector after some enquiries. -/
def enquireAll (past : List Enquiry) (i : Introspector σ) : Introspector σ :=
  past.foldl (fun i e => i.enquire e) i

/-! ### The invariant -/

/-- The source answers as it does, and the listing that is kept is that of the place. -/
structure Serves (answers : Answers) (place : Option Place) (i : Introspector σ) : Prop where
  source : AnswersBy answers i.backend
  listing : i.baseTables.map Except.ok = place.map (listedIn answers)

variable {answers : Answers} {place : Option Place} {i : Introspector σ}

theorem serves_fresh {b : σ} (h : AnswersBy answers b) : Serves answers none (fresh b) :=
  ⟨h, rfl⟩

/-- An enquiry gives an answer and leaves an introspector that serves the place. -/
def Gives (answers : Answers) (place : Option Place) (r : Except CatalogError α)
    (out : Except CatalogError α × Introspector σ) : Prop :=
  out.1 = r ∧ Serves answers place out.2

theorem Gives.cases {r : Except CatalogError α} {out : Except CatalogError α × Introspector σ}
    (h : Gives answers place r out) :
    (∃ e j, out = (.error e, j) ∧ r = .error e ∧ Serves answers place j) ∨
      ∃ x j, out = (.ok x, j) ∧ r = .ok x ∧ Serves answers place j := by
  obtain ⟨rfl, hserves⟩ := h
  rcases out with ⟨e | x, j⟩
  · exact Or.inl ⟨e, j, rfl, rfl, hserves⟩
  · exact Or.inr ⟨x, j, rfl, rfl, hserves⟩

/-- A question is answered as ever and leaves the listing alone. -/
theorem Serves.ask (h : Serves answers place i) (request : CatalogRequest)
    (read : ResultSet → Except CatalogError α) :
    Gives answers place (answered answers request read) (ask request read i) := by
  have hanswer := h.source.answer request
  have hnext := h.source.next request
  unfold Introspector.ask answered
  rcases hc : Backend.catalog request i.backend with ⟨e | rs, b⟩ <;> rw [hc] at hanswer hnext <;>
    rw [← hanswer] <;> exact ⟨rfl, hnext, h.listing⟩

/-- A kept listing serves every place; without one, the base tables are listed, and kept if
that succeeds. -/
theorem Serves.knownTables (h : Serves answers place i) (catalog schema : Option String)
    (table : String) :
    Gives answers (place.or ((Enquiry.describe catalog schema table).listed? answers))
      (listedIn answers (place.getD (catalog, schema))) (knownTables catalog schema i) := by
  unfold Introspector.knownTables
  cases place with
  | some p =>
      obtain ⟨names, hkept, hnames⟩ := Option.map_eq_some_iff.mp h.listing
      rw [hkept]
      exact ⟨hnames, h⟩
  | none =>
      rw [Option.map_eq_none_iff.mp h.listing]
      simp only [Enquiry.listed?, Option.none_or, Option.getD_none]
      rcases (h.ask (.tables catalog schema) baseTableNames).cases with
        ⟨e, j, hout, hanswer, hj⟩ | ⟨names, j, hout, hanswer, hj⟩ <;>
        simp only [Introspector.tables, hout,
          show listedIn answers (catalog, schema) = _ from hanswer]
      · exact ⟨rfl, hj⟩
      · exact ⟨rfl, hj.source, congrArg some hanswer.symm⟩

theorem Serves.surroundings (h : Serves answers place i) (catalog schema : Option String)
    (table : String) :
    Gives answers (place.or ((Enquiry.describe catalog schema table).listed? answers))
      (knownBy answers (listedIn answers (place.getD (catalog, schema))) catalog schema table)
      (surroundings catalog schema table i) := by
  unfold Introspector.surroundings knownBy
  rcases (h.knownTables catalog schema table).cases with
    ⟨e, j, hout, hanswer, hj⟩ | ⟨names, j, hout, hanswer, hj⟩ <;> simp only [hout, hanswer]
  · exact ⟨rfl, hj⟩
  rcases (hj.ask (.primaryKeys catalog schema table) (columnValues "COLUMN_NAME")).cases with
    ⟨e, k, hout, hanswer, hk⟩ | ⟨key, k, hout, hanswer, hk⟩ <;>
    simp only [Introspector.primaryKey, hout, hanswer]
  · exact ⟨rfl, hk⟩
  rcases (hk.ask (.indexInfo catalog schema table) (columnValues "COLUMN_NAME")).cases with
    ⟨e, l, hout, hanswer, hl⟩ | ⟨indexed, l, hout, hanswer, hl⟩ <;>
    simp only [Introspector.indexedColumns, hout, hanswer] <;> exact ⟨rfl, hl⟩

/-- A description goes by the answers of the source and by the listing that serves it. -/
theorem Serves.describe (h : Serves answers place i) (catalog schema : Option String)
    (table : String) :
    Gives answers (place.or ((Enquiry.describe catalog schema table).listed? answers))
      (describedBy answers (listedIn answers (place.getD (catalog, schema))) catalog schema table)
      (describe catalog schema table i) := by
  unfold Introspector.describe describedBy
  rcases (h.surroundings catalog schema table).cases with
    ⟨e, j, hout, hanswer, hj⟩ | ⟨known, j, hout, hanswer, hj⟩ <;> simp only [hout, hanswer]
  · exact ⟨rfl, hj⟩
  rcases (hj.ask (.columns catalog schema table) (readRows (columnOf known))).cases with
    ⟨e, k, hout, hanswer, hk⟩ | ⟨columns, k, hout, hanswer, hk⟩ <;>
    simp only [hout, bind, Except.bind, hanswer] <;> exact ⟨rfl, hk⟩

theorem Serves.enquire (h : Serves answers place i) (e : Enquiry) :
    Serves answers (place.or (e.listed? answers)) (i.enquire e) := by
  have hask {α : Type} (request : CatalogRequest) (read : ResultSet → Except CatalogError α) :
      Serves answers (place.or none) (Introspector.ask request read i).2 := by
    rw [Option.or_none]
    exact (h.ask request read).2
  cases e with
  | catalogs => exact hask _ _
  | schemas => exact hask _ _
  | tables catalog schema => exact hask _ _
  | primaryKey catalog schema table => exact hask _ _
  | indexedColumns catalog schema table => exact hask _ _
  | describe catalog schema table => exact (h.describe catalog schema table).2

theorem Serves.enquireAll (h : Serves answers place i) (past : List Enquiry) :
    Serves answers (place.or (firstListed answers past)) (i.enquireAll past) := by
  induction past generalizing place i with
  | nil => rwa [show firstListed answers [] = none from rfl, Option.or_none]
  | cons e past ih =>
      have hfirst : firstListed answers (e :: past) =
          (e.listed? answers).or (firstListed answers past) := by
        unfold firstListed
        rw [List.findSome?_cons]
        cases e.listed? answers <;> rfl
      rw [hfirst, ← Option.or_assoc]
      exact ih (h.enquire e)

end Introspector

/-! ### What the listing decides -/

theorem referenceName?_eq_some_iff {column name : String} :
    referenceName? column = some name ↔ name ≠ "" ∧ column = name ++ "_id" := by
  unfold referenceName?
  constructor
  · intro h
    split at h
    · rename_i c rest heq
      cases h
      have hcolumn : column.toList = (c :: rest).reverse ++ ['_', 'i', 'd'] := by
        rw [← List.reverse_reverse column.toList, heq]
        simp only [List.reverse_cons, List.append_assoc, List.cons_append, List.nil_append]
      refine ⟨fun hempty => ?_, String.toList_inj.mp ?_⟩
      · have hnil : (c :: rest).reverse = [] := String.ofList_eq_empty_iff.mp hempty
        exact List.cons_ne_nil _ _ (List.reverse_eq_nil_iff.mp hnil)
      · rw [hcolumn, String.toList_append, String.toList_ofList]
        rfl
    · cases h
  · rintro ⟨hne, rfl⟩
    have hreverse : (name ++ "_id").toList.reverse = 'd' :: 'i' :: '_' :: name.toList.reverse := by
      rw [String.toList_append, List.reverse_append]
      rfl
    rw [hreverse]
    cases hname : name.toList.reverse with
    | nil => exact absurd (String.toList_inj.mp (List.reverse_eq_nil_iff.mp hname)) hne
    | cons c rest =>
        show some (String.ofList (c :: rest).reverse) = some name
        rw [← hname, List.reverse_reverse, String.ofList_toList]

/-- The column refers to the table that it is named for, if that is among the names. -/
def Column.referring (names : List String) (c : Column) : Column :=
  { c with references := (referenceName? c.name).filter names.contains }

/-- The table whose columns refer to the tables that they are named for, as far as these are
among the names. -/
def Table.referring (names : List String) (t : Table) : Table :=
  { t with columns := t.columns.map (Column.referring names) }

theorem Table.referring_referring (names names' : List String) (t : Table) :
    (t.referring names').referring names = t.referring names := by
  simp only [Table.referring, List.map_map]
  rfl

/-- A column refers to a table exactly if it is named for it and the table is listed. -/
theorem Table.references_referring {names : List String} {t : Table} {column : Column}
    (h : column ∈ (t.referring names).columns) (name : String) :
    column.references = some name ↔
      name ≠ "" ∧ column.name = name ++ "_id" ∧ name ∈ names := by
  obtain ⟨c, -, rfl⟩ := List.mem_map.mp h
  simp only [Column.referring, Option.filter_eq_some_iff, referenceName?_eq_some_iff,
    List.contains_iff_mem, and_assoc]

theorem columnOf_eq (known : Surroundings) (row : Row) :
    columnOf known row =
      (columnOf { known with baseTables := [] } row).map (Column.referring known.baseTables) := by
  unfold columnOf
  cases row.text "COLUMN_NAME" with
  | error e => rfl
  | ok name =>
    cases row.int "DATA_TYPE" with
    | error e => rfl
    | ok code =>
      cases row.text? "TYPE_NAME" with
      | error e => rfl
      | ok typeName =>
        dsimp only [bind, Except.bind]
        split
        · rfl
        · cases row.int "COLUMN_SIZE" with
          | error e => rfl
          | ok size => cases row.text? "IS_NULLABLE" <;> rfl

theorem readRows_map {β : Type} {read : Row → Except CatalogError β}
    {read' : Row → Except CatalogError α} {f : α → β} (h : ∀ row, read row = (read' row).map f)
    (rs : ResultSet) : readRows read rs = (readRows read' rs).map (List.map f) := by
  unfold readRows
  induction rs.rest with
  | nil => rfl
  | cons cells rest ih =>
      rw [List.mapM_cons, List.mapM_cons, h, ih]
      cases read' ⟨rs.columns, cells⟩ with
      | error e => rfl
      | ok x => cases rest.mapM fun cells => read' ⟨rs.columns, cells⟩ <;> rfl

theorem answered_map {β : Type} {answers : Answers} {request : CatalogRequest}
    {read : ResultSet → Except CatalogError β} {read' : ResultSet → Except CatalogError α}
    {f : α → β} (h : ∀ rs, read rs = (read' rs).map f) :
    answered answers request read = (answered answers request read').map f := by
  unfold answered
  cases answers request with
  | error e => rfl
  | ok rs => exact h rs

/-- The listing decides nothing about a table but what its columns refer to. -/
theorem describedBy_listed (answers : Answers) (names : List String)
    (catalog schema : Option String) (table : String) :
    describedBy answers (.ok names) catalog schema table =
      (describedBy answers (.ok []) catalog schema table).map (Table.referring names) := by
  unfold describedBy knownBy
  cases answered answers (.primaryKeys catalog schema table) (columnValues "COLUMN_NAME") with
  | error e => rfl
  | ok key =>
    cases answered answers (.indexInfo catalog schema table) (columnValues "COLUMN_NAME") with
    | error e => rfl
    | ok indexed =>
      have hcolumns : answered answers (.columns catalog schema table)
            (readRows (columnOf ⟨names, key, indexed⟩)) =
          (answered answers (.columns catalog schema table)
            (readRows (columnOf ⟨[], key, indexed⟩))).map (List.map (Column.referring names)) :=
        answered_map (readRows_map (columnOf_eq ⟨names, key, indexed⟩))
      dsimp only [bind, Except.bind, pure, Except.pure]
      rw [hcolumns]
      cases answered answers (.columns catalog schema table)
        (readRows (columnOf ⟨[], key, indexed⟩)) <;> rfl

/-- A description with one listing is that with another, its columns referred anew. -/
theorem describedBy_relisted (answers : Answers) (names names' : List String)
    (catalog schema : Option String) (table : String) :
    describedBy answers (.ok names) catalog schema table =
      (describedBy answers (.ok names') catalog schema table).map (Table.referring names) := by
  rw [describedBy_listed answers names, describedBy_listed answers names']
  cases describedBy answers (.ok []) catalog schema table with
  | error e => rfl
  | ok t => exact congrArg Except.ok (t.referring_referring names names').symm

theorem references_describedBy {answers : Answers} {listing : Except CatalogError (List String)}
    {catalog schema : Option String} {table : String} {t : Table}
    (h : describedBy answers listing catalog schema table = .ok t) :
    ∃ names, listing = .ok names ∧ ∀ column ∈ t.columns, ∀ name, column.references = some name ↔
      name ≠ "" ∧ column.name = name ++ "_id" ∧ name ∈ names := by
  cases listing with
  | error e => cases h
  | ok names =>
      rw [describedBy_listed] at h
      cases ht : describedBy answers (.ok []) catalog schema table with
      | error e =>
          rw [ht] at h
          cases h
      | ok t' =>
          rw [ht] at h
          cases h
          exact ⟨names, rfl, fun column hcolumn => Table.references_referring hcolumn⟩

namespace Introspector

/-! ### Descriptions after a history -/

theorem tables_fresh {answers : Answers} {b : σ} (h : AnswersBy answers b) (place : Place) :
    (tables place.1 place.2 (fresh b)).1 = listedIn answers place :=
  ((serves_fresh h).ask _ _).1

/--
**A description goes by the first listing.**  On a source whose answers depend on the question
alone, and after any enquiries, let the place be the catalog and schema of the first description
whose listing of the base tables has succeeded, or those that are described now if there is
none.  A description then gives
* what a fresh introspector gives where the base tables of the place stand for those of any;
* the same as a fresh introspector on the same source, if the place is the one described;
* in any case the same up to what the columns refer to, if the place described can be listed.

A column refers to a table exactly if it is named for it and the table is listed in the place.
-/
theorem describe_by_first_listing {answers : Answers} {b : σ} (h : AnswersBy answers b)
    (past : List Enquiry) (catalog schema : Option String) (table : String) :
    let i := (fresh b).enquireAll past
    let place := (firstListed answers past).getD (catalog, schema)
    (describe catalog schema table i).1 =
        (describe catalog schema table (fresh (FixedCatalog.mk (relisted place answers)))).1 ∧
      (place = (catalog, schema) →
        (describe catalog schema table i).1 = (describe catalog schema table (fresh b)).1) ∧
      (∀ own, (tables catalog schema (fresh b)).1 = .ok own →
        ∃ names, (tables place.1 place.2 (fresh b)).1 = .ok names ∧
          (describe catalog schema table i).1 =
            (describe catalog schema table (fresh b)).1.map (Table.referring names)) ∧
      ∀ t, (describe catalog schema table i).1 = .ok t →
        ∃ names, (tables place.1 place.2 (fresh b)).1 = .ok names ∧
          ∀ column ∈ t.columns, ∀ name, column.references = some name ↔
            name ≠ "" ∧ column.name = name ++ "_id" ∧ name ∈ names := by
  intro i place
  have hi : Serves answers (firstListed answers past) i := (serves_fresh h).enquireAll past
  have hdescribe : (describe catalog schema table i).1 =
      describedBy answers (listedIn answers place) catalog schema table :=
    (hi.describe catalog schema table).1
  have hfresh : (describe catalog schema table (fresh b)).1 =
      describedBy answers (listedIn answers (catalog, schema)) catalog schema table :=
    ((serves_fresh h).describe catalog schema table).1
  rw [hdescribe, hfresh]
  refine ⟨?_, fun hplace => ?_, fun own hown => ?_, fun t ht => ?_⟩
  · exact (((serves_fresh (answersBy_fixed (relisted place answers))).describe catalog schema
      table).1).symm
  · rw [hplace]
  · have hown' : listedIn answers (catalog, schema) = .ok own :=
      (tables_fresh h (catalog, schema)).symm.trans hown
    obtain ⟨names, hnames⟩ := listedIn_getD_firstListed past hown'
    refine ⟨names, (tables_fresh h place).trans hnames, ?_⟩
    rw [show listedIn answers place = .ok names from hnames, hown']
    exact describedBy_relisted answers names own catalog schema table
  · obtain ⟨names, hnames, hreferences⟩ := references_describedBy ht
    exact ⟨names, (tables_fresh h place).trans hnames, hreferences⟩

/-! ### Two schemas -/

/-- A library with a table of authors and a shop without one; both describe a book by the number
of its author. -/
def twoSchemas : Answers
  | .tables _ (some "library") =>
    .ok ⟨["TABLE_NAME", "TABLE_TYPE"], [[.text "author", .text "TABLE"]], 0⟩
  | .columns _ _ _ =>
    .ok ⟨["COLUMN_NAME", "DATA_TYPE", "TYPE_NAME", "COLUMN_SIZE", "IS_NULLABLE"],
      [[.text "author_id", .int 4, .text "int4", .int 10, .text "YES"]], 0⟩
  | _ => .ok .empty

/-- The book of the shop, described behind the one of the library, goes by the tables of the
library. -/
theorem shop_described_by_library :
    let b : FixedCatalog := ⟨twoSchemas⟩
    let i := (fresh b).enquireAll [.schemas, .describe none (some "library") "book"]
    AnswersBy twoSchemas b ∧
      (tables none (some "shop") (fresh b)).1 = .ok [] ∧
      (describe none (some "shop") "book" i).1 =
        (describe none (some "shop") "book" (fresh b)).1.map (Table.referring ["author"]) := by
  intro b i
  have hb : AnswersBy twoSchemas b := answersBy_fixed twoSchemas
  have hdescribe := describe_by_first_listing hb
    [.schemas, .describe none (some "library") "book"] none (some "shop") "book"
  obtain ⟨names, hnames, hsame⟩ := hdescribe.2.2.1 [] rfl
  have hlisted : (tables none (some "library") (fresh b)).1 = .ok ["author"] := rfl
  cases hlisted.symm.trans hnames
  exact ⟨hb, rfl, hsame⟩

/-- A column of the shop refers to a table that the shop does not have, and a fresh introspector
says so. -/
theorem reference_across_schemas :
    ¬(∀ (answers : Answers) (past : List Enquiry) (catalog schema : Option String) (table : String),
        (describe catalog schema table ((fresh (FixedCatalog.mk answers)).enquireAll past)).1 =
          (describe catalog schema table (fresh (FixedCatalog.mk answers))).1) ∧
      ¬∀ (answers : Answers) (past : List Enquiry) (catalog schema : Option String) (table : String)
        (t : Table) (names : List String),
        (describe catalog schema table ((fresh (FixedCatalog.mk answers)).enquireAll past)).1 =
            .ok t →
          (tables catalog schema (fresh (FixedCatalog.mk answers))).1 = .ok names →
          ∀ column ∈ t.columns, ∀ name, column.references = some name → name ∈ names := by
  constructor
  · intro h
    have hsame : (.ok [some "author"] : Except CatalogError (List (Option String))) = .ok [none] :=
      congrArg (Except.map fun t : Table => t.columns.map Column.references)
        (h twoSchemas [.describe none (some "library") "book"] none (some "shop") "book")
    cases hsame
  · intro h
    have hlisted := h twoSchemas [.describe none (some "library") "book"] none (some "shop") "book"
      _ [] rfl rfl _ (List.mem_singleton_self _) "author" rfl
    cases hlisted

end Introspector

end SqlSession.Catalog
