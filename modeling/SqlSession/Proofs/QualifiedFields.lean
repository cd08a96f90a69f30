/-
Qualified fields.

A field may be written with the table it belongs to, and with the schema of that.  An INSERT and an
UPDATE name its column, and a batch looks the column up in a record.  All of them take away one
qualifier, which is all there is in `book.title`; of `app.book.title` it leaves `book.title`.

So the statements have the bare columns, and a batch finds them in records that are keyed by
columns, exactly if no field has more than one qualifier.  `columns_bare_iff` says so.  The texts
tell the columns apart although names may contain commas: a column that has kept a qualifier is
longer than the bare one, and none is shorter to make up for it.
-/
import Mathlib.Data.List.TakeWhile
import Mathlib.Tactic.SplitIfs
import SqlSession.Proofs.BatchLog
import SqlSession.Proofs.RowRecords

namespace SqlSession

namespace Sql

/-! ### Names between dots -/

/-- A name stands between dots: it is not empty, and has none itself. -/
def IsName (name : List Char) : Prop :=
  name ≠ [] ∧ '.' ∉ name

instance (name : List Char) : Decidable (IsName name) :=
  inferInstanceAs (Decidable (_ ∧ _))

/-- Names with a dot behind each of them, and a last one. -/
def dotted : List (List Char) → List Char → List Char
  | [], column => column
  | name :: names, column => name ++ '.' :: dotted names column

/-- A column with what it is qualified by, the outermost first. -/
structure QualifiedField where
  qualifiers : List (List Char)
  column : List Char
  qualifiers_areNames : ∀ name ∈ qualifiers, IsName name
  column_isName : IsName column

namespace QualifiedField

/-- The field as it is written. -/
def text (f : QualifiedField) : String :=
  String.ofList (dotted f.qualifiers f.column)

/-- The column alone. -/
def bare (f : QualifiedField) : String :=
  String.ofList f.column

/-- What is left of the field without its first qualifier. -/
def rest (f : QualifiedField) : String :=
  String.ofList (dotted (f.qualifiers.drop 1) f.column)

end QualifiedField

theorem column_suffix_dotted (names : List (List Char)) (column : List Char) :
    column <:+ dotted names column := by
  induction names with
  | nil => exact List.suffix_rfl
  | cons name names ih => exact (ih.trans (List.suffix_cons ..)).trans (List.suffix_append ..)

theorem mem_dotted_iff {names : List (List Char)} {column : List Char} (h : '.' ∉ column) :
    '.' ∈ dotted names column ↔ names ≠ [] := by
  cases names with
  | nil => exact iff_of_false h (not_not.mpr rfl)
  | cons name names =>
      exact iff_of_true (List.mem_append_right _ (List.mem_cons_self ..)) (List.cons_ne_nil _ _)

theorem IsName.undotted {name : List Char} (h : IsName name) : ∀ c ∈ name, (c != '.') = true := by
  intro c hc
  rw [bne_iff_ne]
  rintro rfl
  exact h.2 hc

variable {f : QualifiedField} {fs : List QualifiedField}

theorem mem_rest_iff (f : QualifiedField) :
    '.' ∈ f.rest.toList ↔ ¬f.qualifiers.length ≤ 1 := by
  rw [QualifiedField.rest, String.toList_ofList, mem_dotted_iff f.column_isName.2, ne_eq,
    List.drop_eq_nil_iff]

theorem dot_notMem_bare (f : QualifiedField) : '.' ∉ f.bare.toList := by
  rw [QualifiedField.bare, String.toList_ofList]
  exact f.column_isName.2

theorem rest_eq_bare_iff (f : QualifiedField) : f.rest = f.bare ↔ f.qualifiers.length ≤ 1 := by
  constructor
  · intro h
    by_contra hlong
    exact dot_notMem_bare f (h ▸ (mem_rest_iff f).mpr hlong)
  · intro h
    rw [QualifiedField.rest, List.drop_eq_nil_iff.mpr h]
    rfl

/-- The text of a field goes on behind its first dot, if there is one. -/
theorem dropWhile_text (f : QualifiedField) :
    f.text.toList.dropWhile (· != '.') =
      if f.qualifiers = [] then [] else '.' :: f.rest.toList := by
  obtain ⟨names, column, hnames, hcolumn⟩ := f
  rw [QualifiedField.text, String.toList_ofList]
  cases names with
  | nil => exact List.dropWhile_eq_nil_iff.mpr hcolumn.undotted
  | cons name names =>
      have hname := (hnames name (List.mem_cons_self ..)).undotted
      rw [QualifiedField.rest, String.toList_ofList]
      simp only [dotted, List.dropWhile_append_of_pos hname]
      rfl

theorem exists_text_eq_cons (f : QualifiedField) : ∃ c cs, f.text.toList = c :: cs ∧ c ≠ '.' := by
  obtain ⟨names, column, hnames, hcolumn⟩ := f
  obtain ⟨name, rest, htext, hname⟩ : ∃ name rest, dotted names column = name ++ rest ∧
      IsName name := by
    cases names with
    | nil => exact ⟨column, [], (List.append_nil column).symm, hcolumn⟩
    | cons name names => exact ⟨name, _, rfl, hnames name (List.mem_cons_self ..)⟩
  obtain ⟨c, cs, rfl⟩ := List.exists_cons_of_ne_nil hname.1
  refine ⟨c, cs ++ rest, ?_, bne_iff_ne.mp (hname.undotted c (List.mem_cons_self ..))⟩
  rw [QualifiedField.text, String.toList_ofList, htext, List.cons_append]

/-- Statements take away the first qualifier. -/
theorem unqualified_text (f : QualifiedField) : unqualified f.text = f.rest := by
  have hdrop := dropWhile_text f
  obtain ⟨c, cs, hcs, hc⟩ := exists_text_eq_cons f
  rw [hcs, List.dropWhile_cons, if_pos (bne_iff_ne.mpr hc)] at hdrop
  unfold unqualified
  rw [hcs]
  simp only [hdrop]
  by_cases hq : f.qualifiers = []
  · rw [if_pos hq]
    simp only [QualifiedField.text, QualifiedField.rest, hq, List.drop_nil]
  · rw [if_neg hq]
    simp only [if_neg hc, String.ofList_toList]

/-- There is nothing to take away from a column. -/
theorem unqualified_bare (f : QualifiedField) : unqualified f.bare = f.bare :=
  unqualified_text ⟨[], f.column, nofun, f.column_isName⟩

/-! ### Statements with the bare columns -/

/-- An INSERT with these columns and a placeholder for each of them. -/
def insertText (d : Dialect) (schema table : String) (columns : List String) : String :=
  "insert into " ++ schemaQualifier d schema ++ table
    ++ " (" ++ ",".intercalate columns ++ ") values ("
    ++ ",".intercalate (columns.map fun _ => "?") ++ ")"

/-- An UPDATE that sets each of these columns to a placeholder. -/
def updateText (d : Dialect) (schema table : String) (columns : List String)
    (condition : String) : String :=
  "update " ++ schemaQualifier d schema ++ table
    ++ " set " ++ ", ".intercalate (columns.map fun c => c ++ "=?")
    ++ optionalClause " where " condition

theorem length_intercalate_le {α : Type} (sep : String) (xs : List α) {g h : α → String}
    (hle : ∀ x, (h x).length ≤ (g x).length) :
    (sep.intercalate (xs.map h)).length ≤ (sep.intercalate (xs.map g)).length := by
  induction xs with
  | nil => exact Nat.le_refl _
  | cons x xs ih =>
      by_cases hnil : xs = []
      · subst hnil
        simpa using hle x
      · rw [List.map_cons, List.map_cons, String.intercalate_cons_of_ne_nil (by simpa using hnil),
          String.intercalate_cons_of_ne_nil (by simpa using hnil)]
        simp only [String.length_append]
        have := hle x
        omega

/-- Where no part of one list is shorter than that of another, the lists have the same text only
if they have the same parts. -/
theorem eq_of_intercalate_eq {α : Type} {sep : String} {xs : List α} {g h : α → String}
    (hle : ∀ x, (h x).length ≤ (g x).length)
    (heq : sep.intercalate (xs.map g) = sep.intercalate (xs.map h)) : ∀ x ∈ xs, g x = h x := by
  induction xs with
  | nil => exact fun x hx => absurd hx List.not_mem_nil
  | cons x xs ih =>
      by_cases hnil : xs = []
      · subst hnil
        intro y hy
        rw [List.mem_singleton.mp hy]
        simpa using heq
      · rw [List.map_cons, List.map_cons, String.intercalate_cons_of_ne_nil (by simpa using hnil),
          String.intercalate_cons_of_ne_nil (by simpa using hnil)] at heq
        have hlength := congrArg String.length heq
        simp only [String.length_append] at hlength
        have hx := hle x
        have hxs := length_intercalate_le sep xs hle
        have hlist := congrArg String.toList heq
        simp only [String.toList_append, List.append_assoc] at hlist
        obtain ⟨hhead, htail⟩ := List.append_inj hlist (by
          rw [String.length_toList, String.length_toList]; omega)
        have htail := List.append_cancel_left htail
        intro y hy
        rcases List.mem_cons.mp hy with rfl | hy
        · exact String.toList_inj.mp hhead
        · exact ih (String.toList_inj.mp htail) y hy

theorem length_bare_le (f : QualifiedField) : f.bare.length ≤ f.rest.length := by
  rw [QualifiedField.rest, QualifiedField.bare, String.length_ofList, String.length_ofList]
  exact (column_suffix_dotted _ _).length_le

/-- No field has more than one qualifier. -/
def Shallow (fs : List QualifiedField) : Prop :=
  ∀ f ∈ fs, f.qualifiers.length ≤ 1

theorem Shallow.map_rest (h : Shallow fs) :
    fs.map QualifiedField.rest = fs.map QualifiedField.bare :=
  List.map_inj_left.mpr fun f hf => (rest_eq_bare_iff f).mpr (h f hf)

theorem insertText_rest_eq_iff {d : Dialect} {schema table : String} :
    insertText d schema table (fs.map QualifiedField.rest) =
        insertText d schema table (fs.map QualifiedField.bare) ↔ Shallow fs := by
  have hmarks : (fs.map QualifiedField.rest).map (fun _ => "?") =
      (fs.map QualifiedField.bare).map fun _ => "?" := by
    rw [List.map_map, List.map_map]
    rfl
  constructor
  · intro h f hf
    unfold insertText at h
    rw [hmarks, String.append_left_inj, String.append_left_inj, String.append_left_inj,
      String.append_right_inj] at h
    exact (rest_eq_bare_iff f).mp (eq_of_intercalate_eq length_bare_le h f hf)
  · intro h
    rw [h.map_rest]

theorem updateText_rest_eq_iff {d : Dialect} {schema table condition : String} :
    updateText d schema table (fs.map QualifiedField.rest) condition =
        updateText d schema table (fs.map QualifiedField.bare) condition ↔ Shallow fs := by
  have hle : ∀ f : QualifiedField, (f.bare ++ "=?").length ≤ (f.rest ++ "=?").length := by
    intro f
    rw [String.length_append, String.length_append]
    exact Nat.add_le_add_right (length_bare_le f) _
  constructor
  · intro h f hf
    unfold updateText at h
    rw [String.append_left_inj, String.append_right_inj, List.map_map, List.map_map] at h
    have hpart : f.rest ++ "=?" = f.bare ++ "=?" := eq_of_intercalate_eq hle h f hf
    exact (rest_eq_bare_iff f).mp ((String.append_left_inj _).mp hpart)
  · intro h
    rw [h.map_rest]

theorem map_unqualified_texts (fs : List QualifiedField) :
    (fs.map QualifiedField.text).map unqualified = fs.map QualifiedField.rest := by
  rw [List.map_map]
  exact List.map_congr_left fun f _ => unqualified_text f

theorem compileInsert_texts (d : Dialect) (schema : String) {table : String}
    (htable : Text.isBlankText table = false) (hfs : fs ≠ []) :
    compileInsert d schema table (fs.map QualifiedField.text) =
      .ok (insertText d schema table (fs.map QualifiedField.rest)) := by
  unfold compileInsert insertText
  rw [if_neg (by simp [htable]), if_neg (by simpa using hfs), ← map_unqualified_texts]
  simp only [List.map_map]
  rfl

theorem compileUpdate_texts (d : Dialect) (schema : String) {table : String}
    (htable : Text.isBlankText table = false) (hfs : fs ≠ []) (condition : String) :
    compileUpdate d schema table (fs.map QualifiedField.text) condition =
      .ok (updateText d schema table (fs.map QualifiedField.rest) condition) := by
  unfold compileUpdate updateText
  rw [if_neg (by simp [htable]), if_neg (by simpa using hfs), ← map_unqualified_texts]
  simp only [List.map_map]
  rfl

/-- An INSERT is a matter of the columns. -/
theorem compileInsert_congr {d : Dialect} {schema table : String} {fields fields' : List String}
    (h : fields.map unqualified = fields'.map unqualified) :
    compileInsert d schema table fields = compileInsert d schema table fields' := by
  have hlength : fields.length = fields'.length := by simpa using congrArg List.length h
  have hempty : fields.isEmpty = fields'.isEmpty := by
    simpa only [List.isEmpty_map] using congrArg List.isEmpty h
  unfold compileInsert
  rw [h, hempty, List.map_const', List.map_const', hlength]

theorem Shallow.map_unqualified (h : Shallow fs) :
    (fs.map QualifiedField.text).map unqualified =
      (fs.map QualifiedField.bare).map unqualified := by
  rw [map_unqualified_texts, h.map_rest, List.map_map]
  exact (List.map_congr_left fun f _ => unqualified_bare f).symm

end Sql

/-! ### Looking a field up -/

namespace Record

open Sql

variable {f : QualifiedField} {fs : List QualifiedField} {record : Record}

/-- The record has the columns of the fields for its keys. -/
def KeyedByColumns (fs : List QualifiedField) (record : Record) : Prop :=
  ∀ name, name ∈ record.map Prod.fst ↔ name ∈ fs.map QualifiedField.bare

theorem get?_eq_none_iff {name : String} :
    Members.get? record name = none ↔ name ∉ record.map Prod.fst := by
  unfold Members.get?
  rw [List.lookup_eq_none_iff, List.mem_map]
  constructor
  · rintro h ⟨entry, hentry, rfl⟩
    simpa using h entry hentry
  · intro h entry hentry
    exact bne_iff_ne.mpr fun heq => h ⟨entry, hentry, heq.symm⟩

theorem KeyedByColumns.undotted (h : record.KeyedByColumns fs) {name : String}
    (hname : name ∈ record.map Prod.fst) : '.' ∉ name.toList := by
  obtain ⟨f, -, rfl⟩ := List.mem_map.mp ((h name).mp hname)
  exact dot_notMem_bare f

/-- A record with columns for its keys has no value under a text with a dot. -/
theorem KeyedByColumns.get?_dotted (h : record.KeyedByColumns fs) {name : String}
    (hname : '.' ∈ name.toList) : Members.get? record name = none :=
  get?_eq_none_iff.mpr fun hkey => h.undotted hkey hname

theorem KeyedByColumns.get?_bare (h : record.KeyedByColumns fs) (hf : f ∈ fs) :
    ∃ v, Members.get? record f.bare = some v :=
  Option.ne_none_iff_exists'.mp
    (get?_eq_none_iff.not.mpr (not_not.mpr ((h f.bare).mpr (List.mem_map_of_mem hf))))

/-- The value of a field is the one of its column, up to one qualifier, and beyond that none. -/
theorem KeyedByColumns.value?_text (h : record.KeyedByColumns fs) (f : QualifiedField) :
    record.value? f.text =
      if f.qualifiers.length ≤ 1 then Members.get? record f.bare else none := by
  have hdrop := dropWhile_text f
  unfold value?
  by_cases hq : f.qualifiers = []
  · have htext : f.text = f.bare := by rw [QualifiedField.text, hq, QualifiedField.bare]; rfl
    rw [if_pos hq] at hdrop
    rw [hdrop, htext, if_pos (by simp [hq])]
    cases Members.get? record f.bare <;> rfl
  · rw [if_neg hq] at hdrop
    have hdot : '.' ∈ f.text.toList :=
      (List.dropWhile_suffix _).subset (hdrop ▸ List.mem_cons_self ..)
    rw [h.get?_dotted hdot, hdrop]
    show Members.get? record (String.ofList f.rest.toList) = _
    rw [String.ofList_toList]
    by_cases hshort : f.qualifiers.length ≤ 1
    · rw [if_pos hshort, (rest_eq_bare_iff f).mpr hshort]
    · rw [if_neg hshort]
      exact h.get?_dotted ((mem_rest_iff f).mpr hshort)

theorem KeyedByColumns.value?_bare (h : record.KeyedByColumns fs) (hf : f ∈ fs) :
    record.value? f.bare = Members.get? record f.bare := by
  obtain ⟨v, hv⟩ := h.get?_bare hf
  rw [value?, hv]

end Record

/-! ### Batches -/

namespace Session

open SqlSession.Action Sql

variable {σ : Type} [Backend σ] {record : Record} {records : List Record} {s t : Session σ}
  {fs : List QualifiedField}

/-- It does not matter to a record by which texts its values are looked up, if they are found. -/
theorem bindFields_congr {α : Type} {xs : List α} {g h : α → String}
    (hfound : ∀ x ∈ xs, ∃ v, record.value? (g x) = some v ∧ record.value? (h x) = some v) :
    ∀ position, bindFields (σ := σ) record position (xs.map g) =
      bindFields record position (xs.map h) := by
  induction xs with
  | nil => exact fun _ => rfl
  | cons x xs ih =>
      intro position
      obtain ⟨v, hg, hh⟩ := hfound x (List.mem_cons_self ..)
      rw [List.map_cons, List.map_cons, bindFields_cons hg, bindFields_cons hh,
        ih (fun y hy => hfound y (List.mem_cons_of_mem _ hy))]

theorem fillBatch_congr {fields fields' : List String}
    (h : ∀ record ∈ records, bindFields (σ := σ) record 1 fields = bindFields record 1 fields') :
    fillBatch (σ := σ) fields records = fillBatch fields' records := by
  induction records with
  | nil => rfl
  | cons record records ih =>
      rw [fillBatch, fillBatch, h record (List.mem_cons_self ..),
        ih fun r hr => h r (List.mem_cons_of_mem _ hr)]

/-- A batch looks at the text of the INSERT and at what its statement is used for. -/
theorem executeBatch_congr (hopen : s.isOpen = t.isOpen) (hbackend : s.backend = t.backend)
    (hs : s.operation = .insert) (ht : t.operation = .insert)
    (htext : s.draftText .insert = t.draftText .insert)
    (huse : useBatch (σ := σ) s.inserting.parts.fields records =
      useBatch t.inserting.parts.fields records) :
    (executeBatch records s).1 = (executeBatch records t).1 ∧
      (executeBatch records s).2.backend = (executeBatch records t).2.backend := by
  rw [executeBatch_of_insert records hs, executeBatch_of_insert records ht]
  simp only [clearingParams, andThen]
  cases h : t.draftText .insert with
  | error e =>
      rw [insertBatch_of_error records (htext.trans h), insertBatch_of_error records h]
      exact ⟨rfl, hbackend⟩
  | ok text =>
      rw [insertBatch_of_text records (htext.trans h), insertBatch_of_text records h, huse]
      cases hclosed : t.isOpen with
      | true =>
          rw [onConnection_of_open _ ((settle_isOpen ..).trans (hopen.trans hclosed)),
            onConnection_of_open _ ((settle_isOpen ..).trans hclosed), settle_backend,
            settle_backend, hbackend]
          exact ⟨rfl, rfl⟩
      | false =>
          rw [onConnection_of_closed _ ((settle_isOpen ..).trans (hopen.trans hclosed)),
            onConnection_of_closed _ ((settle_isOpen ..).trans hclosed)]
          refine ⟨rfl, ?_⟩
          show (s.settle .insert text).backend = (t.settle .insert text).backend
          rw [settle_backend, settle_backend, hbackend]

/-! What a batch answers without an error it has found. -/

theorem found_of_bindFields {fields : List String} : ∀ {position p p'},
    bindFields (σ := σ) record position fields p = (.ok (), p') →
      ∀ field ∈ fields, record.value? field ≠ none := by
  induction fields with
  | nil => exact fun _ field hfield => absurd hfield List.not_mem_nil
  | cons field fields ih =>
      intro position p p' h
      cases hv : record.value? field with
      | none =>
          simp only [bindFields, hv] at h
          cases h
      | some v =>
          rw [bindFields_cons hv] at h
          rcases bind_cases (bindField record position (Value.ofJson v))
            (fun _ => bindFields record (position + 1) fields) p with ⟨_, -, hrest⟩ | ⟨e, -, herror⟩
          · intro other hother
            rcases List.mem_cons.mp hother with rfl | hother
            · rw [hv]
              exact Option.some_ne_none v
            · exact ih (hrest.symm.trans h) other hother
          · cases herror.symm.trans h

theorem found_of_fillBatch {fields : List String} : ∀ {p p'},
    fillBatch (σ := σ) fields records p = (.ok (), p') →
      ∀ record ∈ records, ∀ field ∈ fields, record.value? field ≠ none := by
  induction records with
  | nil => exact fun _ record hrecord => absurd hrecord List.not_mem_nil
  | cons record records ih =>
      intro p p' h
      rcases hbind : bindFields record 1 fields p with ⟨e | _, q⟩
      · cases (bind_of_error hbind).symm.trans h
      · have hrest := (bind_of_ok hbind).symm.trans h
        rcases hadd : Backend.addBatch q with ⟨e | _, r⟩
        · cases (bind_of_error hadd).symm.trans hrest
        · intro other hother
          rcases List.mem_cons.mp hother with rfl | hother
          · exact found_of_bindFields hbind
          · exact ih ((bind_of_ok hadd).symm.trans hrest) other hother

theorem used_of_runStatement {α : Type} {text : String} {params : List Value}
    {use : Action (Backend.Statement σ × σ) α} {b : σ} {x : α}
    (h : (runStatement text params use b).1 = .ok x) : ∃ p, (use p).1 = .ok x := by
  unfold runStatement at h
  split at h
  next => cases h
  next statement b _ => exact ⟨(statement, b), h⟩

theorem used_of_executeBatch {counts : List Nat} (hinsert : s.operation = .insert)
    (h : (executeBatch records s).1 = .ok counts) :
    ∃ p : Backend.Statement σ × σ,
      (useBatch s.inserting.parts.fields records p).1 = .ok counts := by
  rw [executeBatch_of_insert records hinsert] at h
  simp only [clearingParams, andThen] at h
  cases htext : s.draftText .insert with
  | error e =>
      rw [insertBatch_of_error records htext] at h
      cases h
  | ok text =>
      rw [insertBatch_of_text records htext] at h
      cases hopen : s.isOpen with
      | false =>
          rw [onConnection_of_closed _ ((settle_isOpen ..).trans hopen)] at h
          cases h
      | true =>
          rw [onConnection_of_open _ ((settle_isOpen ..).trans hopen)] at h
          exact used_of_runStatement h

theorem found_of_executeBatch {counts : List Nat} (hinsert : s.operation = .insert)
    (h : (executeBatch records s).1 = .ok counts) :
    ∀ record ∈ records, ∀ field ∈ s.inserting.parts.fields, record.value? field ≠ none := by
  obtain ⟨p, hp⟩ := used_of_executeBatch hinsert h
  unfold useBatch at hp
  split_ifs at hp
  · cases hp
  · rcases bind_cases (fillBatch s.inserting.parts.fields records)
      (fun _ => Backend.executeBatch) p with ⟨_, hfill, -⟩ | ⟨e, -, herror⟩
    · exact found_of_fillBatch (Prod.ext hfill rfl)
    · rw [herror] at hp
      cases hp

/-! A batch of the fields as they are written, and one of their columns. -/

@[simp] theorem setFields_operation (fields : List String) (s : Session σ) :
    (setFields fields s).operation = s.operation := by
  unfold setFields
  split <;> rfl

@[simp] theorem setFields_backend (fields : List String) (s : Session σ) :
    (setFields fields s).backend = s.backend := by
  unfold setFields
  split <;> rfl

@[simp] theorem setFields_isOpen (fields : List String) (s : Session σ) :
    (setFields fields s).isOpen = s.isOpen := by
  unfold setFields
  split <;> rfl

theorem inserting_setFields (h : s.operation = .insert) (fields : List String) :
    (setFields fields s).inserting.parts.fields = fields := by
  simp only [setFields, h]

theorem draftText_setFields_congr (h : s.operation = .insert) {fields fields' : List String}
    (hcolumns : fields.map unqualified = fields'.map unqualified) :
    (setFields fields s).draftText .insert = (setFields fields' s).draftText .insert := by
  simp only [setFields, h, draftText, Draft.compiled]
  cases s.inserting.text with
  | some text => rfl
  | none => exact compileInsert_congr hcolumns

theorem useBatch_texts (hshallow : Shallow fs)
    (hkeyed : ∀ record ∈ records, record.KeyedByColumns fs) :
    useBatch (σ := σ) (fs.map QualifiedField.text) records =
      useBatch (fs.map QualifiedField.bare) records := by
  have hfill : fillBatch (σ := σ) (fs.map QualifiedField.text) records =
      fillBatch (fs.map QualifiedField.bare) records := by
    refine fillBatch_congr fun record hrecord => bindFields_congr (fun f hf => ?_) 1
    have hkeys := hkeyed record hrecord
    obtain ⟨v, hv⟩ := hkeys.get?_bare hf
    refine ⟨v, ?_, (hkeys.value?_bare hf).trans hv⟩
    rw [hkeys.value?_text, if_pos (hshallow f hf), hv]
  simp only [useBatch, hfill, List.isEmpty_map]

/-- Up to one qualifier, the qualifiers do not matter to a batch. -/
theorem executeBatch_of_shallow (hshallow : Shallow fs)
    (hkeyed : ∀ record ∈ records, record.KeyedByColumns fs) (s : Session σ) :
    let texts := executeBatch records (s.setFields (fs.map QualifiedField.text))
    let columns := executeBatch records (s.setFields (fs.map QualifiedField.bare))
    texts.1 = columns.1 ∧ texts.2.backend = columns.2.backend := by
  intro texts columns
  by_cases h : s.operation = .insert
  · refine executeBatch_congr (by simp) (by simp) (by simp [h]) (by simp [h])
      (draftText_setFields_congr h hshallow.map_unqualified) ?_
    rw [inserting_setFields h, inserting_setFields h]
    exact useBatch_texts hshallow hkeyed
  · simp only [texts, columns]
    rw [executeBatch_of_ne records (by simpa using h),
      executeBatch_of_ne records (by simpa using h)]
    simp

/-- Beyond one qualifier, a batch of records with values for all columns fails. -/
theorem executeBatch_of_not_shallow (hdeep : ¬Shallow fs) (hrecords : records ≠ [])
    (hkeyed : ∀ record ∈ records, record.KeyedByColumns fs) (hinsert : s.operation = .insert) :
    ∃ e, (executeBatch records (s.setFields (fs.map QualifiedField.text))).1 = .error e := by
  cases h : (executeBatch records (s.setFields (fs.map QualifiedField.text))).1 with
  | error e => exact ⟨e, rfl⟩
  | ok counts =>
      obtain ⟨record, rest, rfl⟩ := List.exists_cons_of_ne_nil hrecords
      have hrecord := List.mem_cons_self (a := record) (l := rest)
      refine absurd (fun f hf => ?_) hdeep
      have hfound := found_of_executeBatch (by simpa using hinsert) h record hrecord f.text
        (by rw [inserting_setFields hinsert]; exact List.mem_map_of_mem hf)
      rw [(hkeyed record hrecord).value?_text] at hfound
      by_contra hlong
      exact hfound (if_neg hlong)

/--
**One qualifier is taken away.**  An INSERT and an UPDATE name what each field is without its
first qualifier, so they are the ones with the bare columns exactly if no field has more than one.
A record that is keyed by the columns has a value for each of them, and finds it by the text of the
field exactly if that has at most one qualifier.  So a batch of such records is what it is with the
bare columns, or, if it has any record and a field has more qualifiers, it fails.
-/
theorem columns_bare_iff (fs : List QualifiedField) :
    (∀ (d : Dialect) (schema table : String), Text.isBlankText table = false → fs ≠ [] →
      (compileInsert d schema table (fs.map QualifiedField.text) =
          .ok (insertText d schema table (fs.map QualifiedField.rest)) ∧
        (insertText d schema table (fs.map QualifiedField.rest) =
          insertText d schema table (fs.map QualifiedField.bare) ↔ Shallow fs)) ∧
      ∀ condition,
        compileUpdate d schema table (fs.map QualifiedField.text) condition =
            .ok (updateText d schema table (fs.map QualifiedField.rest) condition) ∧
          (updateText d schema table (fs.map QualifiedField.rest) condition =
            updateText d schema table (fs.map QualifiedField.bare) condition ↔ Shallow fs)) ∧
    (∀ f ∈ fs, ∀ record : Record, record.KeyedByColumns fs →
      ∃ v, Members.get? record f.bare = some v ∧
        record.value? f.text = if f.qualifiers.length ≤ 1 then some v else none) ∧
    ∀ {σ : Type} [Backend σ] (s : Session σ) (records : List Record),
      (∀ record ∈ records, record.KeyedByColumns fs) →
      let texts := executeBatch records (s.setFields (fs.map QualifiedField.text))
      let columns := executeBatch records (s.setFields (fs.map QualifiedField.bare))
      (Shallow fs → texts.1 = columns.1 ∧ texts.2.backend = columns.2.backend) ∧
        (¬Shallow fs → records ≠ [] → s.operation = .insert → ∃ e, texts.1 = .error e) := by
  refine ⟨fun d schema table htable hfs => ⟨?insert, fun condition => ?update⟩,
    fun f hf record hkeyed => ?value, fun s records hkeyed => ⟨?shallow, ?deep⟩⟩
  case insert => exact ⟨compileInsert_texts d schema htable hfs, insertText_rest_eq_iff⟩
  case update =>
    exact ⟨compileUpdate_texts d schema htable hfs condition, updateText_rest_eq_iff⟩
  case value =>
    obtain ⟨v, hv⟩ := hkeyed.get?_bare hf
    exact ⟨v, hv, by rw [hkeyed.value?_text, hv]⟩
  case shallow => exact fun hshallow => executeBatch_of_shallow hshallow hkeyed s
  case deep =>
    exact fun hdeep hrecords hinsert => executeBatch_of_not_shallow hdeep hrecords hkeyed hinsert

/-- A table's alias does not get in the way of its column. -/
theorem alias_is_taken_away :
    compileInsert Product.postgreSql.dialect "" "book" ["b.title", "year"] =
        .ok "insert into book (title,year) values (?,?)" ∧
      Record.value? [("title", .null), ("year", .null)] "b.title" = some .null := by
  obtain ⟨hstatements, hvalues, -⟩ := columns_bare_iff
    [⟨["b".toList], "title".toList, by decide, by decide⟩, ⟨[], "year".toList, nofun, by decide⟩]
  obtain ⟨⟨hinsert, -⟩, -⟩ := hstatements Product.postgreSql.dialect "" "book" (by decide)
    (List.cons_ne_nil _ _)
  obtain ⟨v, hv, htitle⟩ := hvalues _ (List.mem_cons_self ..)
    [("title", .null), ("year", .null)] fun name => Iff.rfl
  cases hv
  exact ⟨hinsert, htitle⟩

/-- The schema goes, and the table stays before its column: the server is sent `book.title` for a
column, and a record with a title has none for the field. -/
theorem table_stays_behind_schema :
    let f : QualifiedField :=
      ⟨["app".toList, "book".toList], "title".toList, by decide, by decide⟩
    let record : Record := [(f.bare, .null)]
    f.text = "app.book.title" ∧ f.bare = "title" ∧ record.KeyedByColumns [f] ∧
      compileInsert Product.postgreSql.dialect "" "book" [f.text] =
        .ok "insert into book (book.title) values (?)" ∧
      compileInsert Product.postgreSql.dialect "" "book" [f.text] ≠
        .ok (insertText Product.postgreSql.dialect "" "book" [f.bare]) ∧
      record.value? f.text = none := by
  refine ⟨rfl, rfl, fun name => Iff.rfl, rfl, ?_, rfl⟩
  decide

end Session

end SqlSession
