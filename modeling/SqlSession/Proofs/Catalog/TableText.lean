/-
A table survives its JSON text.

Both layouts of a table are texts of one tree, so one reading has to be followed: the members of
the tree are found under their names, `fields?_memberDocuments`, and each of them is read back as
the part of the table it was written for.  Columns are read one by one, and a column without a
referenced table has no member for it and gets it back from the default.
-/
import SqlSession.Catalog.TableText
import SqlSession.Proofs.Json.Layouts

namespace SqlSession.Json.Document

/-! ### Members -/

/-- The members of an object under some of the wanted names are found under these. -/
theorem fields?_memberDocuments (present : List String) {names : List String}
    {members : List (String × Json)}
    (hpresent : members.map Prod.fst = present) (hsub : present.Sublist names)
    (hnames : names.Nodup) :
    fields? names (.object (memberDocuments members)) =
      some (members.map fun m => (m.1, m.2.document)) := by
  have hnamed : (memberDocuments members).mapM
      (fun m => (textOfPieces? m.1).map fun k => (k, m.2)) =
        some (members.map fun m => (m.1, m.2.document)) := by
    rw [memberDocuments_eq_map]
    clear hpresent
    induction members with
    | nil => rfl
    | cons m rest ih => simp [ih]
  have hfilter : (members.map fun m => (m.1, m.2.document)).filter
      (fun m => names.contains m.1) = members.map fun m => (m.1, m.2.document) := by
    rw [List.filter_eq_self]
    intro m hm
    obtain ⟨m', hm', rfl⟩ := List.mem_map.mp hm
    exact List.contains_iff_mem.mpr
      (hsub.subset (hpresent ▸ List.mem_map_of_mem (f := Prod.fst) hm'))
  have hkeys : (members.map fun m => (m.1, m.2.document)).map Prod.fst =
      present := by
    rw [List.map_map, ← hpresent]
    rfl
  show ((memberDocuments members).mapM
    fun m => (textOfPieces? m.1).map fun k => (k, m.2)) >>= _ = _
  rw [hnamed]
  show (if (List.map Prod.fst (List.filter _ _)).Nodup then _ else none) = _
  rw [hfilter, hkeys, if_pos (hnames.sublist hsub)]

@[simp] theorem textOf?_document (x : String) : textOf? (Json.text x).document = some x :=
  textOfPieces?_pieces x

@[simp] theorem boolOf?_document (b : Bool) : boolOf? (Json.bool b).document = some b :=
  rfl

@[simp] theorem optionOf?_document (x : String) :
    optionOf? textOf? (Json.text x).document = some (some x) :=
  congrArg (Option.map some) (textOfPieces?_pieces x)

@[simp] theorem int64Of?_document (n : Int64) :
    int64Of? (Json.number (JsonNumber.ofInt64 n)).document = some n := by
  show ((JsonNumber.ofInt64 n).literal.toNumber?).bind _ = _
  rw [JsonNumber.ofInt64, JsonNumber.toNumber?_literal_int]
  show (if n.toInt < 0x8000000000000000 then some (Int64.ofInt n.toInt) else none) = _
  rw [if_pos (show n.toInt < 0x8000000000000000 from n.toInt_lt), Int64.ofInt_toInt]

end SqlSession.Json.Document

namespace SqlSession.Catalog

open Json (Document)

/-! ### Parts -/

theorem SemanticType.ofName?_name (t : SemanticType) : ofName? t.name = some t := by
  cases t <;> decide +kernel

@[simp] theorem SemanticType.ofDocument?_name (t : SemanticType) :
    SemanticType.ofDocument? (Json.text t.name).document = some t := by
  show (Json.textOfPieces? (Json.pieces t.name)).bind _ = _
  rw [Json.textOfPieces?_pieces, Option.bind_some, SemanticType.ofName?_name]

/-- A column is read back from its tree. -/
theorem Column.ofDocument?_toJson (c : Column) :
    Column.ofDocument? c.toJson.document = some c := by
  obtain ⟨name, type, size, nullable, primaryKey, indexed, references⟩ := c
  cases references with
  | none =>
      unfold Column.ofDocument? Column.toJson
      rw [Json.document, Document.fields?_memberDocuments memberNames.dropLast rfl
        (by decide) (by decide)]
      simp [Document.read?, List.lookup_cons]
  | some table =>
      unfold Column.ofDocument? Column.toJson
      rw [Json.document, Document.fields?_memberDocuments memberNames rfl
        (by decide) (by decide)]
      simp [Document.read?, List.lookup_cons]

/-- Columns are read back one by one. -/
theorem listOf?_toJson (columns : List Column) :
    Document.listOf? Column.ofDocument? (Json.array (columns.map Column.toJson)).document =
      some columns := by
  show (Json.elementDocuments (columns.map Column.toJson)).mapM Column.ofDocument? = _
  rw [Json.elementDocuments_eq_map]
  induction columns with
  | nil => rfl
  | cons c rest ih =>
      rw [List.map_cons, List.map_cons, List.mapM_cons, Column.ofDocument?_toJson, ih]
      rfl

/-- A table is read back from its tree. -/
theorem Table.ofDocument?_toJson (t : Table) : Table.ofDocument? t.toJson.document = some t := by
  obtain ⟨catalog, schema, name, type, columns⟩ := t
  unfold Table.ofDocument? Table.toJson
  rw [Json.document, Document.fields?_memberDocuments memberNames rfl (by decide)
    (by decide)]
  simp [Document.read?, List.lookup_cons, listOf?_toJson]

/-- Every table is read back from its JSON text, in both layouts. -/
theorem Table.parse?_written (t : Table) :
    Table.parse? t.text = some t ∧ Table.parse? t.indentedText = some t := by
  constructor
  · rw [Table.parse?, Table.text, Document.parse?_compact, Option.bind_some,
      Table.ofDocument?_toJson]
  · rw [Table.parse?, Table.indentedText, Document.parse?_indented, Option.bind_some,
      Table.ofDocument?_toJson]

end SqlSession.Catalog
