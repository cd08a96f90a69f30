/-
Fields in one text.

Fields and aliases may be given as a list, or as one text with commas between the entries.
`Written` says which texts stand for a list: each entry fills a cell between two commas, with any
blanks around it, and any number of further cells is blank.  Every text stands for one list, which
is the list that is read from it, and every list of entries has a text.
-/
import SqlSession.Proofs.Sql.ColumnPlaceholders
import SqlSession.Proofs.Sql.RowNumber
import SqlSession.Session.Basic

namespace SqlSession.Sql

open Text

variable {before after cs : List Char} {cell entry text : String} {cells entries : List String}

/-! ### Texts that stand for a list -/

/-- What a text can list: a name without blanks at its ends and without a comma. -/
structure IsEntry (entry : String) : Prop where
  nonempty : entry ≠ ""
  trimmed : Text.trimmed entry = entry
  bare : ',' ∉ entry.toList

instance (entry : String) : Decidable (IsEntry entry) :=
  decidable_of_iff (entry ≠ "" ∧ Text.trimmed entry = entry ∧ ',' ∉ entry.toList)
    ⟨fun ⟨h, h', h''⟩ => ⟨h, h', h''⟩, fun ⟨h, h', h''⟩ => ⟨h, h', h''⟩⟩

/-- The cells hold the entries, in this order and with blanks around them, and else only blanks. -/
inductive Written : (cells entries : List String) → Prop
  | nil : Written [] []
  | blank {cell : String} {cells entries : List String} (hcell : isBlankText cell = true)
    (more : Written cells entries) : Written (cell :: cells) entries
  | entry {before entry after : String} {cells entries : List String}
    (hbefore : isBlankText before = true) (hafter : isBlankText after = true)
    (hentry : IsEntry entry) (more : Written cells entries) :
    Written ((before ++ entry ++ after) :: cells) (entry :: entries)

/-- The text is the cells of the entries, joined with commas. -/
def Denotes (text : String) (entries : List String) : Prop :=
  ∃ cells, Written cells entries ∧ text = ",".intercalate cells

/-! ### Blanks around an entry -/

theorem isBlankText_iff : isBlankText cell = true ↔ Blank cell.toList :=
  List.all_eq_true

theorem comma_notMem_of_blank (h : isBlankText cell = true) : ',' ∉ cell.toList := fun hmem =>
  absurd (isBlankText_iff.mp h ',' hmem) (by decide)

theorem trimStart_of_trim (h : trim cs = cs) : trimStart cs = cs := by
  have hle : cs.length ≤ (trimStart cs).length := by
    have hprefix := ( trimEnd_prefix (trimStart cs)).length_le
    rwa [← trim, h] at hprefix
  exact (trimStart_suffix cs).eq_of_length_le hle

theorem trimEnd_of_trim (h : trim cs = cs) : trimEnd cs = cs := by
  rw [← h, trimEnd_trim]

/-- Blanks around a text that has none at its ends are all that trimming takes away. -/
theorem trim_surrounded (hbefore : Blank before) (hafter : Blank after) (hne : cs ≠ [])
    (htrim : trim cs = cs) : trim (before ++ cs ++ after) = cs := by
  have hstart : trimStart (before ++ (cs ++ after)) = cs ++ after := by
    have hcs := trimStart_of_trim htrim
    rw [trimStart, List.dropWhile_append_of_pos hbefore]
    rw [trimStart] at hcs
    rw [List.dropWhile_append, hcs]
    simp [hne]
  have hend : trimEnd (cs ++ after) = trimEnd cs := by
    rw [trimEnd, trimEnd, List.reverse_append,
      List.dropWhile_append_of_pos fun c hc => hafter c (List.mem_reverse.mp hc)]
  rw [trim, List.append_assoc, hstart, hend, trimEnd_of_trim htrim]

theorem trim_split (cs : List Char) :
    ∃ before after, Blank before ∧ Blank after ∧ cs = before ++ trim cs ++ after := by
  obtain ⟨before, hbefore, hstart⟩ := trimStart_split cs
  obtain ⟨after, hafter, hend⟩ := trimEnd_split (trimStart cs)
  refine ⟨before, after, hbefore, hafter, ?_⟩
  rw [List.append_assoc, trim, ← hend, ← hstart]

/-- No blanks are left at the ends of what has been trimmed. -/
theorem trim_trim (cs : List Char) : trim (trim cs) = trim cs := by
  have hstart : trimStart (trim cs) = trim cs := by
    obtain ⟨trail, -, htrail⟩ := trimEnd_split (trimStart cs)
    rw [← trim] at htrail
    have hidem : trimStart (trimStart cs) = trimStart cs := List.dropWhile_idempotent ..
    cases htrimmed : trim cs with
    | nil => rfl
    | cons c rest =>
        rw [htrimmed, List.cons_append] at htrail
        -- Were the first character a blank, the start would not have been trimmed.
        refine trimStart_cons_of_not_blank rest (Bool.eq_false_iff.mpr fun hc => ?_)
        rw [htrail, trimStart_cons_blank _ hc] at hidem
        have hlength := length_trimStart_le (rest ++ trail)
        rw [hidem, List.length_cons] at hlength
        omega
  rw [trim, hstart, trimEnd_trim]

/-! ### What is read from the cells -/

/-- The entry in a cell, if there is one. -/
def cellEntry (cell : String) : Option String :=
  if isBlankText cell then none else some (trimmed cell)

theorem cellEntry_of_blank (h : isBlankText cell = true) : cellEntry cell = none :=
  if_pos h

theorem cellEntry_surrounded {before after : String} (hbefore : isBlankText before = true)
    (hafter : isBlankText after = true) (hentry : IsEntry entry) :
    cellEntry (before ++ entry ++ after) = some entry := by
  have htrim : trim entry.toList = entry.toList := by
    rw [← String.toList_ofList (l := trim entry.toList)]
    exact congrArg String.toList hentry.trimmed
  have hne : entry.toList ≠ [] := fun hnil => hentry.nonempty (String.toList_eq_nil_iff.mp hnil)
  have htrimmed : trimmed (before ++ entry ++ after) = entry := by
    rw [trimmed, String.toList_append, String.toList_append,
      trim_surrounded (isBlankText_iff.mp hbefore) (isBlankText_iff.mp hafter) hne htrim,
      String.ofList_toList]
  have hnot : isBlankText (before ++ entry ++ after) = false := by
    refine Bool.eq_false_iff.mpr fun hblank => hentry.nonempty ?_
    rw [← htrimmed]
    exact trimmed_eq_empty_iff.mpr hblank
  rw [cellEntry, hnot, htrimmed]
  rfl

/-- A cell that is not blank has an entry, with blanks around it. -/
theorem exists_entry (hcell : isBlankText cell = false) (hbare : ',' ∉ cell.toList) :
    ∃ before after, isBlankText before = true ∧ isBlankText after = true ∧
      IsEntry (trimmed cell) ∧ cell = before ++ trimmed cell ++ after := by
  obtain ⟨before, after, hbefore, hafter, hsplit⟩ := trim_split cell.toList
  refine ⟨String.ofList before, String.ofList after, ?_, ?_, ⟨?_, ?_, ?_⟩, ?_⟩
  · rw [isBlankText_iff, String.toList_ofList]
    exact hbefore
  · rw [isBlankText_iff, String.toList_ofList]
    exact hafter
  · rw [Ne, trimmed_eq_empty_iff, hcell]
    exact Bool.false_ne_true
  · rw [trimmed, trimmed, String.toList_ofList, trim_trim]
  · rw [trimmed, String.toList_ofList]
    intro hmem
    rw [hsplit] at hbare
    exact hbare (List.mem_append_left _ (List.mem_append_right _ hmem))
  · rw [trimmed, ← String.ofList_append, ← String.ofList_append, ← hsplit, String.ofList_toList]

theorem Written.bare (h : Written cells entries) : ∀ cell ∈ cells, ',' ∉ cell.toList := by
  induction h with
  | nil => exact nofun
  | blank hcell more ih =>
      exact List.forall_mem_cons.mpr ⟨comma_notMem_of_blank hcell, ih⟩
  | entry hbefore hafter hentry more ih =>
      refine List.forall_mem_cons.mpr ⟨?_, ih⟩
      rw [String.toList_append, String.toList_append]
      simp only [List.mem_append, not_or]
      exact ⟨⟨comma_notMem_of_blank hbefore, hentry.bare⟩, comma_notMem_of_blank hafter⟩

theorem Written.filterMap_eq (h : Written cells entries) : cells.filterMap cellEntry = entries := by
  induction h with
  | nil => rfl
  | blank hcell more ih => rw [List.filterMap_cons_none (cellEntry_of_blank hcell), ih]
  | entry hbefore hafter hentry more ih =>
      rw [List.filterMap_cons_some (cellEntry_surrounded hbefore hafter hentry), ih]

theorem written_filterMap (h : ∀ cell ∈ cells, ',' ∉ cell.toList) :
    Written cells (cells.filterMap cellEntry) := by
  induction cells with
  | nil => exact .nil
  | cons cell cells ih =>
      obtain ⟨hbare, hcells⟩ := List.forall_mem_cons.mp h
      cases hcell : isBlankText cell with
      | true =>
          rw [List.filterMap_cons_none (cellEntry_of_blank hcell)]
          exact .blank hcell (ih hcells)
      | false =>
          obtain ⟨before, after, hbefore, hafter, hentry, hsplit⟩ := exists_entry hcell hbare
          have hfound : cellEntry cell = some (trimmed cell) := by rw [cellEntry, hcell]; rfl
          have hwritten := Written.entry hbefore hafter hentry (ih hcells)
          rwa [← hsplit, ← List.filterMap_cons_some hfound] at hwritten

/-! ### The list of a text -/

/-- No piece of a split holds the character that it was split at. -/
theorem notMem_of_mem_splitOn {mark : Char} {piece : List Char} (h : piece ∈ cs.splitOn mark) :
    mark ∉ piece := by
  induction cs generalizing piece with
  | nil =>
      obtain rfl := List.mem_singleton.mp h
      exact List.not_mem_nil
  | cons c cs ih =>
      rw [List.splitOn_cons_eq_if_modifyHead] at h
      split_ifs at h with hc
      · rcases List.mem_cons.mp h with rfl | h
        · exact List.not_mem_nil
        · exact ih h
      · obtain ⟨first, rest, hsplit⟩ := List.exists_cons_of_ne_nil (List.splitOn_ne_nil mark cs)
        rw [hsplit] at h ih
        rcases List.mem_cons.mp h with rfl | h
        · rw [List.mem_cons, not_or]
          exact ⟨fun heq => hc (beq_iff_eq.mpr heq.symm), ih List.mem_cons_self⟩
        · exact ih (List.mem_cons_of_mem _ h)

theorem splitList_eq (text : String) :
    splitList text = ((text.toList.splitOn ',').map String.ofList).filterMap cellEntry := by
  rw [splitList, List.splitOn_eq_splitOnP, List.filterMap_map, List.filterMap_map]
  refine List.filterMap_congr fun piece _ => ?_
  have hempty : (trim piece).isEmpty = isBlankText (String.ofList piece) := by
    rw [Bool.eq_iff_iff, ← trimmed_eq_empty_iff, trimmed, String.toList_ofList,
      String.ofList_eq_empty_iff, List.isEmpty_iff]
  simp only [Function.comp_apply, cellEntry, hempty, trimmed, String.toList_ofList]

theorem splitList_of_written (h : Written cells entries) :
    splitList (",".intercalate cells) = entries := by
  by_cases hcells : cells = []
  · -- The empty text is split into one piece, and not into none.
    subst hcells
    cases h
    rfl
  · have hbare : ∀ piece ∈ cells.map String.toList, ',' ∉ piece :=
      List.forall_mem_map.mpr h.bare
    have hjoined : (",".intercalate cells).toList = [','].intercalate (cells.map String.toList) :=
      String.toList_intercalate
    rw [splitList_eq, hjoined, List.splitOn_intercalate ',' hbare (by simpa using hcells),
      List.map_map, ← h.filterMap_eq]
    simp

/-- Every text is the cells of the list that is read from it. -/
theorem denotes_splitList (text : String) : Denotes text (splitList text) := by
  refine ⟨(text.toList.splitOn ',').map String.ofList, ?_, ?_⟩
  · rw [splitList_eq]
    refine written_filterMap (List.forall_mem_map.mpr fun piece hpiece => ?_)
    rw [String.toList_ofList]
    exact notMem_of_mem_splitOn hpiece
  · rw [← String.toList_inj, String.toList_intercalate, List.map_map]
    simp

theorem splitList_eq_iff : splitList text = entries ↔ Denotes text entries := by
  constructor
  · rintro rfl
    exact denotes_splitList text
  · rintro ⟨cells, hwritten, rfl⟩
    exact splitList_of_written hwritten

theorem Written.isEntry (h : Written cells entries) : ∀ entry ∈ entries, IsEntry entry := by
  induction h with
  | nil => exact nofun
  | blank hcell more ih => exact ih
  | entry hbefore hafter hentry more ih => exact List.forall_mem_cons.mpr ⟨hentry, ih⟩

/-- Behind its first entry, a list may be written with a blank in front of each. -/
theorem written_spaced (h : ∀ entry ∈ entries, IsEntry entry) :
    Written (entries.map (" " ++ ·)) entries := by
  induction entries with
  | nil => exact .nil
  | cons entry entries ih =>
      obtain ⟨hentry, hentries⟩ := List.forall_mem_cons.mp h
      have hwritten : Written ((" " ++ entry ++ "") :: entries.map (" " ++ ·)) (entry :: entries) :=
        .entry rfl rfl hentry (ih hentries)
      rwa [String.append_empty] at hwritten

theorem intercalate_spaced (entry : String) (entries : List String) :
    ", ".intercalate (entry :: entries) =
      ",".intercalate (entry :: entries.map (" " ++ ·)) := by
  induction entries generalizing entry with
  | nil => rfl
  | cons next entries ih =>
      have hcomma : ", " = "," ++ " " := rfl
      rw [String.intercalate_cons_cons, List.map_cons, String.intercalate_cons_cons,
        String.intercalate_cons_append, ih next, hcomma,
        String.append_assoc, String.append_assoc, String.append_assoc]

/-- A list with a comma and a blank between its entries is a text of that list. -/
theorem denotes_joined (h : ∀ entry ∈ entries, IsEntry entry) :
    Denotes (", ".intercalate entries) entries := by
  cases entries with
  | nil => exact ⟨[], .nil, rfl⟩
  | cons entry entries =>
      obtain ⟨hentry, hentries⟩ := List.forall_mem_cons.mp h
      have hwritten : Written (("" ++ entry ++ "") :: entries.map (" " ++ ·)) (entry :: entries) :=
        .entry rfl rfl hentry (written_spaced hentries)
      rw [String.append_empty, String.empty_append] at hwritten
      exact ⟨_, hwritten, intercalate_spaced entry entries⟩

/-! ### Fields and aliases -/

/--
**A text of fields stands for one list.**  The list that is read from a text is the one whose
entries, with blanks around them and blank cells between them, are joined with commas in it.
Written with a comma and a blank between its entries, the list is read as itself.  So a session
is the same for a text and for the list that it denotes, as fields and as aliases.
-/
theorem text_denotes_one_list (text : String) :
    (∀ entries, splitList text = entries ↔ Denotes text entries) ∧
    splitList (", ".intercalate (splitList text)) = splitList text ∧
    (∀ entries, Denotes text entries → ∀ {σ : Type} [Backend σ] (s : Session σ),
      s.select (FieldList.text text).entries = s.select (FieldList.list entries).entries ∧
      s.setFields (FieldList.text text).entries = s.setFields (FieldList.list entries).entries ∧
      s.setAliases (FieldList.text text).entries =
        s.setAliases (FieldList.list entries).entries) := by
  refine ⟨fun entries => splitList_eq_iff, ?_, fun entries hdenotes σ _ s => ?_⟩
  · obtain ⟨cells, hwritten, -⟩ := denotes_splitList text
    exact splitList_eq_iff.mpr (denotes_joined hwritten.isEntry)
  · have hsame : (FieldList.text text).entries = (FieldList.list entries).entries :=
      splitList_eq_iff.mpr hdenotes
    rw [hsame]
    exact ⟨rfl, rfl, rfl⟩

/-- Blanks of several kinds around the entries, and a cell without one. -/
theorem spaced_text_denotes_three :
    let text := " id\u3000,title,,\tprice "
    let names := ["id", "title", "price"]
    Denotes text names ∧ splitList text = names ∧
      ∀ {σ : Type} [Backend σ] (s : Session σ),
        s.select (FieldList.text text).entries = s.select (FieldList.list names).entries ∧
        s.setFields (FieldList.text text).entries = s.setFields (FieldList.list names).entries ∧
        s.setAliases (FieldList.text text).entries =
          s.setAliases (FieldList.list names).entries := by
  intro text names
  have hwritten : Written ([" " ++ "id" ++ "\u3000", "" ++ "title" ++ "", "",
      "\t" ++ "price" ++ " "]) names :=
    .entry (by decide) (by decide) (by decide) <| .entry (by decide) (by decide) (by decide) <|
      .blank (by decide) <| .entry (by decide) (by decide) (by decide) .nil
  have hdenotes : Denotes text names := ⟨_, hwritten, by decide⟩
  obtain ⟨hread, -, hsame⟩ := text_denotes_one_list text
  exact ⟨hdenotes, (hread names).mpr hdenotes, hsame names hdenotes⟩

end SqlSession.Sql
