/-
What a projection is, read back.

A SELECT writes its fields and aliases one after the other, and the database has to tell them
apart again: `items?` goes through a text with the quotes of a dialect and splits it at the
commas that are neither quoted nor in parentheses, and `identifier?` takes off the quotes of an
identifier, where a doubled quote stands for itself.

An alias is put between quotes as it is, and a quote in it is not doubled.  So the projection is
read back exactly where no alias holds the closing quote of the dialect, which is
`projection_read_back_iff`.  That no alias with a quote gets through, wherever it stands and
whatever is read, is a matter of counting: read back, each quote of an alias comes from two in the
text, and there is only one.  `alias_ends_its_quotes` shows such an alias as it becomes two items.
-/
import Mathlib.Data.List.Forall2
import SqlSession.Proofs.Sql.Words
import SqlSession.Sql.Statement

namespace SqlSession.Sql

open Text

variable {d : Dialect} {a b cs : List Char} {items : List (List Char)} {c q : Char} {r : Reading}

/-! ### The items of a list -/

/-- The quote that ends what the character begins, if it begins something quoted. -/
def closing? (d : Dialect) (c : Char) : Option Char :=
  if c = d.openQuote then some d.closeQuote
  else if c = '\'' ∨ c = '"' then some c
  else none

/-- What is open behind one more character, with the quotes of the dialect. -/
def Reading.nextIn (d : Dialect) (r : Reading) (c : Char) : Option Reading :=
  match r.quote with
  | some q => some { r with quote := if c = q then none else some q }
  | none =>
    match closing? d c with
    | some q => some { r with quote := some q }
    | none =>
      if c = '(' then some { r with depth := r.depth + 1 }
      else if c = ')' then if r.depth = 0 then none else some { r with depth := r.depth - 1 }
      else some r

/-- The items between the commas that stand outside of quotes and parentheses.  There are none
of a text that leaves something open, or closes what is not. -/
def items? (d : Dialect) : Reading → List Char → Option (List (List Char))
  | r, [] => if r = {} then some [[]] else none
  | r, c :: cs =>
    if c = ',' ∧ r = {} then (items? d {} cs).map ([] :: ·)
    else (r.nextIn d c).bind fun r' => (items? d r' cs).map (List.modifyHead (c :: ·))

/-- The text is one item: its quotes and parentheses are closed, and no comma stands outside
of them. -/
def Enclosed (d : Dialect) (cs : List Char) : Prop :=
  items? d {} cs = some [cs]

instance (d : Dialect) (cs : List Char) : Decidable (Enclosed d cs) :=
  inferInstanceAs (Decidable (_ = _))

theorem items?_ne_nil (h : items? d r cs = some items) : items ≠ [] := by
  induction cs generalizing r items with
  | nil =>
      rw [items?] at h
      split_ifs at h
      cases h
      exact List.cons_ne_nil _ _
  | cons c cs ih =>
      rw [items?] at h
      split_ifs at h
      · obtain ⟨rest, -, rfl⟩ := Option.map_eq_some_iff.mp h
        exact List.cons_ne_nil _ _
      · obtain ⟨r', -, h⟩ := Option.bind_eq_some_iff.mp h
        obtain ⟨rest, hrest, rfl⟩ := Option.map_eq_some_iff.mp h
        rw [Ne, List.modifyHead_eq_nil_iff]
        exact ih hrest

theorem items?_nil (h : items? d r [] = some items) : r = {} ∧ items = [[]] := by
  rw [items?] at h
  split_ifs at h with hr
  cases h
  exact ⟨hr, rfl⟩

/-- A character ends the item in front of it, or it belongs to the item. -/
theorem items?_cons (h : items? d r (c :: cs) = some items) :
    (c = ',' ∧ ∃ rest, items? d {} cs = some rest ∧ items = [] :: rest) ∨
      ∃ r' item rest, items? d r' cs = some (item :: rest) ∧ items = (c :: item) :: rest ∧
        ∀ b, items? d r (c :: b) = (items? d r' b).map (List.modifyHead (c :: ·)) := by
  rw [items?] at h
  split_ifs at h with hcomma
  · obtain ⟨rest, hrest, rfl⟩ := Option.map_eq_some_iff.mp h
    exact .inl ⟨hcomma.1, rest, hrest, rfl⟩
  · obtain ⟨r', hr', h⟩ := Option.bind_eq_some_iff.mp h
    obtain ⟨rest, hrest, rfl⟩ := Option.map_eq_some_iff.mp h
    obtain ⟨item, rest, rfl⟩ := List.exists_cons_of_ne_nil (items?_ne_nil hrest)
    exact .inr ⟨r', item, rest, hrest, rfl, fun b => by rw [items?, if_neg hcomma, hr']; rfl⟩

/-- A text that is one item becomes a part of the first item of what it stands before. -/
theorem items?_append (ha : items? d r a = some [a]) (b : List Char) :
    items? d r (a ++ b) = (items? d {} b).map (List.modifyHead (a ++ ·)) := by
  induction a generalizing r with
  | nil =>
      rw [(items?_nil ha).1]
      show _ = Option.map (List.modifyHead id) (items? d {} b)
      rw [List.modifyHead_id, Option.map_id]
      rfl
  | cons c a ih =>
      rcases items?_cons ha with ⟨-, rest, -, hitems⟩ | ⟨r', item, rest, hrest, hitems, hstep⟩
      · cases hitems
      · cases hitems
        have hcomp : List.modifyHead (c :: ·) ∘ List.modifyHead (a ++ ·) =
            List.modifyHead (c :: a ++ ·) :=
          funext fun items => List.modifyHead_modifyHead
        rw [List.cons_append, hstep, ih hrest, Option.map_map, hcomp]

theorem Enclosed.append (ha : Enclosed d a) (hb : Enclosed d b) : Enclosed d (a ++ b) := by
  rw [Enclosed, items?_append ha, hb]
  rfl

/-- Between a text and its items, nothing is lost but commas. -/
theorem count_items (hq : q ≠ ',') (h : items? d r cs = some items) :
    items.flatten.count q = cs.count q := by
  induction cs generalizing r items with
  | nil =>
      rw [(items?_nil h).2]
      rfl
  | cons c cs ih =>
      rcases items?_cons h with ⟨rfl, rest, hrest, rfl⟩ | ⟨r', item, rest, hrest, rfl, -⟩
      · rw [List.flatten_cons, List.nil_append, ih hrest, List.count_cons_of_ne (Ne.symm hq)]
      · have ih := ih hrest
        rw [List.flatten_cons] at ih
        rw [List.flatten_cons, List.cons_append, List.count_cons, List.count_cons, ih]

/-! ### Quoted identifiers -/

/-- What stands before the quote that ends the text, with every doubled quote taken for one.
No other quote may stand in it. -/
def content? (q : Char) : List Char → Option (List Char)
  | [] => none
  | [c] => if c = q then some [] else none
  | c :: c' :: cs =>
    if c = q then if c' = q then (content? q cs).map (q :: ·) else none
    else (content? q (c' :: cs)).map (c :: ·)

/-- The content of an identifier between the quotes of the dialect. -/
def identifier? (d : Dialect) : List Char → Option (List Char)
  | [] => none
  | c :: cs => if c = d.openQuote then content? d.closeQuote cs else none

theorem content?_of_notMem (h : q ∉ a) : content? q (a ++ [q]) = some a := by
  induction a with
  | nil => simp [content?]
  | cons c a ih =>
      simp only [List.mem_cons, not_or] at h
      have ih := ih h.2
      cases a with
      | nil => simp_all [content?, Ne.symm h.1]
      | cons c' a =>
          simp only [List.cons_append] at ih ⊢
          rw [content?, if_neg (Ne.symm h.1), ih]
          rfl

/-- Each quote of the content comes from two of the text, which has one more at its end. -/
theorem count_content (h : content? q cs = some a) : cs.count q = 2 * a.count q + 1 := by
  fun_induction content? q cs generalizing a with
  | case1 => cases h
  | case2 =>
      cases h
      simp
  | case3 c hc => cases h
  | case4 cs ih =>
      obtain ⟨rest, hrest, rfl⟩ := Option.map_eq_some_iff.mp h
      have ih := ih hrest
      simp only [List.count_cons_self]
      omega
  | case5 c' cs hc' => cases h
  | case6 c c' cs hc ih =>
      obtain ⟨rest, hrest, rfl⟩ := Option.map_eq_some_iff.mp h
      rw [List.count_cons_of_ne hc, List.count_cons_of_ne hc, ih hrest]

/-! ### One field and its alias -/

/-- What stands between a field and its alias. -/
def link (d : Dialect) : List Char :=
  match d.aliasStyle with
  | .as => " as ".toList
  | .bare => [' ']

/-- The item is, behind some blanks, the field and one identifier with the alias for its
content. -/
def IsItem (d : Dialect) (entry : String × String) (item : List Char) : Prop :=
  ∃ lead identifier, (∀ c ∈ lead, isBlank c = true) ∧
    item = lead ++ entry.1.toList ++ link d ++ identifier ∧
    identifier? d identifier = some entry.2.toList

theorem toList_projected (d : Dialect) (field label : String) :
    (projected d field label).toList =
      field.toList ++ link d ++ d.openQuote :: (label.toList ++ [d.closeQuote]) := by
  unfold projected link Dialect.quote
  cases d.aliasStyle <;> simp

/-- Between its quotes, a text without the closing one is nothing but quoted. -/
theorem items?_quoted (h : q ∉ a) : items? d ⟨some q, 0⟩ (a ++ [q]) = some [a ++ [q]] := by
  induction a with
  | nil => simp [items?, Reading.nextIn]
  | cons c a ih =>
      simp only [List.mem_cons, not_or] at h
      have hnext : Reading.nextIn d ⟨some q, 0⟩ c = some ⟨some q, 0⟩ := by
        simp only [Reading.nextIn, if_neg (Ne.symm h.1)]
      rw [List.cons_append, items?, if_neg (by simp), hnext, Option.bind_some, ih h.2]
      rfl

section Products

variable {p : Product} {entries : List (String × String)} {entry : String × String}

theorem closeQuote_ne_comma (p : Product) : p.dialect.closeQuote ≠ ',' := by
  cases p <;> decide

theorem enclosed_link (p : Product) : Enclosed p.dialect (link p.dialect) := by
  cases p <;> decide

theorem enclosed_blank (p : Product) : Enclosed p.dialect [' '] := by
  cases p <;> decide

theorem enclosed_quoted (h : p.dialect.closeQuote ∉ a) :
    Enclosed p.dialect (p.dialect.openQuote :: (a ++ [p.dialect.closeQuote])) := by
  have hcomma : ¬(p.dialect.openQuote = ',' ∧ ({} : Reading) = {}) := by cases p <;> decide
  have hnext : Reading.nextIn p.dialect {} p.dialect.openQuote =
      some ⟨some p.dialect.closeQuote, 0⟩ := by
    simp only [Reading.nextIn, closing?, if_true]
  rw [Enclosed, items?, if_neg hcomma, hnext, Option.bind_some, items?_quoted h]
  rfl

theorem enclosed_projected (hfield : Enclosed p.dialect entry.1.toList)
    (hlabel : p.dialect.closeQuote ∉ entry.2.toList) :
    Enclosed p.dialect (projected p.dialect entry.1 entry.2).toList := by
  rw [toList_projected]
  exact (hfield.append (enclosed_link p)).append (enclosed_quoted hlabel)

theorem isItem_projected (hlabel : p.dialect.closeQuote ∉ entry.2.toList) :
    IsItem p.dialect entry (projected p.dialect entry.1 entry.2).toList := by
  refine ⟨[], _, by simp, toList_projected .., ?_⟩
  rw [identifier?, if_pos rfl, content?_of_notMem hlabel]

theorem IsItem.blank_cons {item : List Char} (h : IsItem d entry item) :
    IsItem d entry (' ' :: item) := by
  obtain ⟨lead, identifier, hlead, rfl, hidentifier⟩ := h
  refine ⟨' ' :: lead, identifier, ?_, rfl, hidentifier⟩
  exact List.forall_mem_cons.mpr ⟨by decide, hlead⟩

/-- Read back, an item has two quotes in the text for each quote in its alias. -/
theorem IsItem.count {item : List Char} (h : IsItem p.dialect entry item) :
    item.count p.dialect.closeQuote =
      (projected p.dialect entry.1 entry.2).toList.count p.dialect.closeQuote +
        entry.2.toList.count p.dialect.closeQuote := by
  obtain ⟨lead, identifier, hlead, rfl, hidentifier⟩ := h
  have hsame : p.dialect.openQuote = p.dialect.closeQuote := by cases p <;> rfl
  have hblank : isBlank p.dialect.closeQuote = false := by cases p <;> decide
  have hnone : lead.count p.dialect.closeQuote = 0 := by
    rw [List.count_eq_zero]
    intro hmem
    rw [hlead _ hmem] at hblank
    cases hblank
  cases identifier with
  | nil => cases hidentifier
  | cons c cs =>
      rw [identifier?] at hidentifier
      split_ifs at hidentifier with hc
      have hcount := count_content hidentifier
      rw [toList_projected, hc, hsame]
      simp only [List.count_append, List.count_cons_self, List.count_nil, hnone, hcount]
      omega

/-! ### A projection and its items -/

/-- The items of the text are the fields, each with its alias. -/
def ReadsBack (d : Dialect) (text : String) (entries : List (String × String)) : Prop :=
  ∃ items, items? d {} text.toList = some items ∧ List.Forall₂ (IsItem d) entries items

/-- The fields with their aliases, as a SELECT has them. -/
def projection (d : Dialect) (entries : List (String × String)) : String :=
  ", ".intercalate (entries.map fun entry => projected d entry.1 entry.2)

theorem projection_cons (d : Dialect) (entry : String × String) (h : entries ≠ []) :
    (projection d (entry :: entries)).toList =
      (projected d entry.1 entry.2).toList ++ ',' :: ' ' :: (projection d entries).toList := by
  have hne : entries.map (fun entry => projected d entry.1 entry.2) ≠ [] := by simpa using h
  rw [projection, List.map_cons, String.intercalate_cons_of_ne_nil hne, String.toList_append,
    String.toList_append, List.append_assoc]
  rfl

/-- Every item of the projection ends in front of a comma, and the blank behind the comma belongs
to the next one. -/
theorem readsBack_projection (hne : entries ≠ [])
    (hfields : ∀ entry ∈ entries, Enclosed p.dialect entry.1.toList)
    (hlabels : ∀ entry ∈ entries, p.dialect.closeQuote ∉ entry.2.toList) :
    ReadsBack p.dialect (projection p.dialect entries) entries := by
  induction entries with
  | nil => exact absurd rfl hne
  | cons entry rest ih =>
      have hitem := isItem_projected (hlabels entry List.mem_cons_self)
      have henclosed := enclosed_projected (hfields entry List.mem_cons_self)
        (hlabels entry List.mem_cons_self)
      by_cases hlast : rest = []
      · subst hlast
        refine ⟨[(projected p.dialect entry.1 entry.2).toList], ?_, .cons hitem .nil⟩
        rw [projection, List.map_singleton, String.intercalate_singleton]
        exact henclosed
      · obtain ⟨items, hitems, hall⟩ := ih hlast
          (fun entry hmem => hfields entry (List.mem_cons_of_mem _ hmem))
          (fun entry hmem => hlabels entry (List.mem_cons_of_mem _ hmem))
        obtain ⟨item, items, rfl⟩ := List.exists_cons_of_ne_nil (items?_ne_nil hitems)
        refine ⟨(projected p.dialect entry.1 entry.2).toList :: (' ' :: item) :: items, ?_,
          .cons hitem ?_⟩
        · have hblank := items?_append (enclosed_blank p) (projection p.dialect rest).toList
          rw [List.singleton_append, hitems] at hblank
          rw [projection_cons _ _ hlast, items?_append henclosed, items?, if_pos ⟨rfl, rfl⟩, hblank]
          simp
        · cases hall with
          | cons hhead htail => exact .cons hhead.blank_cons htail

/-- Read back, the projection has one more quote for each quote of its aliases. -/
theorem count_entries (h : List.Forall₂ (IsItem p.dialect) entries items) :
    items.flatten.count p.dialect.closeQuote =
      (projection p.dialect entries).toList.count p.dialect.closeQuote +
        (entries.flatMap fun entry => entry.2.toList).count p.dialect.closeQuote := by
  have hcomma := closeQuote_ne_comma p
  have hblank : p.dialect.closeQuote ≠ ' ' := by cases p <;> decide
  induction h with
  | nil => rfl
  | @cons entry item entries items hitem hall ih =>
      have hitem := hitem.count
      rw [List.flatten_cons, List.flatMap_cons, List.count_append, List.count_append]
      by_cases hlast : entries = []
      · subst hlast
        cases hall
        rw [projection, List.map_singleton, String.intercalate_singleton]
        simpa using hitem
      · rw [projection_cons _ _ hlast, List.count_append, List.count_cons_of_ne hcomma.symm,
          List.count_cons_of_ne hblank.symm]
        omega

theorem readsBack_projection_iff (hne : entries ≠ [])
    (hfields : ∀ entry ∈ entries, Enclosed p.dialect entry.1.toList) :
    ReadsBack p.dialect (projection p.dialect entries) entries ↔
      ∀ entry ∈ entries, p.dialect.closeQuote ∉ entry.2.toList := by
  refine ⟨?_, readsBack_projection hne hfields⟩
  rintro ⟨items, hitems, hall⟩
  have hcount := count_entries hall
  rw [count_items (closeQuote_ne_comma p) hitems] at hcount
  have hnone : (entries.flatMap fun entry => entry.2.toList).count p.dialect.closeQuote = 0 := by
    omega
  intro entry hmem hquote
  exact List.count_eq_zero.mp hnone (List.mem_flatMap.mpr ⟨entry, hmem, hquote⟩)

/-! ### The projection of a SELECT -/

/-- An alias that comes from a field has a quote exactly if the field has one. -/
theorem closeQuote_mem_defaultAlias (field : String) :
    p.dialect.closeQuote ∈ (defaultAlias p.dialect field).toList ↔
      p.dialect.closeQuote ∈ field.toList := by
  have hunderscore : p.dialect.closeQuote ≠ '_' := by cases p <;> decide
  have hdot : p.dialect.closeQuote ≠ '.' := by cases p <;> decide
  unfold defaultAlias
  split_ifs with hlabels
  · rfl
  · rw [String.toList_ofList, List.mem_map]
    constructor
    · rintro ⟨c, hmem, hc⟩
      split_ifs at hc
      · exact absurd hc.symm hunderscore
      · exact hc ▸ hmem
    · intro hmem
      exact ⟨_, hmem, if_neg hdot⟩

theorem compileSelect_eq {d : Dialect} {parts : SelectParts} {labels : List String}
    (hfields : parts.fields ≠ []) (hsource : isBlankText parts.source = false)
    (hlabels : resolveAliases d parts.fields parts.aliases = .ok labels) :
    ∃ behind, compileSelect d parts = .ok ("select " ++ leadingLimit d parts.limit ++
      projection d (parts.fields.zip labels) ++ " from " ++ behind) := by
  have hempty : parts.fields.isEmpty = false := List.isEmpty_eq_false_iff.mpr hfields
  have hprojection : projection d (parts.fields.zip labels) =
      ", ".intercalate (List.zipWith (projected d) parts.fields labels) := by
    rw [projection, ← List.map_uncurry_zip_eq_zipWith]
    rfl
  rw [hprojection]
  refine ⟨schemaQualifier d parts.schema ++ trimmed parts.source ++
    selectFilter d parts.limit parts.condition ++ optionalClause " order by " parts.order ++
    trailingLimit d parts.limit ++ if d.nolockHint then " with (nolock)" else "", ?_⟩
  simp only [compileSelect, hempty, hlabels, hsource, Bool.false_eq_true, if_false,
    String.append_assoc]

/-- The text of a SELECT up to its filter. -/
def beforeFilter (d : Dialect) (parts : SelectParts) (labels : List String) : String :=
  "select " ++ leadingLimit d parts.limit ++ projection d (parts.fields.zip labels) ++ " from "
    ++ schemaQualifier d parts.schema ++ trimmed parts.source

/-- The text of a SELECT behind its filter. -/
def afterFilter (d : Dialect) (parts : SelectParts) : String :=
  optionalClause " order by " parts.order ++ trailingLimit d parts.limit
    ++ if d.nolockHint then " with (nolock)" else ""

/-- Whether a SELECT compiles does not depend on its limit. -/
theorem compileSelect_cases (d : Dialect) (parts : SelectParts) :
    (∃ e, ∀ limit, compileSelect d { parts with limit } = .error e) ∨
      ∃ labels, resolveAliases d parts.fields parts.aliases = .ok labels ∧
        ∀ limit, compileSelect d { parts with limit } =
          .ok (beforeFilter d { parts with limit } labels ++ selectFilter d limit parts.condition
            ++ afterFilter d { parts with limit }) := by
  cases hfields : parts.fields.isEmpty with
  | true => exact .inl ⟨_, fun limit => if_pos hfields⟩
  | false =>
      cases hlabels : resolveAliases d parts.fields parts.aliases with
      | error e =>
          refine .inl ⟨e, fun limit => ?_⟩
          simp only [compileSelect, hfields, hlabels, Bool.false_eq_true, if_false]
      | ok labels =>
          cases hsource : isBlankText parts.source with
          | true =>
              refine .inl ⟨.missingSource, fun limit => ?_⟩
              simp only [compileSelect, hfields, hlabels, hsource, Bool.false_eq_true, if_false,
                if_true]
          | false =>
              refine .inr ⟨labels, rfl, fun limit => ?_⟩
              simp only [compileSelect, beforeFilter, afterFilter, projection, hfields, hlabels,
                hsource, Bool.false_eq_true, if_false, String.append_assoc]
              rw [← List.map_uncurry_zip_eq_zipWith]
              rfl

/--
**A projection is read back unless an alias holds the quote that ends it.**  A SELECT over
fields that are each one item compiles, with one alias for each field.  Reading its projection
back gives the fields and their aliases, one item for each, exactly if no alias holds the closing
quote of the dialect.  With the aliases that come from the fields, no field may hold it.
-/
theorem projection_read_back_iff (p : Product) (parts : SelectParts)
    (hfields : parts.fields ≠ []) (hsource : isBlankText parts.source = false)
    (haliases : ∀ labels ∈ parts.aliases, labels.length = parts.fields.length)
    (henclosed : ∀ field ∈ parts.fields, Enclosed p.dialect field.toList) :
    ∃ labels behind,
      resolveAliases p.dialect parts.fields parts.aliases = .ok labels ∧
      labels.length = parts.fields.length ∧
      compileSelect p.dialect parts = .ok ("select " ++ leadingLimit p.dialect parts.limit ++
        projection p.dialect (parts.fields.zip labels) ++ " from " ++ behind) ∧
      (ReadsBack p.dialect (projection p.dialect (parts.fields.zip labels))
          (parts.fields.zip labels) ↔
        ∀ label ∈ labels, p.dialect.closeQuote ∉ label.toList) ∧
      (parts.aliases = none →
        (ReadsBack p.dialect (projection p.dialect (parts.fields.zip labels))
            (parts.fields.zip labels) ↔
          ∀ field ∈ parts.fields, p.dialect.closeQuote ∉ field.toList)) := by
  obtain ⟨labels, hlabels, hlength⟩ : ∃ labels,
      resolveAliases p.dialect parts.fields parts.aliases = .ok labels ∧
        labels.length = parts.fields.length := by
    unfold resolveAliases
    cases hcase : parts.aliases with
    | none => exact ⟨_, rfl, List.length_map ..⟩
    | some labels =>
        have hlength := haliases labels hcase
        exact ⟨labels, if_pos hlength, hlength⟩
  obtain ⟨behind, hcompiled⟩ := compileSelect_eq hfields hsource hlabels
  have hread : ReadsBack p.dialect (projection p.dialect (parts.fields.zip labels))
      (parts.fields.zip labels) ↔ ∀ label ∈ labels, p.dialect.closeQuote ∉ label.toList := by
    have hne : parts.fields.zip labels ≠ [] := by
      rw [← List.length_pos_iff, List.length_zip, hlength, Nat.min_self]
      exact List.length_pos_iff.mpr hfields
    rw [readsBack_projection_iff hne fun entry hmem => henclosed _ (List.of_mem_zip hmem).1]
    constructor
    · intro h label hmem
      rw [← List.map_snd_zip (Nat.le_of_eq hlength)] at hmem
      obtain ⟨entry, hentry, rfl⟩ := List.mem_map.mp hmem
      exact h entry hentry
    · intro h entry hmem
      exact h _ (List.of_mem_zip hmem).2
  refine ⟨labels, behind, hlabels, hlength, hcompiled, hread, fun hnone => hread.trans ?_⟩
  rw [hnone] at hlabels
  cases hlabels
  rw [defaultAliases, List.forall_mem_map]
  simp only [closeQuote_mem_defaultAlias]

/-- Commas in parentheses and in quotes, of fields and of aliases, begin no new item. -/
theorem author_count_read_back :
    let fields := ["count(author, \"id\")", "title"]
    let labels := ["n, 'all'", "t"]
    ReadsBack Product.postgreSql.dialect
      (projection Product.postgreSql.dialect (fields.zip labels)) (fields.zip labels) := by
  intro fields labels
  obtain ⟨_, behind, hlabels, -, -, hread, -⟩ :=
    projection_read_back_iff .postgreSql { fields, aliases := some labels, source := "book" }
      (by decide) (by decide) (by decide) (by decide)
  cases hlabels
  exact hread.mpr (by decide)

/-- An alias with a quote in it ends there, and what follows is read as one more field. -/
theorem alias_ends_its_quotes :
    let d := Product.postgreSql.dialect
    let label := "x\", secret as \"y"
    Enclosed d "id".toList ∧
      compileSelect d { fields := ["id"], aliases := some [label], source := "book" } =
        .ok ("select " ++ projection d [("id", label)] ++ " from book") ∧
      ¬ReadsBack d (projection d [("id", label)]) [("id", label)] := by
  intro d label
  refine ⟨by decide, by decide, ?_⟩
  rintro ⟨items, hitems, hall⟩
  have htwo : items? d {} (projection d [("id", label)]).toList =
      some ["id as \"x\"".toList, " secret as \"y\"".toList] := by decide
  rw [htwo] at hitems
  cases hitems
  exact absurd hall.length_eq (by decide)

end Products

end SqlSession.Sql
