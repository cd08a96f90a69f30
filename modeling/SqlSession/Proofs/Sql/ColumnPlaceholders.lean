/-
The placeholders of an INSERT and of an UPDATE.

A compiled text goes through the numbering part by part.  `Numbers` says of one part what the
numbering makes of it and how many placeholders it has passed behind it; such facts compose
along `++`, and an induction over the columns gives the lists that the compiler writes.  Only
texts of the caller could break the count, and schema, table and columns cannot as long as they
hold no question mark and nothing that a quote or a comment begins with.

The predicate of an UPDATE may hold all of these.  It comes last, so nothing has to be known of
it: it is numbered as it would be by itself, from where the columns have left off.
-/
import Mathlib.Data.List.TakeWhile
import Mathlib.Tactic.SplitIfs
import SqlSession.Proofs.Sql.Placeholders
import SqlSession.Sql.Statement

namespace SqlSession.Sql

variable {a b x y : String} {k m n : Nat} {sep condition : String} {columns fields : List String}

/-! ### Parts of a text -/

/-- The numbering makes one text of the other, goes through it from code to code, and has passed
`k` placeholders before it and `n` behind it. -/
def Numbers (k : Nat) (s t : String) (n : Nat) : Prop :=
  ∀ rest, numberFrom .code k (s.toList ++ rest) = t.toList ++ numberFrom .code n rest

theorem Numbers.append (ha : Numbers k a x m) (hb : Numbers m b y n) :
    Numbers k (a ++ b) (x ++ y) n := by
  intro rest
  rw [String.toList_append, String.toList_append, List.append_assoc, ha, hb, List.append_assoc]

theorem numbers_empty : Numbers k "" "" k := by
  intro rest
  rfl

theorem numberPlaceholders_append (h : Numbers 0 a x n) (b : String) :
    numberPlaceholders (a ++ b) = x ++ String.ofList (numberFrom .code n b.toList) := by
  rw [numberPlaceholders, String.toList_append, h, String.ofList_append, String.ofList_toList]

/-- The text holds no question mark, and nothing that a quote or a comment begins with. -/
def Unmarked (s : String) : Prop :=
  ∀ c ∈ s.toList, c ∉ ['?', '\'', '"', '-', '/']

instance (s : String) : Decidable (Unmarked s) :=
  List.decidableBAll (· ∉ ['?', '\'', '"', '-', '/']) s.toList

theorem Unmarked.append (ha : Unmarked a) (hb : Unmarked b) : Unmarked (a ++ b) := by
  intro c hc
  rw [String.toList_append, List.mem_append] at hc
  exact hc.elim (ha c) (hb c)

theorem numbers_of_unmarked (h : Unmarked a) : Numbers k a a k := by
  intro rest
  unfold Unmarked at h
  generalize a.toList = cs at h ⊢
  induction cs with
  | nil => rfl
  | cons c cs ih =>
      have hc := h c List.mem_cons_self
      simp only [List.mem_cons, List.not_mem_nil, or_false, not_or] at hc
      obtain ⟨hmark, hsingle, hdouble, hdash, hslash⟩ := hc
      have hstay : ∀ next, Region.after .code c next = .code := by
        intro next
        simp only [Region.after, hsingle, hdouble, hdash, hslash, or_self, false_and, if_false]
      have hcs := ih fun c' hc' => h c' (List.mem_cons_of_mem _ hc')
      simp only [List.cons_append, numberFrom, hmark, and_false, if_false, hstay, hcs]

/-- The placeholder with this number. -/
def placeholder (n : Nat) : String :=
  "$" ++ String.ofList (Text.natDigits n)

theorem numbers_mark : Numbers k "?" (placeholder (k + 1)) (k + 1) := by
  intro rest
  simp only [placeholder, String.toList_append, String.toList_ofList]
  rfl

/-! ### What the compiler writes -/

/-- A list with a question mark at the end of each entry has them numbered in order. -/
theorem numbers_marked_list {fields : List String} (k : Nat) (column : String → String)
    (hsep : Unmarked sep) (hcolumns : ∀ f ∈ fields, Unmarked (column f)) :
    Numbers k (sep.intercalate (fields.map fun f => column f ++ "?"))
      (sep.intercalate (fields.mapIdx fun i f => column f ++ placeholder (k + i + 1)))
      (k + fields.length) := by
  induction fields generalizing k with
  | nil => exact numbers_empty
  | cons f fields ih =>
      have hf : Unmarked (column f) := hcolumns f List.mem_cons_self
      have hfirst : Numbers k (column f ++ "?") (column f ++ placeholder (k + 1)) (k + 1) :=
        (numbers_of_unmarked hf).append numbers_mark
      by_cases hnil : fields = []
      · subst hnil
        simpa using hfirst
      · have hrest := ih (k + 1) fun g hg => hcolumns g (List.mem_cons_of_mem _ hg)
        have hjoined := (hfirst.append (numbers_of_unmarked hsep)).append hrest
        have hshift : ∀ i, k + (i + 1) + 1 = k + 1 + i + 1 := by
          intro i
          omega
        have hlength : k + (f :: fields).length = k + 1 + fields.length := by
          rw [List.length_cons]
          omega
        rw [hlength, List.map_cons, List.mapIdx_cons,
          String.intercalate_cons_of_ne_nil (by simpa using hnil),
          String.intercalate_cons_of_ne_nil (by simpa using hnil)]
        simp only [hshift]
        exact hjoined

/-- A list of columns by themselves is copied. -/
theorem unmarked_intercalate (hsep : Unmarked sep) (hcolumns : ∀ c ∈ columns, Unmarked c) :
    Unmarked (sep.intercalate columns) := by
  induction columns with
  | nil => exact fun c hc => absurd hc List.not_mem_nil
  | cons c columns ih =>
      have hc : Unmarked c := hcolumns c List.mem_cons_self
      by_cases hnil : columns = []
      · subst hnil
        rwa [String.intercalate_singleton]
      · rw [String.intercalate_cons_of_ne_nil hnil]
        exact (hc.append hsep).append (ih fun d hd => hcolumns d (List.mem_cons_of_mem _ hd))

theorem Unmarked.unqualified (h : Unmarked a) : Unmarked (unqualified a) := by
  unfold Sql.unqualified
  split
  · exact h
  · rename_i first rest ha
    split
    · rename_i column hdrop
      split
      · exact h
      · intro c hc
        rw [String.toList_ofList] at hc
        have hmem : c ∈ rest :=
          (List.dropWhile_suffix _).subset (hdrop ▸ List.mem_cons_of_mem _ hc)
        exact h c (ha ▸ List.mem_cons_of_mem _ hmem)
    · exact h

/-- A quoted schema is a run that the numbering copies. -/
theorem numbers_schemaQualifier {schema : String} (h : Unmarked schema) :
    Numbers k (schemaQualifier Product.postgreSql.dialect schema)
      (schemaQualifier Product.postgreSql.dialect schema) k := by
  unfold schemaQualifier
  split
  · exact numbers_empty
  · have hquoted : (Product.postgreSql.dialect.quote schema).toList =
        ['"'] ++ schema.toList ++ ['"'] := by
      simp only [Dialect.quote, String.toList_append, String.toList_singleton]
      rfl
    have hclosed : ¬['"'] <:+: schema.toList ++ [] := by
      rw [List.append_nil, List.singleton_infix_iff]
      exact fun hmem => h '"' hmem (by decide)
    refine Numbers.append (fun rest => ?_) (numbers_of_unmarked (by decide))
    rw [hquoted]
    exact copies_quote (Or.inr rfl) k _ rest (List.prefix_append ..) (.closed hclosed)

theorem trimmed_eq_empty_iff :
    Text.trimmed condition = "" ↔ Text.isBlankText condition = true := by
  rw [Text.trimmed, String.ofList_eq_empty_iff, Text.isBlankText, List.all_eq_true]
  unfold Text.trim Text.trimEnd Text.trimStart
  rw [List.reverse_eq_nil_iff, List.dropWhile_eq_nil_iff]
  simp only [List.mem_reverse]
  constructor
  · intro h c hc
    rw [← List.takeWhile_append_dropWhile (p := Text.isBlank) (l := condition.toList),
      List.mem_append] at hc
    exact hc.elim List.mem_takeWhile_imp (h c)
  · intro h c hc
    exact h c ((List.dropWhile_suffix _).subset hc)

/-- A condition is numbered as it would be by itself, from where the numbering stands. -/
theorem numberFrom_condition (condition : String) :
    String.ofList (numberFrom .code n (optionalClause " where " condition).toList) =
      if Text.isBlankText condition then ""
      else " where " ++ String.ofList (numberFrom .code n (Text.trim condition.toList)) := by
  simp only [optionalClause]
  by_cases hblank : Text.isBlankText condition = true
  · rw [trimmed_eq_empty_iff.mpr hblank, if_pos hblank]
    rfl
  · have hne : (Text.trimmed condition).isEmpty = false :=
      String.isEmpty_eq_false_iff.mpr fun hempty => hblank (trimmed_eq_empty_iff.mp hempty)
    have hwhere : Numbers n " where " " where " n := numbers_of_unmarked (by decide)
    rw [hne, if_neg Bool.false_ne_true, if_neg hblank, String.toList_append, hwhere,
      String.ofList_append, String.ofList_toList, Text.trimmed, String.toList_ofList]

section Columns

variable {schema table : String} (hschema : Unmarked schema) (htable : Unmarked table)
  (hfields : ∀ f ∈ fields, Unmarked f)
include hschema htable hfields

theorem numberPlaceholders_insert :
    let head := "insert into " ++ schemaQualifier Product.postgreSql.dialect schema ++ table
      ++ " (" ++ ",".intercalate (fields.map unqualified) ++ ") values ("
    numberPlaceholders (head ++ ",".intercalate (fields.map fun _ => "?") ++ ")") =
      head ++ ",".intercalate (fields.mapIdx fun i _ => placeholder (i + 1)) ++ ")" := by
  intro head
  have hcolumns : Unmarked (",".intercalate (fields.map unqualified)) := by
    refine unmarked_intercalate (by decide) fun c hc => ?_
    obtain ⟨f, hf, rfl⟩ := List.mem_map.mp hc
    exact (hfields f hf).unqualified
  have hhead : Numbers 0 head head 0 :=
    (((((numbers_of_unmarked (by decide)).append (numbers_schemaQualifier hschema)).append
      (numbers_of_unmarked htable)).append (numbers_of_unmarked (by decide))).append
      (numbers_of_unmarked hcolumns)).append (numbers_of_unmarked (by decide))
  have hmarks : Numbers 0 (",".intercalate (fields.map fun _ => "?"))
      (",".intercalate (fields.mapIdx fun i _ => placeholder (i + 1))) fields.length := by
    have hcomma : Unmarked "," := by decide
    have hempty : ∀ f ∈ fields, Unmarked "" := fun _ _ => by decide
    have h := numbers_marked_list 0 (fun _ => "") hcomma hempty
    simpa only [String.empty_append, Nat.zero_add] using h
  rw [numberPlaceholders_append (hhead.append hmarks)]
  rfl

theorem numberPlaceholders_update (condition : String) :
    let target := "update " ++ schemaQualifier Product.postgreSql.dialect schema ++ table ++ " set "
    numberPlaceholders (target ++ ", ".intercalate (fields.map fun f => unqualified f ++ "=?")
        ++ optionalClause " where " condition) =
      target
        ++ ", ".intercalate (fields.mapIdx fun i f => unqualified f ++ "=" ++ placeholder (i + 1))
        ++ if Text.isBlankText condition then ""
          else " where " ++ String.ofList
            (numberFrom .code fields.length (Text.trim condition.toList)) := by
  intro target
  have htarget : Numbers 0 target target 0 :=
    (((numbers_of_unmarked (by decide)).append (numbers_schemaQualifier hschema)).append
      (numbers_of_unmarked htable)).append (numbers_of_unmarked (by decide))
  have hassigned : ∀ f ∈ fields, Unmarked (unqualified f ++ "=") :=
    fun f hf => (hfields f hf).unqualified.append (by decide)
  have hmarks : Numbers 0 (", ".intercalate (fields.map fun f => unqualified f ++ "=?"))
      (", ".intercalate (fields.mapIdx fun i f => unqualified f ++ "=" ++ placeholder (i + 1)))
      fields.length := by
    have hmark : ∀ f, unqualified f ++ "=?" = unqualified f ++ "=" ++ "?" := by
      intro f
      rw [String.append_assoc]
      rfl
    have hcomma : Unmarked ", " := by decide
    have h := numbers_marked_list 0 (fun f => unqualified f ++ "=") hcomma hassigned
    simpa only [hmark, Nat.zero_add] using h
  rw [numberPlaceholders_append (htarget.append hmarks), numberFrom_condition]

end Columns

/--
**The columns are numbered in order, and the predicate behind them.**  If schema, table and
fields hold no question mark, quote, dash or slash, then of a text that PostgreSQL is sent

* an INSERT has its `i`-th value numbered `$i`, in the order of the fields, and is otherwise as
  it was compiled;
* an UPDATE has its `i`-th column assigned `$i`, in the order of the fields, and behind them the
  trimmed predicate, if it is not blank, numbered as by itself but from the number of fields on.
-/
theorem columns_numbered_in_order {schema table : String} {fields : List String}
    (hschema : Unmarked schema) (htable : Unmarked table) (hfields : ∀ f ∈ fields, Unmarked f)
    (condition : String) :
    (∀ text, compileInsert Product.postgreSql.dialect schema table fields = .ok text →
      let head := "insert into " ++ schemaQualifier Product.postgreSql.dialect schema ++ table
        ++ " (" ++ ",".intercalate (fields.map unqualified) ++ ") values ("
      text = head ++ ",".intercalate (fields.map fun _ => "?") ++ ")" ∧
      numberPlaceholders text =
        head ++ ",".intercalate (fields.mapIdx fun i _ => placeholder (i + 1)) ++ ")") ∧
    (∀ text, compileUpdate Product.postgreSql.dialect schema table fields condition = .ok text →
      numberPlaceholders text =
        "update " ++ schemaQualifier Product.postgreSql.dialect schema ++ table ++ " set "
          ++ ", ".intercalate (fields.mapIdx fun i f => unqualified f ++ "=" ++ placeholder (i + 1))
          ++ if Text.isBlankText condition then ""
            else " where " ++ String.ofList
              (numberFrom .code fields.length (Text.trim condition.toList))) := by
  constructor
  · intro text h head
    unfold compileInsert at h
    split_ifs at h
    cases h
    exact ⟨rfl, numberPlaceholders_insert hschema htable hfields⟩
  · intro text h
    unfold compileUpdate at h
    split_ifs at h
    cases h
    exact numberPlaceholders_update hschema htable hfields condition

/-- Three columns of a table with a schema, and a predicate with a placeholder between two
question marks that are none. -/
theorem book_columns_numbered :
    let d := Product.postgreSql.dialect
    let text := "update \"app\".book set title=?, price=?, year=? where note <> '?' and id = ? --?"
    Unmarked "app" ∧ Unmarked "book" ∧ (∀ f ∈ ["b.title", "price", "year"], Unmarked f) ∧
      compileInsert d "app" "book" ["b.title", "price", "year"] =
        .ok "insert into \"app\".book (title,price,year) values (?,?,?)" ∧
      numberPlaceholders "insert into \"app\".book (title,price,year) values (?,?,?)" =
        "insert into \"app\".book (title,price,year) values ($1,$2,$3)" ∧
      compileUpdate d "app" "book" ["b.title", "price", "year"] " note <> '?' and id = ? --?" =
        .ok text ∧
      numberPlaceholders text =
        "update \"app\".book set title=$1, price=$2, year=$3 where note <> '?' and id = $4 --?" := by
  intro d text
  have hschema : Unmarked "app" := by decide
  have htable : Unmarked "book" := by decide
  have hfields : ∀ f ∈ ["b.title", "price", "year"], Unmarked f := by decide
  obtain ⟨hinsert, hupdate⟩ :=
    columns_numbered_in_order hschema htable hfields " note <> '?' and id = ? --?"
  have hcompiled : compileInsert d "app" "book" ["b.title", "price", "year"] =
      .ok "insert into \"app\".book (title,price,year) values (?,?,?)" := by decide +kernel
  have hcompiled' : compileUpdate d "app" "book" ["b.title", "price", "year"]
      " note <> '?' and id = ? --?" = .ok text := by decide +kernel
  refine ⟨hschema, htable, hfields, hcompiled, ?_, hcompiled', ?_⟩
  · rw [(hinsert _ hcompiled).2]
    decide +kernel
  · rw [hupdate _ hcompiled']
    decide +kernel

end SqlSession.Sql
