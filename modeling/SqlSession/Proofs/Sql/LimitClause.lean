/-
The row limit among what the caller has written.

A SELECT is put together from the caller's texts, which are taken as they are, and a limit is
meant to be code.  Where it stands at the front of the statement it always is.  Elsewhere it
stands behind texts of the caller, and a comment that one of them leaves open goes on through
the limit, which `limit_in_code_iff` says of every statement that compiles.

It takes no open comment of the caller for that.  A predicate is trimmed, and with its last line
break goes the end of a line comment: `limit_in_comment`.
-/
import SqlSession.Proofs.Sql.Places
import SqlSession.Proofs.Text.Digits

namespace SqlSession.Sql

open Text Place

variable {p : Product} {d : Dialect} {parts : SelectParts} {labels : List String} {text : String}
  {entries : List (String × String)} {head predicate : List Char} {limit : Nat}

/-! ### The parts around the limit -/

/-- What stands before the bound in a text without a group. -/
def boundGuard (head : List Char) : List Char :=
  match findKeyword "where".toList head with
  | some i => head.take i ++ "where (".toList ++ trim (head.drop (i + 5)) ++ ") and ".toList
  | none =>
    if head.isEmpty then "where ".toList
    else if needsWhere head then "where (".toList ++ head ++ ") and ".toList
    else head ++ " where ".toList

/-- The predicate without its group. -/
def ungrouped (predicate : List Char) : List Char :=
  match findKeyword "group".toList predicate with
  | some i => trimEnd (predicate.take i)
  | none => predicate

/-- What stands behind the bound in a predicate. -/
def behindBound (predicate : List Char) : List Char :=
  match findKeyword "group".toList predicate with
  | some i => ' ' :: predicate.drop i
  | none => []

/-- The limit in the words of the dialect. -/
def limitClause (d : Dialect) (limit : Nat) : List Char :=
  match d.rowLimit with
  | .top => "top ".toList ++ natDigits limit
  | .first => "first ".toList ++ natDigits limit
  | .limit => "limit ".toList ++ natDigits limit
  | .rowNumber => rowNumberBound limit
  | .unsupported => []

/-- The text of a SELECT up to its limit. -/
def beforeLimit (d : Dialect) (parts : SelectParts) (labels : List String) : List Char :=
  match d.rowLimit with
  | .limit =>
    (beforeFilter d parts labels ++ selectFilter d parts.limit parts.condition
      ++ optionalClause " order by " parts.order).toList ++ [' ']
  | .rowNumber =>
    (beforeFilter d parts labels).toList ++
      ' ' :: boundGuard (ungrouped (trim parts.condition.toList))
  | _ => "select ".toList

/-- The text of a SELECT behind its limit. -/
def behindLimit (d : Dialect) (parts : SelectParts) (labels : List String) : List Char :=
  match d.rowLimit with
  | .limit => (if d.nolockHint then " with (nolock)" else "").toList
  | .rowNumber => behindBound (trim parts.condition.toList) ++ (afterFilter d parts).toList
  | _ =>
    (" " ++ projection d (parts.fields.zip labels) ++ " from " ++ schemaQualifier d parts.schema
      ++ trimmed parts.source ++ selectFilter d parts.limit parts.condition
      ++ afterFilter d parts).toList

theorem boundedCondition_eq_guard (limit : Nat) (head : List Char) :
    boundedCondition limit head = boundGuard head ++ rowNumberBound limit := by
  unfold boundedCondition boundGuard
  cases findKeyword "where".toList head with
  | some i => rfl
  | none => simp only [apply_ite (· ++ rowNumberBound limit)]

theorem boundedPredicate_eq_guard (limit : Nat) (predicate : List Char) :
    boundedPredicate limit predicate =
      boundGuard (ungrouped predicate) ++ rowNumberBound limit ++ behindBound predicate := by
  unfold boundedPredicate ungrouped behindBound
  cases findKeyword "group".toList predicate with
  | some i => simp only [boundedCondition_eq_guard]
  | none => simp only [boundedCondition_eq_guard, List.append_nil]

theorem toList_intText_natCast (n : Nat) : (intText n).toList = natDigits n := by
  rw [intText, if_neg (by omega), String.toList_ofList, Int.natAbs_natCast]

/-- The limit stands where the dialect has it. -/
theorem toList_limited (hlimit : parts.limit ≠ 0) (hsupported : d.rowLimit ≠ .unsupported) :
    (beforeFilter d parts labels ++ selectFilter d parts.limit parts.condition
        ++ afterFilter d parts).toList =
      beforeLimit d parts labels ++ limitClause d parts.limit ++ behindLimit d parts labels := by
  unfold beforeLimit limitClause behindLimit
  cases hform : d.rowLimit with
  | unsupported => exact absurd hform hsupported
  | top => simp [beforeFilter, leadingLimit, hform, hlimit, toList_intText_natCast]
  | first => simp [beforeFilter, leadingLimit, hform, hlimit, toList_intText_natCast]
  | limit => simp [afterFilter, trailingLimit, hform, hlimit, toList_intText_natCast]
  | rowNumber => simp [selectFilter, hform, hlimit, boundedPredicate_eq_guard]

theorem compileSelect_limited (h : compileSelect d parts = .ok text) (hlimit : parts.limit ≠ 0)
    (hsupported : d.rowLimit ≠ .unsupported) :
    ∃ labels, resolveAliases d parts.fields parts.aliases = .ok labels ∧
      text.toList =
        beforeLimit d parts labels ++ limitClause d parts.limit ++ behindLimit d parts labels := by
  rcases compileSelect_cases d parts with ⟨e, herror⟩ | ⟨labels, hlabels, hcompiled⟩
  · rw [herror parts.limit] at h
    cases h
  · rw [hcompiled parts.limit] at h
    cases h
    exact ⟨labels, hlabels, toList_limited hlimit hsupported⟩

/-! ### The texts of the caller before the limit -/

/-- The fields and their aliases, the schema and the source. -/
def leadingTexts (d : Dialect) (parts : SelectParts) (labels : List String) : List (List Char) :=
  ((parts.fields.zip labels).flatMap fun entry => [entry.1.toList, (d.quote entry.2).toList])
    ++ [if parts.schema.isEmpty then [] else (d.quote parts.schema).toList,
      trim parts.source.toList]

/-- What stands before the bound of a text without a group and is the caller's. -/
def guardTexts (head : List Char) : List (List Char) :=
  match findKeyword "where".toList head with
  | some i => [head.take i, trim (head.drop (i + 5))]
  | none => [head]

/-- What stands before the limit and is the caller's. -/
def textsBefore (d : Dialect) (parts : SelectParts) (labels : List String) : List (List Char) :=
  let predicate := trim parts.condition.toList
  match d.rowLimit with
  | .limit => leadingTexts d parts labels ++ [predicate, trim parts.order.toList]
  | .rowNumber =>
    leadingTexts d parts labels ++ guardTexts (ungrouped predicate)
  | _ => []

/-- The characters of generated text; no quote is among them, and none has a part in a comment's
beginning or end. -/
def isGenerated (c : Char) : Bool :=
  c.isAlphanum || [' ', ',', '.', '(', ')', '<', '='].contains c

theorem neutral_of_isGenerated {c : Char} (h : isGenerated c = true) : Neutral p.dialect c := by
  have hne : ∀ q, isGenerated q = false → c ≠ q := by
    rintro q hq rfl
    rw [h] at hq
    cases hq
  have hopen : c ≠ p.dialect.openQuote := hne _ (by cases p <;> rfl)
  have hquote : ¬(c = '\'' ∨ c = '"') := not_or.mpr ⟨hne _ rfl, hne _ rfl⟩
  refine ⟨?_, by rw [closing?, if_neg hopen, if_neg hquote]⟩
  simp only [List.mem_cons, List.not_mem_nil, or_false, not_or]
  exact ⟨hne _ rfl, hne _ rfl, hne _ rfl, hne _ rfl⟩

theorem neutral_of_generated {glue : List Char} (h : glue.all isGenerated = true) :
    ∀ c ∈ glue, Neutral p.dialect c :=
  fun c hc => neutral_of_isGenerated (List.all_eq_true.mp h c hc)

theorem neutral_natDigits (n : Nat) : ∀ c ∈ natDigits n, Neutral p.dialect c := by
  intro c hc
  have hdigit := isDigit_of_mem_natDigits hc
  exact neutral_of_isGenerated (by rw [isGenerated, Char.isAlphanum, hdigit]; simp)

theorem neutral_limitClause (limit : Nat) :
    ∀ c ∈ limitClause p.dialect limit, Neutral p.dialect c := by
  unfold limitClause
  cases p.dialect.rowLimit with
  | unsupported => exact nofun
  | _ => exact List.forall_mem_append.mpr ⟨neutral_of_generated rfl, neutral_natDigits limit⟩

theorem toList_optionalClause (keyword body : String) :
    (optionalClause keyword body).toList =
      if trim body.toList = [] then [] else keyword.toList ++ trim body.toList := by
  by_cases h : trim body.toList = [] <;> simp [optionalClause, trimmed, h]

theorem toList_selectFilter (condition : String) (h : limit = 0 ∨ d.rowLimit ≠ .rowNumber) :
    (selectFilter d limit condition).toList =
      if trim condition.toList = [] then []
      else if needsWhere (trim condition.toList) then " where ".toList ++ trim condition.toList
      else " ".toList ++ trim condition.toList := by
  have hbound : ¬(limit ≠ 0 ∧ d.rowLimit = .rowNumber) := by tauto
  by_cases hempty : trim condition.toList = []
  · simp [selectFilter, hbound, hempty]
  · by_cases hneeds : needsWhere (trim condition.toList) = true <;>
      simp [selectFilter, hbound, hempty, hneeds]

theorem woven_optionalClause (keyword body : String)
    (hkeyword : ∀ c ∈ keyword.toList, Neutral p.dialect c) (hne : keyword.toList ≠ []) :
    Woven p.dialect [trim body.toList] (optionalClause keyword body).toList := by
  rw [toList_optionalClause]
  split_ifs with hempty
  · rw [hempty]
    exact .empty _
  · exact .singleton hkeyword fun hnil => absurd hnil hne

theorem woven_selectFilter (condition : String)
    (h : limit = 0 ∨ p.dialect.rowLimit ≠ .rowNumber) :
    Woven p.dialect [trim condition.toList] (selectFilter p.dialect limit condition).toList := by
  rw [toList_selectFilter condition h]
  split_ifs with hempty
  · rw [hempty]
    exact .empty _
  · exact .singleton (neutral_of_generated rfl) nofun
  · exact .singleton (neutral_of_generated rfl) nofun

theorem woven_boundGuard (head : List Char) :
    Woven p.dialect (guardTexts head) (" ".toList ++ boundGuard head) := by
  unfold guardTexts boundGuard
  cases findKeyword "where".toList head with
  | some i =>
      have hjoin : Woven p.dialect [head.take i] (" ".toList ++ head.take i) :=
        .singleton (neutral_of_generated rfl) nofun
      have hcondition : Woven p.dialect [trim (head.drop (i + 5))]
          ("where (".toList ++ trim (head.drop (i + 5)) ++ ") and ".toList) :=
        .text (neutral_of_generated rfl) nofun (.glue (neutral_of_generated rfl))
      simpa using hjoin.append hcondition
  | none =>
      simp only
      split_ifs with hempty hneeds
      · rw [List.isEmpty_iff.mp hempty]
        exact (Woven.empty _).append (.glue (neutral_of_generated rfl))
      · rw [← List.append_assoc, ← List.append_assoc]
        exact .text (neutral_of_generated rfl) nofun (.glue (neutral_of_generated rfl))
      · rw [← List.append_assoc]
        exact .text (neutral_of_generated rfl) nofun (.glue (neutral_of_generated rfl))

theorem woven_projection {glue : List Char} (hglue : ∀ c ∈ glue, Neutral p.dialect c)
    (hne : glue ≠ []) :
    Woven p.dialect
      (entries.flatMap fun entry => [entry.1.toList, (p.dialect.quote entry.2).toList])
      (glue ++ (projection p.dialect entries).toList) := by
  induction entries generalizing glue with
  | nil => exact .glue (by simpa [projection] using hglue)
  | cons entry entries ih =>
      have hlink : ∀ c ∈ link p.dialect, Neutral p.dialect c :=
        neutral_of_generated (by cases p <;> rfl)
      have hlinked : link p.dialect ≠ [] := by cases p <;> decide
      have hentry : Woven p.dialect [entry.1.toList, (p.dialect.quote entry.2).toList]
          (glue ++ (projected p.dialect entry.1 entry.2).toList) := by
        have hfield : Woven p.dialect [entry.1.toList] (glue ++ entry.1.toList) :=
          .singleton hglue fun hnil => absurd hnil hne
        have hlabel : Woven p.dialect [(p.dialect.quote entry.2).toList]
            (link p.dialect ++ (p.dialect.quote entry.2).toList) :=
          .singleton hlink fun hnil => absurd hnil hlinked
        simpa [toList_projected, Dialect.quote] using hfield.append hlabel
      by_cases hlast : entries = []
      · subst hlast
        simpa [projection] using hentry
      · have hrest : Woven p.dialect _ (", ".toList ++ (projection p.dialect entries).toList) :=
          ih (neutral_of_generated rfl) (by decide)
        rw [projection_cons _ _ hlast]
        simpa using hentry.append hrest

theorem woven_leadingTexts (hleading : leadingLimit p.dialect parts.limit = "") :
    Woven p.dialect (leadingTexts p.dialect parts labels)
      (beforeFilter p.dialect parts labels).toList := by
  have hsource : Woven p.dialect
      [if parts.schema.isEmpty then [] else (p.dialect.quote parts.schema).toList,
        trim parts.source.toList]
      (" from ".toList ++ (schemaQualifier p.dialect parts.schema).toList ++
        trim parts.source.toList) := by
    have hfrom : ∀ text, Woven p.dialect [text] (" from ".toList ++ text) :=
      fun text => .singleton (neutral_of_generated rfl) (by simp)
    unfold schemaQualifier
    split_ifs
    · exact (Woven.empty _).append (hfrom (trim parts.source.toList))
    · have hdot : Woven p.dialect [trim parts.source.toList]
          (".".toList ++ trim parts.source.toList) :=
        .singleton (neutral_of_generated rfl) (by simp)
      simpa using (hfrom (p.dialect.quote parts.schema).toList).append hdot
  have hprojection : Woven p.dialect _
      ("select ".toList ++ (projection p.dialect (parts.fields.zip labels)).toList) :=
    woven_projection (neutral_of_generated rfl) (by decide)
  simpa [beforeFilter, leadingTexts, hleading, trimmed] using hprojection.append hsource

theorem woven_beforeLimit (p : Product) (parts : SelectParts) (labels : List String) :
    Woven p.dialect (textsBefore p.dialect parts labels) (beforeLimit p.dialect parts labels) := by
  have hselect : Woven p.dialect [] "select ".toList := .glue (neutral_of_generated rfl)
  unfold textsBefore beforeLimit
  cases hform : p.dialect.rowLimit with
  | top => exact hselect
  | first => exact hselect
  | unsupported => exact hselect
  | limit =>
      have hleading : leadingLimit p.dialect parts.limit = "" := by simp [leadingLimit, hform]
      have hfilter := woven_selectFilter (p := p) parts.condition
        (show parts.limit = 0 ∨ _ from .inr (by simp [hform]))
      have horder := woven_optionalClause (p := p) " order by " parts.order
        (neutral_of_generated rfl) (by decide)
      have hblank : Woven p.dialect [] [' '] := .glue (neutral_of_generated rfl)
      simpa using (woven_leadingTexts hleading).append (hfilter.append (horder.append hblank))
  | rowNumber =>
      have hleading : leadingLimit p.dialect parts.limit = "" := by simp [leadingLimit, hform]
      exact (woven_leadingTexts hleading).append (woven_boundGuard _)

/-! ### The limit in code -/

theorem exists_boundGuard (head : List Char) : ∃ guard, boundGuard head = guard ++ [' '] := by
  unfold boundGuard
  cases findKeyword "where".toList head with
  | some i =>
      exact ⟨head.take i ++ "where (".toList ++ trim (head.drop (i + 5)) ++ ") and".toList,
        by simp⟩
  | none =>
      simp only
      split_ifs
      · exact ⟨"where".toList, rfl⟩
      · exact ⟨"where (".toList ++ head ++ ") and".toList, by simp⟩
      · exact ⟨head ++ " where".toList, by simp⟩

theorem exists_beforeLimit (d : Dialect) (parts : SelectParts) (labels : List String) :
    ∃ front, beforeLimit d parts labels = front ++ [' '] := by
  unfold beforeLimit
  cases d.rowLimit with
  | limit => exact ⟨_, rfl⟩
  | rowNumber =>
      obtain ⟨guard, hguard⟩ := exists_boundGuard (ungrouped (trim parts.condition.toList))
      exact ⟨(beforeFilter d parts labels).toList ++ ' ' :: guard, by simp [hguard]⟩
  | _ => exact ⟨"select".toList, rfl⟩

theorem limitClause_ne_nil (hsupported : d.rowLimit ≠ .unsupported) (limit : Nat) :
    limitClause d limit ≠ [] := by
  unfold limitClause
  cases hform : d.rowLimit with
  | unsupported => exact absurd hform hsupported
  | _ => exact List.append_ne_nil_of_left_ne_nil (by decide) _

theorem isCode_limit_iff (parts : SelectParts) (labels : List String)
    (hsupported : p.dialect.rowLimit ≠ .unsupported) :
    IsCode p.dialect (beforeLimit p.dialect parts labels) (limitClause p.dialect parts.limit)
        (behindLimit p.dialect parts labels) ↔
      readAll p.dialect (.code none) (textsBefore p.dialect parts labels) = .code none := by
  have hwoven := read_woven (woven_beforeLimit p parts labels) (sound_code _ none)
  obtain ⟨front, hfront⟩ := exists_beforeLimit p.dialect parts labels
  rw [hfront] at hwoven ⊢
  rw [isCode_iff (limitClause_ne_nil hsupported _) (neutral_limitClause _)
    (neutral_of_isGenerated rfl), hwoven]
  rfl

/--
**A row limit is code exactly if the caller's texts before it leave nothing open.**  A SELECT with
a limit that compiles is the text before its limit, the limit, and the text behind it.  However
the whole is read, the limit is code, exactly if a reader who goes through the caller's texts
before it, one after the other, is in code at their end.  So it is if none of them leaves a quoted
run or a comment open, as they stand in the statement; at the front of the statement there are
none.
-/
theorem limit_in_code_iff (p : Product) (parts : SelectParts) (text : String)
    (hlimit : parts.limit ≠ 0) (hsupported : p.dialect.rowLimit ≠ .unsupported)
    (hcompiled : compileSelect p.dialect parts = .ok text) :
    ∃ labels, resolveAliases p.dialect parts.fields parts.aliases = .ok labels ∧
      text.toList = beforeLimit p.dialect parts labels ++ limitClause p.dialect parts.limit ++
        behindLimit p.dialect parts labels ∧
      (IsCode p.dialect (beforeLimit p.dialect parts labels) (limitClause p.dialect parts.limit)
          (behindLimit p.dialect parts labels) ↔
        readAll p.dialect (.code none) (textsBefore p.dialect parts labels) = .code none) ∧
      ((∀ text ∈ textsBefore p.dialect parts labels, EndsInCode p.dialect text) →
        IsCode p.dialect (beforeLimit p.dialect parts labels) (limitClause p.dialect parts.limit)
          (behindLimit p.dialect parts labels)) := by
  obtain ⟨labels, hlabels, htext⟩ := compileSelect_limited hcompiled hlimit hsupported
  have hcode := isCode_limit_iff parts labels hsupported
  exact ⟨labels, hlabels, htext, hcode, fun hends => hcode.mpr (readAll_of_endsInCode hends)⟩

/-- A line comment in the middle of a predicate has its end, and the limit is code. -/
theorem limit_behind_ended_comment :
    let d := Product.postgreSql.dialect
    let parts : SelectParts :=
      { fields := ["id"], source := "book", condition := "id > 1 -- not the first\n and id < 9",
        limit := 5 }
    parts.limit ≠ 0 ∧ d.rowLimit ≠ .unsupported ∧
      compileSelect d parts = .ok
        "select id as \"id\" from book where id > 1 -- not the first\n and id < 9 limit 5" ∧
      IsCode d (beforeLimit d parts ["id"]) (limitClause d 5) (behindLimit d parts ["id"]) := by
  intro d parts
  have hcompiled : compileSelect d parts = .ok
      "select id as \"id\" from book where id > 1 -- not the first\n and id < 9 limit 5" := by
    decide
  obtain ⟨labels, hlabels, -, -, hcode⟩ :=
    limit_in_code_iff .postgreSql parts _ (by decide) (by decide) hcompiled
  cases hlabels
  exact ⟨by decide, by decide, hcompiled, hcode (by decide)⟩

/-- A predicate that ends its comment with its last line loses the end of the line, and the limit
goes into the comment. -/
theorem limit_in_comment :
    let d := Product.postgreSql.dialect
    let parts : SelectParts :=
      { fields := ["id"], source := "book", condition := "id > 1 -- not the first\n", limit := 5 }
    (∀ text ∈ ["id", parts.source, parts.condition], EndsInCode d text.toList) ∧
      compileSelect d parts = .ok
        "select id as \"id\" from book where id > 1 -- not the first limit 5" ∧
      beforeLimit d parts ["id"] ++ limitClause d 5 ++ behindLimit d parts ["id"] =
        "select id as \"id\" from book where id > 1 -- not the first limit 5".toList ∧
      ¬IsCode d (beforeLimit d parts ["id"]) (limitClause d 5) (behindLimit d parts ["id"]) := by
  intro d parts
  refine ⟨by decide, by decide, by decide, ?_⟩
  exact (isCode_limit_iff (p := .postgreSql) parts ["id"] (by decide)).not.mpr (by decide)

end SqlSession.Sql
