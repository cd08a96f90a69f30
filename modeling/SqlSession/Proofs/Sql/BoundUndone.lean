/-
The row-number bound taken out again.

A SELECT with a limit and the same SELECT without one should differ in the bound and in nothing
else.  `Unbinds` takes the bound out of a filter: behind the first `where` outside quotes and
parentheses, the condition loses its parentheses and the bound, and a `where` that is there for
the bound alone goes with it.  `lexemes` compares texts up to their blanks.

The two are put together in different ways.  Without a limit, a predicate gets a `where` in front
unless a keyword leads it; with one, its `where` is looked for, wherever it stands.  So they part
where a predicate is led by no keyword and has a `where` all the same, as `left join` has it.
`bound_undone_iff` says that they part nowhere else.
-/
import SqlSession.Proofs.Sql.ProjectionItems
import SqlSession.Proofs.Sql.RowNumber

namespace SqlSession.Sql

open Text

variable {keyword a b c cs head join predicate rest tail : List Char}
  {condition : Option (List Char)} {limit : Nat}

/-! ### Texts up to blanks -/

/-- The words of a text and the single characters between them, blanks left out. -/
def lexemes : List Char → List (List Char)
  | [] => []
  | c :: cs =>
    if isBlank c then lexemes cs
    else if isWordChar c && beginsInWord cs then (lexemes cs).modifyHead (c :: ·)
    else [c] :: lexemes cs

theorem lexemes_ne_nil (h : beginsInWord cs = true) : lexemes cs ≠ [] := by
  induction cs with
  | nil => cases h
  | cons c cs ih =>
      have hblank : isBlank c = false := Bool.eq_false_iff.mpr fun hblank => by
        rw [beginsInWord, List.head?_cons, Option.any_some, isWordChar_of_blank hblank] at h
        cases h
      rw [lexemes, hblank, if_neg Bool.false_ne_true]
      split_ifs with hmore
      · rw [Ne, List.modifyHead_eq_nil_iff]
        exact ih (Bool.and_eq_true_iff.mp hmore).2
      · exact List.cons_ne_nil _ _

/-- Where no word reaches across, two texts have their lexemes one after the other. -/
theorem lexemes_append (h : Apart a b) : lexemes (a ++ b) = lexemes a ++ lexemes b := by
  induction a with
  | nil => rfl
  | cons c a ih =>
      cases a with
      | nil =>
          have hnext : (isWordChar c && beginsInWord b) = false := by
            rcases h with h | h
            · rw [Bool.and_eq_false_imp]
              intro hc
              rw [endsInWord, List.getLast?_singleton, Option.any_some, hc] at h
              cases h
            · rw [h, Bool.and_false]
          have halone : (isWordChar c && beginsInWord []) = false := Bool.and_false _
          rw [List.singleton_append]
          simp only [lexemes, hnext, halone, Bool.false_eq_true, if_false]
          split_ifs <;> rfl
      | cons d a =>
          have hrest : Apart (d :: a) b := h
          have hbegins : beginsInWord (d :: a ++ b) = beginsInWord (d :: a) := rfl
          rw [List.cons_append, lexemes, lexemes, hbegins, ih hrest]
          split_ifs with hblank hword
          · rfl
          · have hne := lexemes_ne_nil (Bool.and_eq_true_iff.mp hword).2
            obtain ⟨x, xs, hx⟩ := List.exists_cons_of_ne_nil hne
            rw [hx]
            rfl
          · rfl

theorem lexemes_blank_cons {x : Char} (h : isBlank x = true) (cs : List Char) :
    lexemes (x :: cs) = lexemes cs := by
  rw [lexemes, if_pos h]

theorem lexemes_of_blank (h : Blank cs) : lexemes cs = [] := by
  induction cs with
  | nil => rfl
  | cons x cs ih =>
      rw [lexemes_blank_cons (h x List.mem_cons_self)]
      exact ih fun y hy => h y (List.mem_cons_of_mem _ hy)

theorem lexemes_blank_append (h : Blank a) (b : List Char) : lexemes (a ++ b) = lexemes b := by
  induction a with
  | nil => rfl
  | cons x a ih =>
      rw [List.cons_append, lexemes_blank_cons (h x List.mem_cons_self)]
      exact ih fun y hy => h y (List.mem_cons_of_mem _ hy)

theorem lexemes_append_blank (h : Blank b) (a : List Char) : lexemes (a ++ b) = lexemes a := by
  rw [lexemes_append (apart_of_blank h), lexemes_of_blank h, List.append_nil]

theorem lexemes_trimEnd (cs : List Char) : lexemes (trimEnd cs) = lexemes cs := by
  obtain ⟨trail, htrail, hcs⟩ := trimEnd_split cs
  conv_rhs => rw [hcs]
  exact (lexemes_append_blank htrail _).symm

theorem lexemes_trim (cs : List Char) : lexemes (trim cs) = lexemes cs := by
  obtain ⟨lead, hlead, hcs⟩ := trimStart_split cs
  conv_rhs => rw [hcs]
  rw [trim, lexemes_trimEnd, lexemes_blank_append hlead]

/-- A word is one lexeme. -/
theorem lexemes_word (hk : IsWord keyword) {word : List Char} (h : asciiLower word = keyword) :
    lexemes word = [word] := by
  have hne := ne_nil_of_reads hk h
  have hall := wordChar_of_reads hk h
  clear h
  induction word with
  | nil => exact absurd rfl hne
  | cons x word ih =>
      have hx := hall x List.mem_cons_self
      have hblank : isBlank x = false := Bool.eq_false_iff.mpr fun hblank => by
        rw [isWordChar_of_blank hblank] at hx
        cases hx
      cases word with
      | nil => simp [lexemes, hblank, beginsInWord]
      | cons y word =>
          have hbegins : beginsInWord (y :: word) = true := hall y (by simp)
          rw [lexemes, hblank, hx, hbegins, ih (List.cons_ne_nil _ _) fun z hz =>
            hall z (List.mem_cons_of_mem _ hz)]
          rfl

/-! ### A filter without its bound -/

/-- What stands in the place of the bound and of what it is put behind, once it is out. -/
def released (keyword : List Char) : Option (List Char) → List Char
  | none => []
  | some condition => keyword ++ ' ' :: condition

/-- The filter is the first text with the bound taken out: the first `where` outside quotes and
parentheses stands before it, and a condition in parentheses between them loses these.  The
keyword is put back in the given letters. -/
def Unbinds (limit : Nat) (keyword filter undone : List Char) : Prop :=
  ∃ before condition rest,
    CutBefore "where".toList filter before
      ("where ".toList ++ guarded condition ++ rowNumberBound limit ++ rest) ∧
    (∀ c ∈ condition, Closed c) ∧ undone = before ++ released keyword condition ++ rest

/-- There is one place in front of the first word. -/
theorem CutBefore.unique {before before' after after' : List Char}
    (h : CutBefore keyword cs before after) (h' : CutBefore keyword cs before' after') :
    before = before' ∧ after = after' := by
  have hle : ∀ {before before' after after' : List Char}, CutBefore keyword cs before after →
      CutBefore keyword cs before' after' → before'.length ≤ before.length := by
    intro before before' after after' h h'
    by_contra hlt
    refine h'.first before.length (by omega) (h.word ?_)
    rintro rfl
    have hlength := congrArg List.length (h.whole.symm.trans h'.whole)
    simp only [List.append_nil, List.length_append] at hlength
    omega
  exact List.append_inj (h.whole.symm.trans h'.whole) (Nat.le_antisymm (hle h' h) (hle h h'))

/-- A closed text goes up to the parenthesis that closes none of its own. -/
theorem closed_unique {x y : List Char} (ha : Closed a) (hb : Closed b)
    (h : a ++ ')' :: x = b ++ ')' :: y) : a = b := by
  have hnot : ∀ z, ¬Closed (')' :: z) := fun z hz => by cases hz
  rcases List.append_eq_append_iff.mp h with ⟨z, hz, hx⟩ | ⟨z, hz, hy⟩
  · cases z with
    | nil => rw [hz, List.append_nil]
    | cons d z =>
        cases hx
        exact absurd ((closed_append_iff ha).mp (hz ▸ hb)) (hnot z)
  · cases z with
    | nil => rw [hz, List.append_nil]
    | cons d z =>
        cases hy
        exact absurd ((closed_append_iff hb).mp (hz ▸ ha)) (hnot z)

theorem guarded_unique {condition' : Option (List Char)} {rest' : List Char}
    (hc : ∀ c ∈ condition, Closed c) (hc' : ∀ c ∈ condition', Closed c)
    (h : guarded condition ++ (rowNumberBound limit ++ rest) =
      guarded condition' ++ (rowNumberBound limit ++ rest')) :
    condition = condition' ∧ rest = rest' := by
  cases condition with
  | none =>
      cases condition' with
      | none => exact ⟨rfl, List.append_cancel_left h⟩
      | some c' => cases h
  | some c =>
      cases condition' with
      | none => cases h
      | some c' =>
          simp only [guarded, List.append_assoc, List.cons_append, List.cons.injEq, true_and] at h
          obtain rfl := closed_unique (hc c rfl) (hc' c' rfl) h
          refine ⟨rfl, ?_⟩
          simpa using h

/-- The bound can be taken out in one way only. -/
theorem Unbinds.unique {filter undone undone' : List Char}
    (h : Unbinds limit keyword filter undone) (h' : Unbinds limit keyword filter undone') :
    undone = undone' := by
  obtain ⟨before, condition, rest, hcut, hc, rfl⟩ := h
  obtain ⟨before', condition', rest', hcut', hc', rfl⟩ := h'
  obtain ⟨rfl, hafter⟩ := hcut.unique hcut'
  simp only [List.append_assoc] at hafter
  obtain ⟨rfl, rfl⟩ := guarded_unique hc hc' (List.append_cancel_left hafter)
  rfl

theorem Divided.noWhere_join (h : Divided head join condition) : NoWord "where".toList join := by
  cases h with
  | marked cut found => exact cut.noWord_before isWord_where
  | bare => exact fun i hi => absurd (length_lt_of_wordAt isWord_where hi) (Nat.not_lt_zero i)
  | unfiltered unmarked led => exact unmarked

/-! ### Keywords that lead a text in pieces -/

theorem LedByKeyword.append (hab : Apart a b) (h : LedByKeyword a) : LedByKeyword (a ++ b) := by
  obtain ⟨lead, rest, rfl, hlead, keyword, hmem, hstarts⟩ := h
  have hk := isWord_of_leading hmem
  have hne : rest ≠ [] := by
    rintro rfl
    exact absurd (length_lt_of_wordAt hk (startsWithKeyword_iff_wordAt.mp hstarts)) (by simp)
  refine ⟨lead, rest ++ b, List.append_assoc .., hlead, keyword, hmem, ?_⟩
  rwa [startsWithKeyword_append hk (by rwa [Apart, endsInWord_append_of_ne hne] at hab) hne]

/-- A keyword that leads a text leads its first piece, unless that has nothing to be led. -/
theorem LedByKeyword.of_append (hab : Apart a b) (hproper : ∃ c ∈ a, ¬(isBlank c = true ∨ c = '('))
    (h : LedByKeyword (a ++ b)) : LedByKeyword a := by
  obtain ⟨c, hc, hproper⟩ := hproper
  obtain ⟨lead, rest, heq, hlead, keyword, hmem, hstarts⟩ := h
  rcases List.append_eq_append_iff.mp heq with ⟨x, rfl, -⟩ | ⟨x, rfl, rfl⟩
  · exact absurd (hlead c (List.mem_append_left _ hc)) hproper
  · have hne : x ≠ [] := by
      rintro rfl
      rw [List.append_nil] at hc
      exact hproper (hlead c hc)
    refine ⟨lead, x, rfl, hlead, keyword, hmem, ?_⟩
    rwa [startsWithKeyword_append (isWord_of_leading hmem)
      (by rwa [Apart, endsInWord_append_of_ne hne] at hab) hne] at hstarts

/-- A closed text that ends in no blank is not all blanks and opening parentheses. -/
theorem exists_proper (hclosed : Closed cs) (htrim : trimEnd cs = cs) (hne : cs ≠ []) :
    ∃ c ∈ cs, ¬(isBlank c = true ∨ c = '(') := by
  by_contra hnone
  have hlead : ∀ c ∈ cs, isBlank c = true ∨ c = '(' :=
    fun c hc => by_contra fun h => hnone ⟨c, hc, h⟩
  obtain rfl | ⟨front, last, rfl⟩ := List.eq_nil_or_concat' cs
  · exact hne rfl
  rcases hlead last (by simp) with hlast | rfl
  · have hshort := trimEnd_prefix front
    have hle := hshort.length_le
    have hlength := congrArg List.length htrim
    simp only [trimEnd, List.reverse_append, List.reverse_singleton, List.singleton_append,
      List.dropWhile_cons_of_pos hlast, List.length_append, List.length_singleton] at hle hlength
    omega
  · obtain ⟨r, hr, hq⟩ := reading_lead (fun c hc => hlead c (List.mem_append_left _ hc))
      (r := {}) rfl
    rw [Closed, reading_append, hr] at hclosed
    obtain ⟨_ | q, depth⟩ := r
    · cases hclosed
    · cases hq

/-! ### The lexemes of both filters -/

/-- A `where` that stands in front of the group, outside quotes and parentheses, does so in a
predicate that a keyword leads. -/
def WhereIsLed (predicate : List Char) : Prop :=
  LedByKeyword predicate ∨
    ∃ head tail, CutBefore "group".toList predicate head tail ∧ NoWord "where".toList head

/-- The keyword in lower case, or in the letters that the predicate has it in. -/
def Spells (predicate keyword : List Char) : Prop :=
  keyword = "where".toList ∨
    ∃ i, WordAt "where".toList predicate i ∧ keyword = (predicate.drop i).take 5

theorem reads_of_spells (h : Spells predicate keyword) : asciiLower keyword = "where".toList := by
  rcases h with rfl | ⟨i, ⟨before, word, after, rfl, rfl, -, hreads, -⟩, rfl⟩
  · decide
  · have hlength : word.length = 5 := by
      have h := congrArg List.length hreads
      rwa [asciiLower, List.length_map] at h
    rwa [List.append_assoc, List.drop_left, ← hlength, List.take_left]

theorem lexemes_released (hreads : asciiLower keyword = "where".toList) :
    lexemes (released keyword condition) =
      condition.elim [] fun c => keyword :: lexemes c := by
  cases condition with
  | none => rfl
  | some c =>
      rw [released, lexemes_append (Or.inr rfl), lexemes_word isWord_where hreads,
        lexemes_blank_cons rfl]
      rfl

/-- Without a limit, a predicate that is led by a keyword follows as it is. -/
theorem lexemes_unlimited_of_led (d : Dialect) {text : String}
    (huncommented : Uncommented (trim text.toList))
    (h : trim text.toList = [] ∨ LedByKeyword (trim text.toList)) :
    lexemes (selectFilter d 0 text).toList = lexemes (trim text.toList) := by
  by_cases hempty : trim text.toList = []
  · simp only [selectFilter, hempty]
    rfl
  · have hneeds : needsWhere (trim text.toList) = false :=
      Bool.eq_false_iff.mpr fun hn => (needsWhere_iff huncommented).mp hn (h.resolve_left hempty)
    simp only [selectFilter, List.isEmpty_eq_false_iff.mpr hempty, hneeds, ne_eq, not_true_eq_false,
      false_and, Bool.false_eq_true, if_false, String.toList_append, String.toList_ofList]
    exact lexemes_blank_cons rfl _

/-- Any other one follows behind a `where`. -/
theorem lexemes_unlimited_of_unled (d : Dialect) {text : String}
    (huncommented : Uncommented (trim text.toList)) (hempty : trim text.toList ≠ [])
    (h : ¬LedByKeyword (trim text.toList)) :
    lexemes (selectFilter d 0 text).toList = "where".toList :: lexemes (trim text.toList) := by
  have hneeds := (needsWhere_iff huncommented).mpr h
  simp only [selectFilter, List.isEmpty_eq_false_iff.mpr hempty, hneeds, ne_eq, not_true_eq_false,
    false_and, Bool.false_eq_true, if_false, if_true, String.toList_append, String.toList_ofList]
  have hsplit : " where ".toList = ' ' :: ("where".toList ++ [' ']) := by decide
  rw [hsplit, List.cons_append, List.append_assoc, lexemes_blank_cons rfl,
    lexemes_append (Or.inr rfl), List.singleton_append, lexemes_blank_cons rfl,
    lexemes_word isWord_where (by decide)]
  rfl

/-- Taking the bound out of a filter leaves the parts of the predicate. -/
theorem exists_unbinds {d : Dialect} (hd : d.rowLimit = .rowNumber) (hlimit : limit ≠ 0)
    {text : String} (hclosed : Closed (trim text.toList))
    (huncommented : Uncommented (trim text.toList)) :
    ∃ head join condition tail, CutBefore "group".toList (trim text.toList) head tail ∧
      Divided (trimEnd head) join condition ∧
      ∀ keyword, asciiLower keyword = "where".toList → ∃ undone,
        Unbinds limit keyword (selectFilter d limit text).toList undone ∧
        beginsInWord undone = false ∧
        lexemes undone =
          lexemes join ++ (lexemes (released keyword condition) ++ lexemes tail) := by
  obtain ⟨head, join, condition, tail, gap, rest, hcut, hdivided, hgap, hends, hrest, heq⟩ :=
    boundedPredicate_eq limit (trimEnd_trim _) hclosed huncommented
  have hhead := (hcut.closed hclosed).trimEnd
  have hjoin := hdivided.closed_join hhead
  have hleadEnds : endsInWord (' ' :: join ++ gap) = false := endsInWord_of_blank_cons hends
  have hnone : NoWord "where".toList (' ' :: join ++ gap) :=
    noWord_lead isWord_where hjoin hdivided.noWhere_join hgap
  have hfilter : (selectFilter d limit text).toList = ' ' :: join ++ gap ++
      ("where ".toList ++ guarded condition ++ rowNumberBound limit ++ rest) := by
    simp only [selectFilter, hlimit, hd, heq, ne_eq, not_false_eq_true, and_self, if_true,
      String.toList_append, String.toList_ofList, List.append_assoc, List.cons_append]
    rfl
  have hcutWhere : CutBefore "where".toList (selectFilter d limit text).toList
      (' ' :: join ++ gap)
      ("where ".toList ++ guarded condition ++ rowNumberBound limit ++ rest) := by
    refine ⟨hfilter, fun i hi hword => ?_, fun _ => ?_⟩
    · rw [hfilter] at hword
      exact hnone i (hword.of_append isWord_where (Or.inl hleadEnds) hi)
    · rw [hfilter]
      exact wordAt_append_iff.mpr ⟨closed_lead hjoin hgap, hleadEnds, rfl⟩
  have hrestLexemes : lexemes rest = lexemes tail ∧ beginsInWord rest = false := by
    rcases hrest with ⟨rfl, rfl⟩ | rfl
    · exact ⟨rfl, rfl⟩
    · exact ⟨lexemes_blank_cons rfl _, rfl⟩
  refine ⟨head, join, condition, tail, hcut, hdivided, fun keyword hreads =>
    ⟨_, ⟨_, condition, rest, hcutWhere, hdivided.closed_condition hhead, rfl⟩, rfl, ?_⟩⟩
  rw [lexemes_append (Or.inr hrestLexemes.2), lexemes_append (Or.inl hleadEnds),
    lexemes_append_blank hgap, lexemes_blank_cons rfl, hrestLexemes.1, List.append_assoc]

/-- The part in front of a word may be trimmed, and what then follows reads as before. -/
theorem CutBefore.trimmed {before after : List Char} (h : CutBefore keyword cs before after) :
    ∃ behind, cs = trimEnd before ++ behind ∧ Apart (trimEnd before) behind ∧
      lexemes behind = lexemes after := by
  obtain ⟨trail, htrail, hbefore⟩ := trimEnd_split before
  refine ⟨trail ++ after, ?_, ?_, lexemes_blank_append htrail after⟩
  · rw [← List.append_assoc, ← hbefore, h.whole]
  · cases trail with
    | nil =>
        rw [List.append_nil] at hbefore
        rw [← hbefore]
        exact h.apart
    | cons x trail => exact Or.inr (isWordChar_of_blank (htrail x List.mem_cons_self))

/-- Where nothing but a group is left, or the first part is led by a keyword, the whole is led. -/
theorem CutBefore.led_of_led {before after : List Char}
    (h : CutBefore "group".toList (trim cs) before after)
    (hled : trimEnd before = [] ∨ LedByKeyword (trimEnd before)) :
    trim cs = [] ∨ LedByKeyword (trim cs) := by
  rcases hled with hempty | hled
  · obtain ⟨trail, htrail, hbefore⟩ := trimEnd_split before
    rw [hempty, List.nil_append] at hbefore
    by_cases hafter : after = []
    · have hwhole := h.whole
      rw [hafter, List.append_nil] at hwhole
      exact Or.inl (by rw [← trimEnd_trim, hwhole, hempty])
    · refine Or.inr ⟨before, after, h.whole, fun c hc => Or.inl (htrail c (hbefore ▸ hc)), "group",
        by simp, (h.split hafter).2.2⟩
  · obtain ⟨behind, hwhole, hapart, -⟩ := h.trimmed
    exact Or.inr (hwhole ▸ hled.append hapart)

theorem trimEnd_trimEnd (cs : List Char) : trimEnd (trimEnd cs) = trimEnd cs := by
  simp only [trimEnd, List.reverse_reverse, List.dropWhile_idempotent]

theorem noWord_of_trimEnd (hk : IsWord keyword) (hclosed : Closed (trimEnd cs))
    (h : NoWord keyword (trimEnd cs)) : NoWord keyword cs := by
  obtain ⟨trail, htrail, hcs⟩ := trimEnd_split cs
  rw [hcs]
  exact h.append hk hclosed (apart_of_blank htrail) (noWord_of_blank hk htrail)

/-- The `where` of a marked text is a lexeme between those of its parts. -/
theorem lexemes_marked (cut : CutBefore "where".toList head join rest) (found : rest ≠ []) :
    asciiLower (rest.take 5) = "where".toList ∧
      lexemes head = lexemes join ++ rest.take 5 :: lexemes (trim (rest.drop 5)) := by
  obtain ⟨word, after, rfl, hreads, hbegins⟩ := startsWithKeyword_iff.mp (cut.split found).2.2
  have hlength : word.length = 5 := by
    have h := congrArg List.length hreads
    rwa [asciiLower, List.length_map] at h
  rw [← hlength, List.take_left, List.drop_left, lexemes_trim, cut.whole,
    lexemes_append cut.apart, lexemes_append (Or.inr hbegins), lexemes_word isWord_where hreads]
  exact ⟨hreads, rfl⟩

/-- The two filters read alike, once the bound is out, exactly where the `where` of the predicate
is led by a keyword. -/
theorem lexemes_undone_iff {d : Dialect} (hd : d.rowLimit = .rowNumber) (hlimit : limit ≠ 0)
    {text : String} (hclosed : Closed (trim text.toList))
    (huncommented : Uncommented (trim text.toList)) :
    (∃ keyword undone, Spells (trim text.toList) keyword ∧
      Unbinds limit keyword (selectFilter d limit text).toList undone ∧
      lexemes undone = lexemes (selectFilter d 0 text).toList) ↔
    WhereIsLed (trim text.toList) := by
  obtain ⟨head, join, condition, tail, hcut, hdivided, hundone⟩ :=
    exists_unbinds hd hlimit hclosed huncommented
  obtain ⟨behind, hwhole, hapart, hbehind⟩ := hcut.trimmed
  have hhead := (hcut.closed hclosed).trimEnd
  have hlexemes : lexemes (trim text.toList) = lexemes (trimEnd head) ++ lexemes tail := by
    rw [hwhole, lexemes_append hapart, hbehind]
  have hnone : NoWord "where".toList (trimEnd head) → WhereIsLed (trim text.toList) :=
    fun h => Or.inr ⟨head, tail, hcut, noWord_of_trimEnd isWord_where hhead h⟩
  have hlower : asciiLower "where".toList = "where".toList := by decide
  cases hdivided with
  | @marked join rest cut found =>
      obtain ⟨hreads, hmarked⟩ := lexemes_marked cut found
      have hword := cut.word found
      refine ⟨?_, ?_⟩
      · rintro ⟨keyword, undone, hspells, hunbinds, heq⟩
        by_contra hnot
        have hkeyword := reads_of_spells hspells
        obtain ⟨undone', hunbinds', -, hparts⟩ := hundone keyword hkeyword
        obtain rfl := hunbinds.unique hunbinds'
        have hne : trim text.toList ≠ [] := by
          rw [hwhole, cut.whole]
          simp [found]
        -- One of the filters has a keyword more than the other.
        rw [hparts, lexemes_unlimited_of_unled d huncommented hne (hnot ∘ Or.inl), hlexemes,
          hmarked, lexemes_released hkeyword] at heq
        have hlength := congrArg List.length heq
        simp only [Option.elim_some, List.length_append, List.length_cons] at hlength
        omega
      · rintro (hled | ⟨head', tail', hcut', hnoWord⟩)
        · obtain ⟨undone, hunbinds, -, hparts⟩ := hundone _ hreads
          refine ⟨_, undone, Or.inr ⟨join.length, ?_, ?_⟩, hunbinds, ?_⟩
          · rw [hwhole]
            exact hword.append isWord_where hapart
          · have hlength : 5 ≤ rest.length := by
              have h := congrArg List.length hreads
              rw [asciiLower, List.length_map, List.length_take] at h
              have hfive : "where".toList.length = 5 := rfl
              omega
            rw [hwhole, cut.whole, List.append_assoc, List.drop_left,
              List.take_append_of_le_length hlength]
          · rw [hparts, lexemes_unlimited_of_led d huncommented (Or.inr hled), hlexemes, hmarked,
              lexemes_released hreads, List.append_assoc]
            rfl
        · obtain ⟨rfl, -⟩ := hcut'.unique hcut
          obtain ⟨trail, htrail, hsplit⟩ := trimEnd_split head'
          refine absurd ?_ (hnoWord join.length)
          rw [hsplit]
          exact hword.append isWord_where (apart_of_blank htrail)
  | bare unmarked nonempty unled =>
      refine ⟨fun _ => hnone unmarked, fun _ => ?_⟩
      obtain ⟨undone, hunbinds, -, hparts⟩ := hundone _ hlower
      have hproper := exists_proper hhead (trimEnd_trimEnd head) nonempty
      have hunled : ¬LedByKeyword (trim text.toList) := fun hled =>
        unled (LedByKeyword.of_append hapart hproper (hwhole ▸ hled))
      have hne : trim text.toList ≠ [] := by
        rw [hwhole]
        exact List.append_ne_nil_of_left_ne_nil nonempty _
      refine ⟨_, undone, Or.inl rfl, hunbinds, ?_⟩
      rw [hparts, lexemes_unlimited_of_unled d huncommented hne hunled, hlexemes,
        lexemes_released hlower]
      rfl
  | unfiltered unmarked led =>
      refine ⟨fun _ => hnone unmarked, fun _ => ?_⟩
      obtain ⟨undone, hunbinds, -, hparts⟩ := hundone _ hlower
      refine ⟨_, undone, Or.inl rfl, hunbinds, ?_⟩
      rw [hparts, lexemes_unlimited_of_led d huncommented (hcut.led_of_led led), hlexemes]
      rfl

/-! ### The two SELECTs -/

theorem beginsInWord_unlimited (d : Dialect) (text : String) :
    beginsInWord (selectFilter d 0 text).toList = false := by
  simp only [selectFilter, ne_eq, not_true_eq_false, false_and, if_false]
  split_ifs
  · rfl
  · rw [String.toList_append]
    rfl
  · rw [String.toList_append]
    rfl

/-- Behind the filter no word goes on, since no limit of its own stands there. -/
theorem beginsInWord_afterFilter {d : Dialect} (hd : d.rowLimit = .rowNumber)
    (parts : SelectParts) : beginsInWord (afterFilter d parts).toList = false := by
  simp only [afterFilter, trailingLimit, optionalClause, hd, reduceCtorEq, and_false, if_false,
    String.append_empty]
  split_ifs <;> simp only [String.toList_append, String.reduceToList] <;> rfl

theorem lexemes_framed {front filter back : List Char} (hfilter : beginsInWord filter = false)
    (hback : beginsInWord back = false) :
    lexemes (front ++ filter ++ back) = lexemes front ++ (lexemes filter ++ lexemes back) := by
  rw [lexemes_append (Or.inr hback), lexemes_append (Or.inr hfilter), List.append_assoc]

/-- With the bound taken out of the filter, the SELECT with a limit reads like the one without,
up to blanks. -/
def UndoneAlike (d : Dialect) (parts : SelectParts) (front back : String) : Prop :=
  ∃ keyword undone, Spells (trim parts.condition.toList) keyword ∧
    Unbinds parts.limit keyword (selectFilter d parts.limit parts.condition).toList undone ∧
    lexemes (front.toList ++ undone ++ back.toList) =
      lexemes (front ++ selectFilter d 0 parts.condition ++ back).toList

section Parts

variable {d : Dialect} (hd : d.rowLimit = .rowNumber) (parts : SelectParts)
  (hlimit : parts.limit ≠ 0) (hclosed : Closed (trim parts.condition.toList))
  (huncommented : Uncommented (trim parts.condition.toList))
include hd hlimit hclosed huncommented

theorem undoneAlike_iff (front : String) {back : String}
    (hback : beginsInWord back.toList = false) :
    UndoneAlike d parts front back ↔ WhereIsLed (trim parts.condition.toList) := by
  rw [← lexemes_undone_iff hd hlimit hclosed huncommented]
  refine exists_congr fun keyword => exists_congr fun undone => and_congr_right fun hspells =>
    and_congr_right fun hunbinds => ?_
  obtain ⟨_, _, _, _, -, -, hundone⟩ := exists_unbinds hd hlimit hclosed huncommented
  obtain ⟨undone', hunbinds', hbegins, -⟩ := hundone keyword (reads_of_spells hspells)
  obtain rfl := hunbinds.unique hunbinds'
  rw [String.toList_append, String.toList_append, lexemes_framed hbegins hback,
    lexemes_framed (beginsInWord_unlimited ..) hback, List.append_cancel_left_eq,
    List.append_cancel_right_eq]

/--
**The row-number bound is all that a limit adds, where a keyword leads the `where`.**  For a
dialect that limits rows by row number and a predicate without comments whose quotes and
parentheses are closed, a SELECT with a limit and the same SELECT without one both fail to
compile, or they differ in the filter alone.  The bound can be taken out of the filter in exactly
one way, and what is left reads like the SELECT without a limit, up to blanks, exactly if the
predicate is led by a keyword or has no `where` in front of its group.
-/
theorem bound_undone_iff :
    ∃ around : Except DbError (String × String),
      (compileSelect d parts = around.map fun s =>
        s.1 ++ selectFilter d parts.limit parts.condition ++ s.2) ∧
      (compileSelect d { parts with limit := 0 } = around.map fun s =>
        s.1 ++ selectFilter d 0 parts.condition ++ s.2) ∧
      (∀ keyword, Spells (trim parts.condition.toList) keyword → ∃! undone,
        Unbinds parts.limit keyword (selectFilter d parts.limit parts.condition).toList undone) ∧
      ∀ front back, around = .ok (front, back) →
        (UndoneAlike d parts front back ↔ WhereIsLed (trim parts.condition.toList)) := by
  obtain ⟨_, _, _, _, -, -, hundone⟩ := exists_unbinds hd hlimit hclosed huncommented
  have hunique : ∀ keyword, Spells (trim parts.condition.toList) keyword → ∃! undone,
      Unbinds parts.limit keyword (selectFilter d parts.limit parts.condition).toList undone := by
    intro keyword hspells
    obtain ⟨undone, hunbinds, -⟩ := hundone keyword (reads_of_spells hspells)
    exact ⟨undone, hunbinds, fun other hother => hother.unique hunbinds⟩
  rcases compileSelect_cases d parts with ⟨e, herror⟩ | ⟨labels, -, hcompiled⟩
  · exact ⟨.error e, herror parts.limit, herror 0, hunique, nofun⟩
  · refine ⟨.ok (beforeFilter d parts labels, afterFilter d parts), hcompiled parts.limit, ?_,
      hunique, ?_⟩
    · rw [hcompiled 0]
      simp only [beforeFilter, afterFilter, leadingLimit, trailingLimit, hd, reduceCtorEq,
        and_false, if_false, ite_self, Except.map]
    · rintro front back hok
      cases hok
      exact undoneAlike_iff hd parts hlimit hclosed huncommented _
        (beginsInWord_afterFilter hd parts)

end Parts

/-- A predicate with all three parts, and parentheses, quotes and keywords within them. -/
theorem oracle_bound_undone :
    let d := Product.oracle.dialect
    let parts : SelectParts :=
      { fields := ["k"], source := "book", limit := 5
        condition := " join a on (i) WHERE n = 'group -- (' or (k in (1))  group by k " }
    ∃ front back,
      compileSelect d parts = .ok (front ++ selectFilter d 5 parts.condition ++ back) ∧
      compileSelect d { parts with limit := 0 } =
        .ok (front ++ selectFilter d 0 parts.condition ++ back) ∧
      UndoneAlike d parts front back := by
  intro d parts
  have huncommented : Uncommented (trim parts.condition.toList) := by decide +kernel
  obtain ⟨around, hlimited, hunlimited, -, halike⟩ :=
    bound_undone_iff (d := d) rfl parts (by decide) (by decide +kernel) huncommented
  have hled : LedByKeyword (trim parts.condition.toList) := by_contra fun hunled =>
    absurd ((needsWhere_iff huncommented).mpr hunled) (by decide +kernel)
  have hok : (compileSelect d parts).isOk = true := by decide +kernel
  cases around with
  | error e =>
      rw [hlimited] at hok
      cases hok
  | ok s => exact ⟨s.1, s.2, hlimited, hunlimited, (halike s.1 s.2 rfl).mpr (Or.inl hled)⟩

/-- With a limit, a join that no keyword leads is appended as it is; without one, it comes behind
a `where`. -/
theorem outer_join_is_joined_apart :
    let d := Product.oracle.dialect
    let parts : SelectParts :=
      { fields := ["id"], source := "book b", limit := 5
        condition := "left join author a on k where n = 1" }
    let front := "select id \"id\" from book b"
    Closed (trim parts.condition.toList) ∧ Uncommented (trim parts.condition.toList) ∧
      compileSelect d parts =
        .ok (front ++ " left join author a on k where (n = 1) and rownum <= 5") ∧
      compileSelect d { parts with limit := 0 } =
        .ok (front ++ " where left join author a on k where n = 1") ∧
      ¬UndoneAlike d parts front "" := by
  intro d parts front
  have hclosed : Closed (trim parts.condition.toList) := by decide +kernel
  have huncommented : Uncommented (trim parts.condition.toList) := by decide +kernel
  refine ⟨hclosed, huncommented, by decide +kernel, by decide +kernel, ?_⟩
  rw [undoneAlike_iff (d := d) rfl parts (by decide) hclosed huncommented front rfl]
  rintro (hled | ⟨head, tail, hcut, hnone⟩)
  · exact (needsWhere_iff huncommented).mp (by decide +kernel) hled
  · -- There is no group, so the part in front of it is all of the predicate.
    have hgroup := noWord_of_findKeyword isWord_group hclosed (by decide +kernel)
    obtain ⟨rfl, -⟩ := hcut.unique (cut_of_noWord hgroup)
    have hwhere : findKeyword "where".toList (trim parts.condition.toList) = some 24 := by
      decide +kernel
    obtain ⟨hfirst, hne⟩ := cut_of_findKeyword isWord_where hclosed hwhere
    exact hnone _ (hfirst.word hne)

end SqlSession.Sql
