/-
The row-number bound and the predicate around it.

A predicate is a join part, a condition and a group tail, each of which may be missing;
`TakenApart` says which text is which, by its words outside quotes and parentheses alone.
Where rows are limited by row number the parts are put together again with the bound between
them: behind the condition, which goes into parentheses of its own, and before the group.
`rowNumberBound_covers` says that this is what a filter is.

The keywords are searched for outside quotes and parentheses.  Only whether a text without a
`where` is a condition at all is asked in another way, that looks through opening parentheses
and comments but not at quotes; `needsWhere_iff` says what it finds where there are no
comments.
-/
import Mathlib.Data.List.DropRight
import Mathlib.Data.List.TakeWhile
import SqlSession.Proofs.Sql.Words
import SqlSession.Proofs.Text.Digits
import SqlSession.Sql.Statement

namespace SqlSession.Sql

open Text

variable {a b cs head predicate : List Char} {c : Char}

/-! ### Blanks -/

theorem isWordChar_of_blank (h : isBlank c = true) : isWordChar c = false := by
  have hcodes : ∀ n ∈ [0x09, 0x0A, 0x0B, 0x0C, 0x0D, 0x20, 0x85, 0xA0, 0x1680, 0x2000, 0x2001,
      0x2002, 0x2003, 0x2004, 0x2005, 0x2006, 0x2007, 0x2008, 0x2009, 0x200A, 0x2028, 0x2029,
      0x202F, 0x205F, 0x3000], isWordChar (Char.ofNat n) = false := by
    decide +kernel
  rw [← Char.ofNat_toNat c]
  refine hcodes c.toNat ?_
  simp only [isBlank, Bool.or_eq_true, Bool.and_eq_true, decide_eq_true_eq, beq_iff_eq] at h
  simp only [List.mem_cons, List.not_mem_nil, or_false]
  omega

theorem isPlain_of_blank (h : isBlank c = true) : isPlain c = true := by
  simp only [isPlain, Bool.and_eq_true, bne_iff_ne]
  refine ⟨⟨⟨?_, ?_⟩, ?_⟩, ?_⟩ <;> rintro rfl <;> exact absurd h (by decide)

/-- Nothing but blanks. -/
def Blank (cs : List Char) : Prop :=
  ∀ c ∈ cs, isBlank c = true

theorem apart_of_blank (h : Blank b) : Apart a b := by
  cases b with
  | nil => exact apart_nil
  | cons c b => exact Or.inr (isWordChar_of_blank (h c List.mem_cons_self))

theorem closed_of_blank (h : Blank cs) : Closed cs :=
  closed_of_plain fun c hc => isPlain_of_blank (h c hc)

theorem noWord_of_blank {keyword : List Char} (hk : IsWord keyword) (h : Blank cs) :
    NoWord keyword cs := by
  rintro i ⟨before, word, after, rfl, -, -, hreads, -⟩
  obtain ⟨c, word, rfl⟩ := List.exists_cons_of_ne_nil (ne_nil_of_reads hk hreads)
  have hword := wordChar_of_reads hk hreads c List.mem_cons_self
  rw [isWordChar_of_blank (h c (by simp))] at hword
  cases hword

theorem trimStart_split (cs : List Char) : ∃ lead, Blank lead ∧ cs = lead ++ trimStart cs :=
  ⟨_, fun _ => List.mem_takeWhile_imp, List.takeWhile_append_dropWhile.symm⟩

theorem trimEnd_split (cs : List Char) : ∃ trail, Blank trail ∧ cs = trimEnd cs ++ trail := by
  refine ⟨(cs.reverse.takeWhile isBlank).reverse, fun c hc => ?_, ?_⟩
  · exact List.mem_takeWhile_imp (List.mem_reverse.mp hc)
  · rw [trimEnd, ← List.reverse_append, List.takeWhile_append_dropWhile, List.reverse_reverse]

theorem trimEnd_trim (cs : List Char) : trimEnd (trim cs) = trim cs := by
  simp only [trim, trimEnd, List.reverse_reverse, List.dropWhile_idempotent]

theorem Closed.trimEnd (h : Closed cs) : Closed (trimEnd cs) := by
  obtain ⟨trail, htrail, hcs⟩ := trimEnd_split cs
  rw [hcs] at h
  exact h.of_append_plain fun c hc => isPlain_of_blank (htrail c hc)

theorem Closed.trim (h : Closed cs) : Closed (Text.trim cs) := by
  obtain ⟨lead, hlead, hcs⟩ := trimStart_split cs
  rw [hcs, closed_append_iff (closed_of_blank hlead)] at h
  exact h.trimEnd

theorem noWord_trimEnd {keyword : List Char} (hk : IsWord keyword) (h : NoWord keyword cs) :
    NoWord keyword (Text.trimEnd cs) := by
  obtain ⟨trail, htrail, hcs⟩ := trimEnd_split cs
  exact noWord_of_append hk (apart_of_blank htrail) fun i _ => hcs ▸ h i

/-! ### Keywords that lead a text -/

/-- The text begins with one of the keywords that a predicate can bring along, behind nothing
but blanks and opening parentheses. -/
def LedByKeyword (cs : List Char) : Prop :=
  ∃ lead rest, cs = lead ++ rest ∧ (∀ c ∈ lead, isBlank c = true ∨ c = '(') ∧
    ∃ keyword ∈ ["join", "inner", "group", "where"],
      startsWithKeyword keyword.toList rest = true

/-- No comment begins in the text, outside quotes. -/
def Uncommented (cs : List Char) : Prop :=
  ∀ before after r, cs = before ++ after → reading {} before = some r → r.quote = none →
    ¬"--".toList <+: after ∧ ¬"/*".toList <+: after

theorem uncommented_iff : Uncommented cs ↔
    ∀ i < cs.length + 1, ∀ r ∈ reading {} (cs.take i), r.quote = none →
      ¬"--".toList <+: cs.drop i ∧ ¬"/*".toList <+: cs.drop i := by
  constructor
  · exact fun h i _ r hr hq => h _ _ r (List.take_append_drop i cs).symm hr hq
  · rintro h before after r rfl hr hq
    have hi : before.length < (before ++ after).length + 1 := by
      rw [List.length_append]
      omega
    have hboth := h before.length hi r (by rwa [List.take_left]) hq
    rwa [List.drop_left] at hboth

instance (cs : List Char) : Decidable (Uncommented cs) :=
  decidable_of_iff _ uncommented_iff.symm

theorem Uncommented.of_append (h : Uncommented (a ++ b)) : Uncommented a := by
  rintro before after r rfl hr hq
  have hboth := h before (after ++ b) r (List.append_assoc ..) hr hq
  exact ⟨fun hp => hboth.1 (hp.trans (List.prefix_append ..)),
    fun hp => hboth.2 (hp.trans (List.prefix_append ..))⟩

theorem withoutLead_of_lead (h : isBlank c = true ∨ c = '(') (cs : List Char) :
    withoutLead .code (c :: cs) = withoutLead .code cs := by
  rcases h with h | rfl
  · rw [withoutLead.eq_def]
    split <;> simp_all
    all_goals exact absurd h (by decide)
  · rfl

theorem withoutLead_of_text (hc : ¬(isBlank c = true ∨ c = '(')) (hline : ¬"--".toList <+: c :: cs)
    (hblock : ¬"/*".toList <+: c :: cs) : withoutLead .code (c :: cs) = c :: cs := by
  rw [withoutLead.eq_def]
  split <;> simp_all

theorem withoutLead_append {lead : List Char} (h : ∀ c ∈ lead, isBlank c = true ∨ c = '(')
    (rest : List Char) : withoutLead .code (lead ++ rest) = withoutLead .code rest := by
  induction lead with
  | nil => rfl
  | cons c lead ih =>
      rw [List.cons_append, withoutLead_of_lead (h c List.mem_cons_self)]
      exact ih fun c' hc' => h c' (List.mem_cons_of_mem _ hc')

/-- Blanks and opening parentheses leave no quote open. -/
theorem reading_lead {lead : List Char} (h : ∀ c ∈ lead, isBlank c = true ∨ c = '(')
    {r : Reading} (hr : r.quote = none) :
    ∃ r', reading r lead = some r' ∧ r'.quote = none := by
  induction lead generalizing r with
  | nil => exact ⟨r, rfl, hr⟩
  | cons c lead ih =>
      have hrest := fun c' hc' => h c' (List.mem_cons_of_mem _ hc')
      have hsound : r.Sound := fun q hq => by rw [hr] at hq; cases hq
      rw [reading_cons]
      rcases h c List.mem_cons_self with hc | rfl
      · rw [Reading.next_of_plain hsound (isPlain_of_blank hc)]
        exact ih hrest hr
      · obtain ⟨_ | q, d⟩ := r
        · exact ih hrest rfl
        · cases hr

/-- Without comments, what is passed over is blanks and opening parentheses. -/
theorem withoutLead_split (h : Uncommented cs) :
    ∃ lead, cs = lead ++ withoutLead .code cs ∧ ∀ c ∈ lead, isBlank c = true ∨ c = '(' := by
  suffices hsplit : ∀ rest lead, cs = lead ++ rest → (∀ c ∈ lead, isBlank c = true ∨ c = '(') →
      ∃ more, rest = more ++ withoutLead .code rest ∧ ∀ c ∈ more, isBlank c = true ∨ c = '(' from
    hsplit cs [] rfl nofun
  intro rest
  induction rest with
  | nil => exact fun _ _ _ => ⟨[], rfl, nofun⟩
  | cons c rest ih =>
      intro lead hcs hlead
      by_cases hc : isBlank c = true ∨ c = '('
      · obtain ⟨more, hrest, hmore⟩ := ih (lead ++ [c]) (by rw [hcs, List.append_cons])
          (List.forall_mem_append.mpr ⟨hlead, List.forall_mem_singleton.mpr hc⟩)
        refine ⟨c :: more, ?_, List.forall_mem_cons.mpr ⟨hc, hmore⟩⟩
        rw [withoutLead_of_lead hc, List.cons_append, ← hrest]
      · obtain ⟨r, hr, hq⟩ := reading_lead hlead (r := {}) rfl
        obtain ⟨hline, hblock⟩ := h lead (c :: rest) r hcs hr hq
        exact ⟨[], by rw [withoutLead_of_text hc hline hblock]; rfl, nofun⟩

theorem isWord_of_leading {keyword : String}
    (h : keyword ∈ ["join", "inner", "group", "where"]) : IsWord keyword.toList := by
  simp only [List.mem_cons, List.not_mem_nil, or_false] at h
  rcases h with rfl | rfl | rfl | rfl <;> decide

theorem withoutLead_of_keyword {keyword : List Char} (hk : IsWord keyword)
    (h : startsWithKeyword keyword cs = true) : withoutLead .code cs = cs := by
  obtain ⟨word, after, rfl, hreads, -⟩ := startsWithKeyword_iff.mp h
  obtain ⟨c, word, rfl⟩ := List.exists_cons_of_ne_nil (ne_nil_of_reads hk hreads)
  have hword := wordChar_of_reads hk hreads c List.mem_cons_self
  refine withoutLead_of_text ?_ ?_ ?_
  · rintro (hc | rfl)
    · rw [isWordChar_of_blank hc] at hword
      cases hword
    · exact absurd hword (by decide)
  · intro hp
    obtain rfl : '-' = c := (List.cons_prefix_cons.mp hp).1
    exact absurd hword (by decide)
  · intro hp
    obtain rfl : '/' = c := (List.cons_prefix_cons.mp hp).1
    exact absurd hword (by decide)

/-- A predicate needs a `where` in front unless it is led by a keyword. -/
theorem needsWhere_iff (h : Uncommented cs) : needsWhere cs = true ↔ ¬LedByKeyword cs := by
  simp only [needsWhere, Bool.not_eq_true', ← Bool.not_eq_true, List.any_eq_true]
  refine not_congr ⟨?_, ?_⟩
  · rintro ⟨keyword, hmem, hstarts⟩
    obtain ⟨lead, hcs, hlead⟩ := withoutLead_split h
    exact ⟨lead, _, hcs, hlead, keyword, hmem, hstarts⟩
  · rintro ⟨lead, rest, rfl, hlead, keyword, hmem, hstarts⟩
    refine ⟨keyword, hmem, ?_⟩
    rwa [withoutLead_append hlead, withoutLead_of_keyword (isWord_of_leading hmem) hstarts]

/-! ### The parts of a predicate -/

/-- A text without a group, taken apart into its join part and its condition; around the
latter there may be blanks. -/
inductive Divided (head : List Char) : List Char → Option (List Char) → Prop
  /-- The condition stands behind the first `where`. -/
  | marked {join rest : List Char} (cut : CutBefore "where".toList head join rest)
      (found : rest ≠ []) : Divided head join (some (trim (rest.drop 5)))
  /-- Without a `where`, a text is a condition unless a keyword leads it. -/
  | bare (unmarked : NoWord "where".toList head) (nonempty : head ≠ [])
      (unled : ¬LedByKeyword head) : Divided head [] (some head)
  | unfiltered (unmarked : NoWord "where".toList head) (led : head = [] ∨ LedByKeyword head) :
      Divided head head none

/-- A predicate, taken apart into its join part, its condition and its group tail; between the
last two there may be blanks. -/
def TakenApart (predicate join : List Char) (condition : Option (List Char))
    (tail : List Char) : Prop :=
  ∃ head, CutBefore "group".toList predicate head tail ∧ Divided (trimEnd head) join condition

/-- What stands between the `where` and the bound: the condition in parentheses, if there is
one. -/
def guarded : Option (List Char) → List Char
  | none => []
  | some condition => '(' :: (condition ++ [')']) ++ " and ".toList

section Cut

variable {keyword before after : List Char}

theorem CutBefore.split (h : CutBefore keyword cs before after) (hne : after ≠ []) :
    Closed before ∧ endsInWord before = false ∧ startsWithKeyword keyword after = true :=
  wordAt_append_iff.mp (h.whole ▸ h.word hne)

/-- The second part begins with a word of its own, so none reaches into it. -/
theorem CutBefore.apart (h : CutBefore keyword cs before after) : Apart before after := by
  by_cases hne : after = []
  · exact Or.inr (hne ▸ rfl)
  · exact Or.inl (h.split hne).2.1

theorem CutBefore.closed (h : CutBefore keyword cs before after) (hcs : Closed cs) :
    Closed before := by
  by_cases hne : after = []
  · have hwhole := h.whole
    rw [hne, List.append_nil] at hwhole
    exact hwhole ▸ hcs
  · exact (h.split hne).1

/-- In front of the first word there is no such word. -/
theorem CutBefore.noWord_before (hk : IsWord keyword)
    (h : CutBefore keyword cs before after) : NoWord keyword before :=
  noWord_of_append hk h.apart (h.whole ▸ h.first)

end Cut

theorem isWord_where : IsWord "where".toList := by decide

theorem isWord_group : IsWord "group".toList := by decide

namespace Divided

variable {join : List Char} {condition : Option (List Char)}

theorem closed_join (hhead : Closed head) (h : Divided head join condition) : Closed join := by
  cases h with
  | marked cut found => exact cut.closed hhead
  | bare => rfl
  | unfiltered => exact hhead

theorem noWord_join {keyword : List Char} (hk : IsWord keyword) (hhead : NoWord keyword head)
    (h : Divided head join condition) : NoWord keyword join := by
  cases h with
  | marked cut found =>
      refine noWord_of_append hk cut.apart fun i _ => ?_
      rw [← cut.whole]
      exact hhead i
  | bare =>
      intro i hi
      exact absurd (length_lt_of_wordAt hk hi) (Nat.not_lt_zero i)
  | unfiltered => exact hhead

theorem closed_condition (hhead : Closed head) (h : Divided head join condition) :
    ∀ c ∈ condition, Closed c := by
  intro c hc
  cases h with
  | @marked join rest cut found =>
      cases hc
      obtain ⟨hjoin, -, hstarts⟩ := cut.split found
      obtain ⟨word, after, rfl, hreads, -⟩ := startsWithKeyword_iff.mp hstarts
      have hlength : word.length = 5 := by
        have h := congrArg List.length hreads
        rwa [asciiLower, List.length_map] at h
      have hplain : Closed word := closed_of_plain fun c hc =>
        isPlain_of_wordChar (wordChar_of_reads isWord_where hreads c hc)
      rw [cut.whole, closed_append_iff hjoin, closed_append_iff hplain] at hhead
      rw [← hlength, List.drop_left]
      exact hhead.trim
  | bare =>
      cases hc
      exact hhead
  | unfiltered => cases hc

end Divided

/-! ### The bound among them -/

/-- The parts of a text without a group, with the bound behind its condition. -/
theorem boundedCondition_eq (limit : Nat) (hclosed : Closed head) (huncommented : Uncommented head) :
    ∃ join condition gap, Divided head join condition ∧ Blank gap ∧
      endsInWord (join ++ gap) = false ∧
      boundedCondition limit head =
        join ++ gap ++ "where ".toList ++ guarded condition ++ rowNumberBound limit := by
  cases hfound : findKeyword "where".toList head with
  | some i =>
      obtain ⟨hcut, hne⟩ := cut_of_findKeyword isWord_where hclosed hfound
      refine ⟨_, _, [], .marked hcut hne, nofun, ?_, ?_⟩
      · rw [List.append_nil]
        exact (hcut.split hne).2.1
      · simp only [boundedCondition, hfound, guarded, List.drop_drop, List.append_nil,
          List.append_assoc, List.cons_append]
        rfl
  | none =>
      have hunmarked := noWord_of_findKeyword isWord_where hclosed hfound
      by_cases hempty : head = []
      · subst hempty
        exact ⟨[], none, [], .unfiltered hunmarked (Or.inl rfl), nofun, rfl, rfl⟩
      have hisEmpty : head.isEmpty = false := List.isEmpty_eq_false_iff.mpr hempty
      by_cases hled : LedByKeyword head
      · have hneeds : needsWhere head = false :=
          Bool.eq_false_iff.mpr fun hn => (needsWhere_iff huncommented).mp hn hled
        refine ⟨head, none, [' '], .unfiltered hunmarked (Or.inr hled), ?_, ?_, ?_⟩
        · exact List.forall_mem_singleton.mpr rfl
        · rw [endsInWord_append_of_ne (List.cons_ne_nil _ _)]
          rfl
        · simp only [boundedCondition, hfound, hisEmpty, hneeds, guarded, List.append_nil,
            List.append_assoc]
          rfl
      · have hneeds := (needsWhere_iff huncommented).mpr hled
        refine ⟨[], some head, [], .bare hunmarked hempty hled, nofun, rfl, ?_⟩
        simp only [boundedCondition, hfound, hisEmpty, hneeds, guarded, List.append_assoc,
          List.cons_append]
        rfl

/-- Inside of parentheses there is no word outside of them. -/
theorem noWord_enclosed {keyword : List Char} (hk : IsWord keyword) (h : Closed cs) :
    NoWord keyword ('(' :: (cs ++ [')'])) := by
  rintro i ⟨before, word, after, heq, -, hclosed, hreads, -⟩
  have hplain := wordChar_of_reads hk hreads
  have hne := ne_nil_of_reads hk hreads
  rw [List.append_assoc] at heq
  cases before with
  | nil =>
      obtain ⟨c, word, rfl⟩ := List.exists_cons_of_ne_nil hne
      obtain rfl : '(' = c := (List.cons.inj heq).1
      exact absurd (hplain '(' List.mem_cons_self) (by decide)
  | cons c before =>
      rw [List.cons_append, List.cons.injEq] at heq
      obtain ⟨rfl, heq⟩ := heq
      -- What stands in front of the word is a piece of the text inside.
      obtain ⟨y, rfl⟩ : ∃ y, cs = before ++ y := by
        rcases List.append_eq_append_iff.mp heq with ⟨y, hbefore, hy⟩ | ⟨y, hcs, -⟩
        · cases y with
          | nil => exact ⟨[], by rw [hbefore, List.append_nil, List.append_nil]⟩
          | cons d y =>
              have hnil := (List.append_eq_nil_iff.mp (List.cons.inj hy).2.symm).2
              exact absurd (List.append_eq_nil_iff.mp hnil).1 hne
        · exact ⟨y, hcs⟩
      rw [Closed, reading_append] at h
      obtain ⟨r, hr, -⟩ := Option.bind_eq_some_iff.mp h
      have hdeep : reading ⟨none, 1⟩ before = some (r.deeper 1) := reading_deeper 1 hr
      have hopen : reading ⟨none, 1⟩ before = some {} := hclosed
      rw [hdeep] at hopen
      cases congrArg Reading.depth (Option.some.inj hopen)

/-- A text without the first letter of a keyword does not hold the keyword. -/
theorem noWord_of_notMem {k : Char} {keyword : List Char} (h : k ∉ cs.map Char.toLower) :
    NoWord (k :: keyword) cs := by
  rintro i ⟨before, word, after, rfl, -, -, hreads, -⟩
  cases word with
  | nil => cases hreads
  | cons c word =>
      refine h (List.mem_map.mpr ⟨c, ?_, (List.cons.inj hreads).1⟩)
      exact List.mem_append_left _ (List.mem_append_right _ List.mem_cons_self)

theorem isWordChar_of_isDigit (h : c.isDigit = true) : isWordChar c = true := by
  have hlt : c.toNat < 0x80 :=
    Nat.lt_of_le_of_lt (UInt32.le_iff_toNat_le.mp (bounds_of_isDigit h).2) (by decide)
  simp only [isWordChar, isAlphanumeric, hlt, if_true, Char.isAlphanum, h, Bool.or_true,
    Bool.true_or]

theorem closed_rowNumberBound (limit : Nat) : Closed (rowNumberBound limit) :=
  Closed.append (by decide) (closed_of_plain fun _ hc =>
    isPlain_of_wordChar (isWordChar_of_isDigit (isDigit_of_mem_natDigits hc)))

theorem noGroup_rowNumberBound (limit : Nat) : NoWord "group".toList (rowNumberBound limit) := by
  have hbound : 'g' ∉ "rownum <= ".toList.map Char.toLower := by decide
  refine noWord_of_notMem (k := 'g') fun hmem => ?_
  obtain ⟨c, hc, hlower⟩ := List.mem_map.mp hmem
  rcases List.mem_append.mp hc with hc | hc
  · exact hbound (List.mem_map.mpr ⟨c, hc, hlower⟩)
  · rw [toLower_of_isDigit (isDigit_of_mem_natDigits hc)] at hlower
    subst hlower
    exact absurd (isDigit_of_mem_natDigits hc) (by decide)

theorem closed_guarded {condition : Option (List Char)} (h : ∀ c ∈ condition, Closed c) :
    Closed (guarded condition) := by
  cases condition with
  | none => rfl
  | some c => exact (h c rfl).enclosed.append (by decide)

theorem noGroup_guarded {condition : Option (List Char)} (h : ∀ c ∈ condition, Closed c) :
    NoWord "group".toList (guarded condition) := by
  cases condition with
  | none => exact fun i hi => absurd (length_lt_of_wordAt isWord_group hi) (Nat.not_lt_zero i)
  | some c =>
      exact NoWord.append isWord_group (h c rfl).enclosed (Or.inr rfl)
        (noWord_enclosed isWord_group (h c rfl)) (noWord_of_notMem (k := 'g') (by decide))

theorem endsInWord_guarded (h : endsInWord cs = false) (condition : Option (List Char)) :
    endsInWord (cs ++ guarded condition) = false := by
  cases condition with
  | none => rwa [guarded, List.append_nil]
  | some c =>
      have hne : " and ".toList ≠ [] := by decide
      rw [guarded, ← List.append_assoc, endsInWord_append_of_ne hne]
      rfl

theorem closed_blank_cons_iff : Closed (' ' :: cs) ↔ Closed cs :=
  closed_append_iff (a := [' ']) (by decide)

theorem closed_lead {join gap : List Char} (hjoin : Closed join) (hgap : Blank gap) :
    Closed (' ' :: join ++ gap) :=
  Closed.append (closed_blank_cons_iff.mpr hjoin) (closed_of_blank hgap)

theorem noWord_lead {keyword join gap : List Char} (hk : IsWord keyword) (hclosed : Closed join)
    (hjoin : NoWord keyword join) (hgap : Blank gap) : NoWord keyword (' ' :: join ++ gap) := by
  have hblank : Blank [' '] := List.forall_mem_singleton.mpr rfl
  have hfirst : NoWord keyword (' ' :: join) :=
    NoWord.append hk (closed_of_blank hblank) (Or.inl rfl) (noWord_of_blank hk hblank) hjoin
  exact hfirst.append hk (closed_blank_cons_iff.mpr hclosed) (apart_of_blank hgap)
    (noWord_of_blank hk hgap)

theorem endsInWord_of_blank_cons (h : endsInWord cs = false) : endsInWord (' ' :: cs) = false := by
  cases cs with
  | nil => rfl
  | cons c cs => exact h

/-- The parts of a predicate, with the bound behind the condition and before the group. -/
theorem boundedPredicate_eq (limit : Nat) (htrimmed : trimEnd predicate = predicate)
    (hclosed : Closed predicate) (huncommented : Uncommented predicate) :
    ∃ head join condition tail gap rest, CutBefore "group".toList predicate head tail ∧
      Divided (trimEnd head) join condition ∧ Blank gap ∧ endsInWord (join ++ gap) = false ∧
      (tail = [] ∧ rest = [] ∨ rest = ' ' :: tail) ∧
      boundedPredicate limit predicate =
        join ++ gap ++ "where ".toList ++ guarded condition ++ rowNumberBound limit ++ rest := by
  cases hfound : findKeyword "group".toList predicate with
  | some i =>
      obtain ⟨hcut, -⟩ := cut_of_findKeyword isWord_group hclosed hfound
      obtain ⟨trail, -, htrail⟩ := trimEnd_split (predicate.take i)
      have huncommented' : Uncommented (trimEnd (predicate.take i)) := by
        have htake : Uncommented (predicate.take i) := Uncommented.of_append (hcut.whole ▸ huncommented)
        exact Uncommented.of_append (htrail ▸ htake)
      obtain ⟨join, condition, gap, hdivided, hgap, hends, heq⟩ :=
        boundedCondition_eq limit (hcut.closed hclosed).trimEnd huncommented'
      refine ⟨_, join, condition, _, gap, _, hcut, hdivided, hgap, hends, Or.inr rfl, ?_⟩
      simp only [boundedPredicate, hfound, heq]
  | none =>
      have hcut := cut_of_noWord (noWord_of_findKeyword isWord_group hclosed hfound)
      obtain ⟨join, condition, gap, hdivided, hgap, hends, heq⟩ :=
        boundedCondition_eq limit hclosed huncommented
      refine ⟨_, join, condition, [], gap, [], hcut, ?_, hgap, hends, Or.inl ⟨rfl, rfl⟩, ?_⟩
      · rwa [htrimmed]
      · simp only [boundedPredicate, hfound, heq, List.append_nil]

section Guard

variable {lead : List Char} {condition : Option (List Char)} (hlead : Closed lead)
  (hcondition : ∀ c ∈ condition, Closed c)
include hlead hcondition

theorem closed_guard : Closed (lead ++ "where ".toList ++ guarded condition) :=
  (hlead.append (by decide)).append (closed_guarded hcondition)

/-- The keyword, the condition and the bound bring in no group outside of parentheses. -/
theorem noGroup_bound (hends : endsInWord lead = false) (hnone : NoWord "group".toList lead)
    (limit : Nat) :
    NoWord "group".toList
      (lead ++ "where ".toList ++ guarded condition ++ rowNumberBound limit) := by
  have hwhereEnds : endsInWord (lead ++ "where ".toList) = false :=
    endsInWord_append_of_ne (by decide)
  have hwhere : NoWord "group".toList (lead ++ "where ".toList) :=
    hnone.append isWord_group hlead (Or.inl hends) (noWord_of_notMem (k := 'g') (by decide))
  have hguard : NoWord "group".toList (lead ++ "where ".toList ++ guarded condition) :=
    hwhere.append isWord_group (hlead.append (by decide)) (Or.inl hwhereEnds)
      (noGroup_guarded hcondition)
  exact hguard.append isWord_group (closed_guard hlead hcondition)
    (Or.inl (endsInWord_guarded hwhereEnds condition)) (noGroup_rowNumberBound limit)

end Guard

/-- The predicate is in the filter, part by part, and the bound covers the whole of it. -/
def Covers (limit : Nat) (predicate filter : List Char) : Prop :=
  ∃ join condition tail gap rest, TakenApart predicate join condition tail ∧
    Blank gap ∧ (tail = [] ∧ rest = [] ∨ rest = ' ' :: tail) ∧
    let lead := ' ' :: join ++ gap
    let guard := lead ++ "where ".toList ++ guarded condition
    filter = guard ++ rowNumberBound limit ++ rest ∧ Closed filter ∧
      WordAt "where".toList filter lead.length ∧ Closed guard ∧
      (∀ c ∈ condition, Closed c) ∧
      ∀ i < (guard ++ rowNumberBound limit).length, ¬WordAt "group".toList filter i

/--
**The row-number bound covers the whole filter.**  For a dialect that limits rows by row
number and a predicate without comments whose quotes and parentheses are closed, the filter
of a SELECT with a limit

* has its quotes and parentheses closed;
* is the join part of the predicate, a `where` outside of all parentheses, the condition in
  parentheses of its own if there is one, the bound, and the group tail, in this order, with
  nothing but blanks between them;
* has the bound outside of all quotes and parentheses, and no group before its end.
-/
theorem rowNumberBound_covers {d : Dialect} (hd : d.rowLimit = .rowNumber) {limit : Nat}
    (hlimit : limit ≠ 0) {text : String} (hclosed : Closed (trim text.toList))
    (huncommented : Uncommented (trim text.toList)) :
    Covers limit (trim text.toList) (selectFilter d limit text).toList := by
  obtain ⟨head, join, condition, tail, gap, rest, hcut, hdivided, hgap, hends, hrest, heq⟩ :=
    boundedPredicate_eq limit (trimEnd_trim _) hclosed huncommented
  refine ⟨join, condition, tail, gap, rest, ⟨head, hcut, hdivided⟩, hgap, hrest, ?_⟩
  intro lead guard
  have hhead := hcut.closed hclosed
  have hcondition := hdivided.closed_condition hhead.trimEnd
  have hlead : Closed lead := closed_lead (hdivided.closed_join hhead.trimEnd) hgap
  have hleadEnds : endsInWord lead = false := endsInWord_of_blank_cons hends
  have hguard : Closed guard := closed_guard hlead hcondition
  have hfilter : (selectFilter d limit text).toList = guard ++ rowNumberBound limit ++ rest := by
    simp only [guard, lead, selectFilter, hlimit, hd, heq, ne_eq, not_false_eq_true,
      and_self, if_true, String.toList_append, String.toList_ofList, List.append_assoc,
      List.cons_append]
    rfl
  have hapart : Apart (guard ++ rowNumberBound limit) rest := by
    rcases hrest with ⟨-, rfl⟩ | rfl
    · exact apart_nil
    · exact Or.inr rfl
  have hrestClosed : Closed rest := by
    rcases hrest with ⟨-, rfl⟩ | rfl
    · rfl
    · have htail : Closed tail := (closed_append_iff hhead).mp (hcut.whole ▸ hclosed)
      exact (closed_blank_cons_iff).mpr htail
  have hnone : NoWord "group".toList lead :=
    noWord_lead isWord_group (hdivided.closed_join hhead.trimEnd)
      (hdivided.noWord_join isWord_group
        (noWord_trimEnd isWord_group (hcut.noWord_before isWord_group))) hgap
  refine ⟨hfilter, ?_, ?_, hguard, hcondition, ?_⟩
  · rw [hfilter]
    exact (hguard.append (closed_rowNumberBound limit)).append hrestClosed
  · rw [hfilter]
    simp only [guard, List.append_assoc]
    exact wordAt_append_iff.mpr ⟨hlead, hleadEnds, rfl⟩
  · rw [hfilter]
    intro i hi hword
    exact noGroup_bound hlead hcondition hleadEnds hnone limit i
      (hword.of_append isWord_group hapart hi)

/-- The bound in a predicate that has all three parts, and parentheses, quotes and keywords
within them. -/
theorem oracle_bound_covers :
    let text := " join a on (i) WHERE n = 'group -- (' or (k in (1))  group by k "
    Covers 5 (trim text.toList) (selectFilter Product.oracle.dialect 5 text).toList :=
  rowNumberBound_covers rfl (by decide) (by decide +kernel) (by decide +kernel)

end SqlSession.Sql
