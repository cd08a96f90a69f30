/-
Words outside quotes and parentheses.

A predicate is taken apart at its keywords, but only at those that are words of their own
outside quotes and parentheses.  `WordAt` says where such a word stands.  It rests on
`reading`, which follows the quotes and parentheses of a text exactly, and has no answer for
a text that closes a parenthesis it has not opened.

A text is put together from pieces, and `reading` goes through them one after the other.  So
a word of the whole is a word of one piece, wherever no word reaches across from one piece
into the next; that is `Apart`.  The search of the compiler goes through the text once and
finds the first word; `cut_of_findKeyword` says so.
-/
import Mathlib.Tactic.SplitIfs
import SqlSession.Sql.Predicate

namespace SqlSession.Sql

open Text

variable {keyword a b cs : List Char} {c : Char}

/-! ### Quotes and parentheses -/

/-- What is open behind a piece of text. -/
structure Reading where
  quote : Option Char := none
  depth : Nat := 0
  deriving DecidableEq

/-- The character neither opens nor closes anything. -/
def isPlain (c : Char) : Bool :=
  c != '\'' && c != '"' && c != '(' && c != ')'

namespace Reading

/-- What is open behind one more character. -/
def next (r : Reading) (c : Char) : Option Reading :=
  match r.quote with
  | some q => some { r with quote := if c = q then none else some q }
  | none =>
    if c = '\'' ∨ c = '"' then some { r with quote := some c }
    else if c = '(' then some { r with depth := r.depth + 1 }
    else if c = ')' then if r.depth = 0 then none else some { r with depth := r.depth - 1 }
    else some r

/-- The same inside of more parentheses. -/
def deeper (k : Nat) (r : Reading) : Reading :=
  { r with depth := r.depth + k }

/-- What is open can be closed: a quote is one of the two. -/
def Sound (r : Reading) : Prop :=
  ∀ q ∈ r.quote, isPlain q = false

variable {r r' : Reading}

theorem next_deeper (k : Nat) (h : r.next c = some r') :
    (r.deeper k).next c = some (r'.deeper k) := by
  obtain ⟨_ | q, d⟩ := r
  · grind [next, deeper]
  · cases h
    rfl

theorem next_of_plain (hr : r.Sound) (hc : isPlain c = true) : r.next c = some r := by
  obtain ⟨_ | q, d⟩ := r
  · simp_all [next, isPlain]
  · have hq : c ≠ q := by
      rintro rfl
      rw [hr c rfl] at hc
      cases hc
    simp only [next, hq, if_false]

theorem sound_next (hr : r.Sound) (h : r.next c = some r') : r'.Sound := by
  obtain ⟨_ | q, d⟩ := r
  · intro q hq
    have hc : c = '\'' ∨ c = '"' := by grind [next]
    obtain rfl : q = c := by grind [next]
    rcases hc with rfl | rfl <;> rfl
  · cases h
    intro q' hq'
    split_ifs at hq'
    · cases hq'
    · exact hr q' hq'

end Reading

/-- What is open behind a text, where the reading stood at `r` before it. -/
def reading (r : Reading) (cs : List Char) : Option Reading :=
  cs.foldlM Reading.next r

@[simp] theorem reading_nil (r : Reading) : reading r [] = some r := rfl

@[simp] theorem reading_cons (r : Reading) (c : Char) (cs : List Char) :
    reading r (c :: cs) = (r.next c).bind fun r' => reading r' cs :=
  List.foldlM_cons

theorem reading_append (r : Reading) (a b : List Char) :
    reading r (a ++ b) = (reading r a).bind fun r' => reading r' b :=
  List.foldlM_append

theorem reading_deeper (k : Nat) {r r' : Reading} (h : reading r cs = some r') :
    reading (r.deeper k) cs = some (r'.deeper k) := by
  induction cs generalizing r with
  | nil =>
      cases h
      rfl
  | cons c cs ih =>
      rw [reading_cons] at h ⊢
      obtain ⟨t, ht, h⟩ := Option.bind_eq_some_iff.mp h
      rw [Reading.next_deeper k ht]
      exact ih h

theorem reading_of_plain {r : Reading} (hr : r.Sound) (h : ∀ c ∈ cs, isPlain c = true) :
    reading r cs = some r := by
  induction cs with
  | nil => rfl
  | cons c cs ih =>
      rw [reading_cons, Reading.next_of_plain hr (h c List.mem_cons_self)]
      exact ih fun c' hc' => h c' (List.mem_cons_of_mem _ hc')

theorem sound_reading {r r' : Reading} (hr : r.Sound) (h : reading r cs = some r') :
    r'.Sound := by
  induction cs generalizing r with
  | nil =>
      cases h
      exact hr
  | cons c cs ih =>
      rw [reading_cons] at h
      obtain ⟨t, ht, h⟩ := Option.bind_eq_some_iff.mp h
      exact ih (Reading.sound_next hr ht) h

/-- Every quote and every parenthesis of the text is closed, and none is closed that was not
open. -/
def Closed (cs : List Char) : Prop :=
  reading {} cs = some {}

instance (cs : List Char) : Decidable (Closed cs) :=
  inferInstanceAs (Decidable (_ = _))

theorem closed_append_iff (ha : Closed a) : Closed (a ++ b) ↔ Closed b := by
  rw [Closed, reading_append, ha]
  rfl

theorem Closed.append (ha : Closed a) (hb : Closed b) : Closed (a ++ b) :=
  (closed_append_iff ha).mpr hb

theorem closed_of_plain (h : ∀ c ∈ cs, isPlain c = true) : Closed cs :=
  reading_of_plain (fun q hq => by cases hq) h

/-- A closed text may go into parentheses. -/
theorem Closed.enclosed (h : Closed cs) : Closed ('(' :: (cs ++ [')'])) := by
  have hdeep : reading ⟨none, 1⟩ cs = some ⟨none, 1⟩ := reading_deeper 1 h
  show reading ⟨none, 1⟩ (cs ++ [')']) = _
  rw [reading_append, hdeep]
  rfl

/-- What neither opens nor closes anything can be taken off the end. -/
theorem Closed.of_append_plain (h : Closed (a ++ b)) (hb : ∀ c ∈ b, isPlain c = true) :
    Closed a := by
  rw [Closed, reading_append] at h
  obtain ⟨r, hr, hrest⟩ := Option.bind_eq_some_iff.mp h
  have hsound : r.Sound := sound_reading (fun q hq => by cases hq) hr
  rw [reading_of_plain hsound hb] at hrest
  rw [Closed, hr, hrest]

/-! ### Whole words -/

/-- The text ends in a character that a word may go on behind. -/
def endsInWord (cs : List Char) : Bool :=
  cs.getLast?.any isWordChar

/-- The text begins with a character that continues a word. -/
def beginsInWord (cs : List Char) : Bool :=
  cs.head?.any isWordChar

/-- No word reaches from one text into the other. -/
def Apart (a b : List Char) : Prop :=
  endsInWord a = false ∨ beginsInWord b = false

/-- Behind so many characters, the keyword stands in the text as a word of its own, in
letters of any case, outside quotes and parentheses. -/
def WordAt (keyword cs : List Char) (i : Nat) : Prop :=
  ∃ before word after, cs = before ++ word ++ after ∧ before.length = i ∧ Closed before ∧
    asciiLower word = keyword ∧ endsInWord before = false ∧ beginsInWord after = false

/-- The keyword stands nowhere in the text, at least not as such a word. -/
def NoWord (keyword cs : List Char) : Prop :=
  ∀ i, ¬WordAt keyword cs i

/-- The keyword is a word. -/
def IsWord (keyword : List Char) : Prop :=
  keyword ≠ [] ∧ ∀ c ∈ keyword, isWordChar c = true

instance (keyword : List Char) : Decidable (IsWord keyword) :=
  decidable_of_iff (keyword ≠ [] ∧ keyword.all isWordChar = true)
    (and_congr_right fun _ => List.all_eq_true)

theorem isWordChar_of_toLower (h : isWordChar c.toLower = true) : isWordChar c = true := by
  by_cases hu : c.val ≥ 'A'.val ∧ c.val ≤ 'Z'.val
  · have hlt : c.toNat < 0x80 := Nat.lt_of_le_of_lt (UInt32.le_iff_toNat_le.mp hu.2) (by decide)
    have hupper : c.isUpper = true := decide_eq_true hu
    have halpha : c.isAlpha = true := Bool.or_eq_true_iff.mpr (Or.inl hupper)
    simp only [isWordChar, isAlphanumeric, hlt, if_true, Char.isAlphanum, halpha, Bool.true_or]
  · have hsame : c.toLower = c := dif_neg hu
    rwa [hsame] at h

theorem isPlain_of_wordChar (h : isWordChar c = true) : isPlain c = true := by
  simp only [isPlain, Bool.and_eq_true, bne_iff_ne]
  refine ⟨⟨⟨?_, ?_⟩, ?_⟩, ?_⟩ <;> rintro rfl <;> exact absurd h (by decide)

/-! ### Words of a text in pieces -/

theorem endsInWord_append_of_ne (hb : b ≠ []) : endsInWord (a ++ b) = endsInWord b := by
  rw [endsInWord, endsInWord, List.getLast?_append, List.getLast?_eq_some_getLast hb]
  rfl

theorem beginsInWord_append_of_ne (ha : a ≠ []) : beginsInWord (a ++ b) = beginsInWord a := by
  obtain ⟨c, a, rfl⟩ := List.exists_cons_of_ne_nil ha
  rfl

theorem apart_nil : Apart a [] := Or.inr rfl

section Pieces

variable (hk : IsWord keyword)
include hk

theorem wordChar_of_reads {word : List Char} (h : asciiLower word = keyword) :
    ∀ c ∈ word, isWordChar c = true := by
  intro c hc
  have hlower : c.toLower ∈ keyword := h ▸ List.mem_map_of_mem hc
  exact isWordChar_of_toLower (hk.2 _ hlower)

theorem ne_nil_of_reads {word : List Char} (h : asciiLower word = keyword) : word ≠ [] := by
  rintro rfl
  exact hk.1 h.symm

theorem endsInWord_of_reads {word : List Char} (h : asciiLower word = keyword)
    {x y : List Char} (hw : word = x ++ y) (hx : x ≠ []) : endsInWord x = true := by
  rw [endsInWord, List.getLast?_eq_some_getLast hx]
  exact wordChar_of_reads hk h _ (hw ▸ List.mem_append_left _ (List.getLast_mem hx))

theorem beginsInWord_of_reads {word : List Char} (h : asciiLower word = keyword)
    {x y : List Char} (hw : word = x ++ y) (hy : y ≠ []) : beginsInWord y = true := by
  rw [beginsInWord, List.head?_eq_some_head hy]
  exact wordChar_of_reads hk h _ (hw ▸ List.mem_append_right _ (List.head_mem hy))

/-- A word that begins in the first piece is one of that piece. -/
theorem WordAt.of_append {i : Nat} (hab : Apart a b) (hi : i < a.length)
    (h : WordAt keyword (a ++ b) i) : WordAt keyword a i := by
  obtain ⟨before, word, after, heq, rfl, hclosed, hreads, hends, hbegins⟩ := h
  rcases List.append_eq_append_iff.mp heq with ⟨x, hx, hb⟩ | ⟨x, ha, hafter⟩
  · -- The first piece ends within the word, or right before it.
    cases x with
    | nil =>
        rw [List.append_nil] at hx
        exact ⟨before, word, [], by rw [hx, List.append_nil], rfl, hclosed, hreads, hends, rfl⟩
    | cons d x =>
        obtain ⟨y, hbefore, hword⟩ : ∃ y, a = before ++ y ∧ word = y ++ d :: x := by
          rcases List.append_eq_append_iff.mp hx with ⟨y, hy, hw⟩ | ⟨y, hy, hw⟩
          · exact ⟨y, hy, hw⟩
          · have hlength := congrArg List.length hy
            rw [List.length_append] at hlength
            omega
        have hy : y ≠ [] := by
          rintro rfl
          rw [hbefore, List.append_nil] at hi
          exact absurd hi (Nat.lt_irrefl _)
        rcases hab with hab | hab
        · rw [hbefore, endsInWord_append_of_ne hy, endsInWord_of_reads hk hreads hword hy] at hab
          cases hab
        · rw [hb, beginsInWord_append_of_ne (List.cons_ne_nil d x),
            beginsInWord_of_reads hk hreads hword (List.cons_ne_nil d x)] at hab
          cases hab
  · refine ⟨before, word, x, ha, rfl, hclosed, hreads, hends, ?_⟩
    cases x with
    | nil => rfl
    | cons d x =>
        rw [hafter, beginsInWord_append_of_ne (List.cons_ne_nil d x)] at hbegins
        exact hbegins

/-- A word of the first piece is one of the whole. -/
theorem WordAt.append {i : Nat} (hab : Apart a b) (h : WordAt keyword a i) :
    WordAt keyword (a ++ b) i := by
  obtain ⟨before, word, after, rfl, rfl, hclosed, hreads, hends, hbegins⟩ := h
  refine ⟨before, word, after ++ b, by simp only [List.append_assoc], rfl, hclosed, hreads,
    hends, ?_⟩
  cases after with
  | nil =>
      have hword : endsInWord (before ++ word ++ []) = true := by
        rw [List.append_nil, endsInWord_append_of_ne (ne_nil_of_reads hk hreads)]
        exact endsInWord_of_reads hk hreads (List.append_nil _).symm (ne_nil_of_reads hk hreads)
      rcases hab with hab | hab
      · rw [hword] at hab
        cases hab
      · exact hab
  | cons d after => exact hbegins

/-- No word stands in the first piece of a text that begins none there. -/
theorem noWord_of_append (hab : Apart a b) (h : ∀ i < a.length, ¬WordAt keyword (a ++ b) i) :
    NoWord keyword a := by
  intro i hi
  refine h i ?_ (hi.append hk hab)
  obtain ⟨before, word, after, rfl, rfl, -, hreads, -⟩ := hi
  have hlength := List.length_pos_iff.mpr (ne_nil_of_reads hk hreads)
  simp only [List.length_append]
  omega

/-- No word stands in two closed pieces that have none and that no word reaches across. -/
theorem NoWord.append (hclosed : Closed a) (hab : Apart a b) (ha : NoWord keyword a)
    (hb : NoWord keyword b) : NoWord keyword (a ++ b) := by
  intro i hi
  by_cases hlt : i < a.length
  · exact ha i (hi.of_append hk hab hlt)
  obtain ⟨before, word, after, heq, rfl, houtside, hreads, hends, hbegins⟩ := hi
  rw [List.append_assoc] at heq
  obtain ⟨x, rfl, hx⟩ : ∃ x, before = a ++ x ∧ b = x ++ (word ++ after) := by
    rcases List.append_eq_append_iff.mp heq with ⟨x, hx, hb⟩ | ⟨x, hx, hb⟩
    · exact ⟨x, hx, hb⟩
    · have hlength := congrArg List.length hx
      rw [List.length_append] at hlength
      have hnil : x = [] := List.length_eq_zero_iff.mp (by omega)
      subst hnil
      exact ⟨[], by simpa using hx.symm, by simpa using hb.symm⟩
  refine hb x.length ⟨x, word, after, by rw [hx, List.append_assoc], rfl,
    (closed_append_iff hclosed).mp houtside, hreads, ?_, hbegins⟩
  cases x with
  | nil => rfl
  | cons d x =>
      rw [endsInWord_append_of_ne (List.cons_ne_nil d x)] at hends
      exact hends

end Pieces

/-! ### The search -/

/-- The search and the reading agree on what is open; the search also knows whether a word
goes on, unless it is in quotes. -/
structure Tracks (before : List Char) (n : Nesting) : Prop where
  opened : reading {} before = some ⟨n.quote, n.depth⟩
  inWord : n.quote = none → n.inWord = endsInWord before

theorem tracks_nil : Tracks [] {} :=
  ⟨rfl, fun _ => rfl⟩

/-- The search follows the reading for as long as there is one. -/
theorem Tracks.after {before : List Char} {n : Nesting} (h : Tracks before n)
    (hr : (reading {} (before ++ [c])).isSome = true) : Tracks (before ++ [c]) (n.after c) := by
  have hends : endsInWord (before ++ [c]) = isWordChar c :=
    endsInWord_append_of_ne (List.cons_ne_nil c [])
  have hsound : Reading.Sound ⟨n.quote, n.depth⟩ := sound_reading (fun q hq => by cases hq) h.opened
  have hlast : reading {} (before ++ [c]) = Reading.next ⟨n.quote, n.depth⟩ c := by
    simp only [reading_append, h.opened, Option.bind_some, reading_cons, reading_nil,
      Option.bind_fun_some]
  rw [hlast] at hr
  obtain ⟨d, q, w⟩ := n
  constructor
  · rw [hlast]
    cases q <;> grind [Reading.next, Nesting.after]
  · intro hq
    rw [hends]
    cases q with
    | none => grind [Nesting.after]
    | some q =>
        obtain rfl : c = q := by grind [Nesting.after]
        have hword : isWordChar c = false := by
          refine Bool.eq_false_iff.mpr fun hc => ?_
          have hplain := isPlain_of_wordChar hc
          rw [hsound c rfl] at hplain
          cases hplain
        rw [hword]
        rfl

theorem closed_iff_of_tracks {before : List Char} {n : Nesting} (h : Tracks before n) :
    Closed before ↔ n.quote = none ∧ n.depth = 0 := by
  rw [Closed, h.opened, Option.some.injEq, Reading.mk.injEq]

theorem startsWithKeyword_iff : startsWithKeyword keyword cs = true ↔
    ∃ word after, cs = word ++ after ∧ asciiLower word = keyword ∧ beginsInWord after = false := by
  simp only [startsWithKeyword, Bool.and_eq_true, beq_iff_eq, Bool.not_eq_true']
  constructor
  · rintro ⟨hword, hafter⟩
    exact ⟨_, _, (List.take_append_drop keyword.length cs).symm, hword, hafter⟩
  · rintro ⟨word, after, rfl, rfl, hafter⟩
    have hlength : (asciiLower word).length = word.length := List.length_map _
    rw [hlength, List.take_left, List.drop_left]
    exact ⟨rfl, hafter⟩

theorem wordAt_append_iff {before rest : List Char} :
    WordAt keyword (before ++ rest) before.length ↔
      Closed before ∧ endsInWord before = false ∧ startsWithKeyword keyword rest = true := by
  rw [startsWithKeyword_iff]
  constructor
  · rintro ⟨before', word, after, heq, hlength, hclosed, hreads, hends, hbegins⟩
    rw [List.append_assoc] at heq
    obtain ⟨rfl, rfl⟩ := List.append_inj heq hlength.symm
    exact ⟨hclosed, hends, word, after, rfl, hreads, hbegins⟩
  · rintro ⟨hclosed, hends, word, after, rfl, hreads, hbegins⟩
    exact ⟨before, word, after, (List.append_assoc ..).symm, rfl, hclosed, hreads, hends, hbegins⟩

theorem startsWithKeyword_iff_wordAt : startsWithKeyword keyword cs = true ↔ WordAt keyword cs 0 := by
  have h : WordAt keyword ([] ++ cs) ([] : List Char).length ↔
      Closed [] ∧ endsInWord [] = false ∧ startsWithKeyword keyword cs = true := wordAt_append_iff
  exact (h.trans ((and_iff_right rfl).trans (and_iff_right rfl))).symm

/-- What is behind a text has no part in the keyword that it begins with. -/
theorem startsWithKeyword_append (hk : IsWord keyword) (hab : Apart a b) (ha : a ≠ []) :
    startsWithKeyword keyword (a ++ b) = startsWithKeyword keyword a := by
  rw [Bool.eq_iff_iff, startsWithKeyword_iff_wordAt, startsWithKeyword_iff_wordAt]
  exact ⟨WordAt.of_append hk hab (List.length_pos_iff.mpr ha), WordAt.append hk hab⟩

/-- The search stops where such a word begins. -/
theorem admits_iff_wordAt (hk : IsWord keyword) {before rest : List Char} {n : Nesting}
    (h : Tracks before n) :
    (n.admits c && startsWithKeyword keyword (c :: rest)) = true ↔
      WordAt keyword (before ++ c :: rest) before.length := by
  rw [wordAt_append_iff, closed_iff_of_tracks h, Bool.and_eq_true]
  constructor
  · rintro ⟨hadmits, hstarts⟩
    simp only [Nesting.admits, Bool.and_eq_true, Option.isNone_iff_eq_none, beq_iff_eq,
      Bool.not_eq_true'] at hadmits
    obtain ⟨⟨⟨⟨⟨⟨hq, hd⟩, hw⟩, -⟩, -⟩, -⟩, -⟩ := hadmits
    exact ⟨⟨hq, hd⟩, h.inWord hq ▸ hw, hstarts⟩
  · rintro ⟨⟨hq, hd⟩, hends, hstarts⟩
    obtain ⟨word, after, hword, hreads, -⟩ := startsWithKeyword_iff.mp hstarts
    obtain ⟨c', word, rfl⟩ := List.exists_cons_of_ne_nil (ne_nil_of_reads hk hreads)
    cases hword
    have hplain := isPlain_of_wordChar (wordChar_of_reads hk hreads c List.mem_cons_self)
    simp only [isPlain, Bool.and_eq_true] at hplain
    refine ⟨?_, hstarts⟩
    simp only [Nesting.admits, hq, hd, h.inWord hq, hends, hplain]
    rfl

/-- What a search for the first word from a place on has to answer. -/
def Finds (keyword cs : List Char) (start : Nat) : Option Nat → Prop
  | some i => WordAt keyword cs i ∧ ∀ j, start ≤ j → j < i → ¬WordAt keyword cs j
  | none => ∀ j, start ≤ j → ¬WordAt keyword cs j

theorem Finds.of_succ {start : Nat} {found : Option Nat} (h : Finds keyword cs (start + 1) found)
    (hstart : ¬WordAt keyword cs start) : Finds keyword cs start found := by
  have hfrom : ∀ j, start ≤ j → ¬WordAt keyword cs j ∨ start + 1 ≤ j := by
    intro j hj
    rcases Nat.eq_or_lt_of_le hj with rfl | hj
    · exact Or.inl hstart
    · exact Or.inr hj
  cases found with
  | none => exact fun j hj => (hfrom j hj).elim id (h j)
  | some i => exact ⟨h.1, fun j hj hi => (hfrom j hj).elim id fun hj => h.2 j hj hi⟩

theorem length_lt_of_wordAt (hk : IsWord keyword) {i : Nat} (h : WordAt keyword cs i) :
    i < cs.length := by
  obtain ⟨before, word, after, rfl, rfl, -, hreads, -⟩ := h
  have hlength := List.length_pos_iff.mpr (ne_nil_of_reads hk hreads)
  simp only [List.length_append]
  omega

theorem finds_findKeywordFrom (hk : IsWord keyword) {rest before : List Char} {n : Nesting}
    (h : Tracks before n) (hread : (reading {} (before ++ rest)).isSome = true) :
    Finds keyword (before ++ rest) before.length
      (findKeywordFrom keyword n before.length rest) := by
  induction rest generalizing before n with
  | nil =>
      intro j hj hword
      have hlt := length_lt_of_wordAt hk hword
      rw [List.append_nil] at hlt
      omega
  | cons c rest ih =>
      have hsplit : before ++ c :: rest = (before ++ [c]) ++ rest := List.append_cons ..
      rw [findKeywordFrom]
      split_ifs with hc
      · exact ⟨(admits_iff_wordAt hk h).mp hc, fun j hj hi => absurd hi (Nat.not_lt.mpr hj)⟩
      · refine Finds.of_succ ?_ fun hword => hc ((admits_iff_wordAt hk h).mpr hword)
        have hnext : (reading {} (before ++ [c])).isSome = true := by
          rw [hsplit, reading_append] at hread
          exact Option.isSome_of_isSome_bind hread
        have hlength : (before ++ [c]).length = before.length + 1 := List.length_append
        rw [hsplit, ← hlength]
        exact ih (h.after hnext) (hsplit ▸ hread)

/-- A text in two parts: in front of the first such word, and from there on.  Without such a
word there is no second part. -/
structure CutBefore (keyword cs before after : List Char) : Prop where
  whole : cs = before ++ after
  first : ∀ i < before.length, ¬WordAt keyword cs i
  word : after ≠ [] → WordAt keyword cs before.length

theorem cut_of_noWord (h : NoWord keyword cs) : CutBefore keyword cs cs [] :=
  ⟨(List.append_nil cs).symm, fun i _ => h i, fun hne => absurd rfl hne⟩

theorem finds_findKeyword (hk : IsWord keyword) (hcs : Closed cs) :
    Finds keyword cs 0 (findKeyword keyword cs) :=
  finds_findKeywordFrom hk tracks_nil (Option.isSome_iff_exists.mpr ⟨_, hcs⟩)

/-- **The search finds the first word.**  Where it stops in a text whose quotes and
parentheses are closed, there is such a word, and there is none before. -/
theorem cut_of_findKeyword (hk : IsWord keyword) (hcs : Closed cs) {i : Nat}
    (h : findKeyword keyword cs = some i) :
    CutBefore keyword cs (cs.take i) (cs.drop i) ∧ cs.drop i ≠ [] := by
  have hfinds := finds_findKeyword hk hcs
  rw [h] at hfinds
  have hi := length_lt_of_wordAt hk hfinds.1
  have hlength : (cs.take i).length = i := List.length_take_of_le (Nat.le_of_lt hi)
  refine ⟨⟨(List.take_append_drop i cs).symm, fun j hj => ?_, fun _ => ?_⟩, ?_⟩
  · exact hfinds.2 j (Nat.zero_le j) (hlength ▸ hj)
  · rw [hlength]
    exact hfinds.1
  · exact List.ne_nil_of_length_pos (by rw [List.length_drop]; omega)

theorem noWord_of_findKeyword (hk : IsWord keyword) (hcs : Closed cs)
    (h : findKeyword keyword cs = none) : NoWord keyword cs := by
  have hfinds := finds_findKeyword hk hcs
  rw [h] at hfinds
  exact fun i => hfinds i (Nat.zero_le i)

end SqlSession.Sql
