/-
What a raw statement does, in one pass over its characters.

`Scan` reads a text without looking ahead.  It keeps in which of three zones it stands, the
character before in that zone, the word that it is in, and the operation of the first word that
starts one.  A comment begins at the second character of its marker and ends at the last of its
closing text, and no comment holds a word.

That is what `classify` finds by leaving the comments out and cutting the rest into words:
`Scan.step_ahead` says that one character changes nothing about what a scan and the text ahead of
it come to.  Two things can be read off the scan.  It asks no character for its case, and a
comment, once it is closed, has done no more than end a word.
-/
import SqlSession.Proofs.Sql.FirstKeyword

namespace SqlSession.Sql

open Text Delimiter

variable {a b body comment cs : List Char} {c : Char}

/-! ### The scan -/

/-- Where a scan stands: in a comment or in none. -/
inductive Zone where
  | normal
  | line
  | block
  deriving DecidableEq

/-- The zone behind a character, if `before` is the character before it in the same zone. -/
def Zone.next (zone : Zone) (before : Option Char) (c : Char) : Zone :=
  match zone with
  | .normal =>
    if before = some '-' ∧ c = '-' then .line
    else if before = some '/' ∧ c = '*' then .block
    else .normal
  | .line => if c = '\n' then .normal else .line
  | .block => if before = some '*' ∧ c = '/' then .normal else .block

/-- What a scan keeps of the characters that it has read. -/
structure Scan where
  zone : Zone := .normal
  /-- The character before, if it was read in this zone. -/
  before : Option Char := none
  /-- The word that is being read. -/
  word : List Char := []
  /-- The operation of the first word that starts one, of those that are over. -/
  found : Option Operation := none
  deriving DecidableEq

namespace Scan

variable {s : Scan}

/-- The operation that the scan has come to if the text ends here. -/
def decided (s : Scan) : Option Operation :=
  s.found.or (Operation.ofKeyword? (asciiLower s.word))

/-- Read a character. -/
def step (s : Scan) (c : Char) : Scan :=
  let zone := s.zone.next s.before c
  let before := if zone = s.zone then some c else none
  if s.zone = .normal ∧ isWordChar c then { s with zone, before, word := s.word ++ [c] }
  else { zone, before, word := [], found := s.decided }

/-- Read a text. -/
def read (s : Scan) (cs : List Char) : Scan :=
  cs.foldl step s

@[simp] theorem read_nil (s : Scan) : s.read [] = s := rfl

@[simp] theorem read_cons (s : Scan) (c : Char) (cs : List Char) :
    s.read (c :: cs) = (s.step c).read cs := rfl

theorem read_append (s : Scan) (a b : List Char) : s.read (a ++ b) = (s.read a).read b :=
  List.foldl_append

theorem read_concat (s : Scan) (a : List Char) (c : Char) : s.read (a ++ [c]) = (s.read a).step c :=
  read_append s a [c]

end Scan

/-! ### Texts cut in two -/

theorem beginsInWord_withoutComments (cs : List Char) :
    beginsInWord (withoutComments .code cs) = beginsInWord cs := by
  rw [withoutComments.eq_def]
  split <;> first | rfl | contradiction

/-- No character of a word opens a comment. -/
theorem Zone.next_of_wordChar (hc : isWordChar c = true) (before : Option Char) :
    Zone.normal.next before c = .normal := by
  have hdash : c ≠ '-' := by rintro rfl; cases hc
  have hstar : c ≠ '*' := by rintro rfl; cases hc
  simp only [Zone.next, hdash, hstar, and_false, if_false]

/-- Only behind a dash or a slash a comment can be opened. -/
theorem Zone.next_behind (hdash : c ≠ '-') (hslash : c ≠ '/') (d : Char) :
    Zone.normal.next (some c) d = .normal := by
  simp only [Zone.next, Option.some_inj, hdash, hslash, false_and, if_false]

/-- A character that opens no comment with the one behind it is code. -/
theorem withoutComments_cons (h : ∀ d ∈ cs.head?, Zone.normal.next (some c) d = .normal) :
    withoutComments .code (c :: cs) = c :: withoutComments .code cs := by
  rw [withoutComments]
  · rintro tail rfl rfl
    exact absurd (h '-' rfl) (by decide)
  · rintro tail rfl rfl
    exact absurd (h '*' rfl) (by decide)

@[simp] theorem firstKeyword?_nil : firstKeyword? [] = none := rfl

theorem firstKeyword?_cons (hc : isWordChar c = false) (cs : List Char) :
    firstKeyword? (c :: cs) = firstKeyword? cs := by
  rw [← List.nil_append (c :: cs), firstKeyword?_append_cons hc, firstKeyword?_nil, Option.none_or]

/-- What two texts decide is decided by one after the other, if no word reaches across. -/
theorem firstKeyword?_append (h : Apart a b) :
    firstKeyword? (a ++ b) = (firstKeyword? a).or (firstKeyword? b) := by
  rcases h with h | h
  · rcases List.eq_nil_or_concat' a with rfl | ⟨a, c, rfl⟩
    · rw [List.nil_append, firstKeyword?_nil, Option.none_or]
    · have hc : isWordChar c = false := by simpa [endsInWord] using h
      rw [List.append_assoc, List.singleton_append, firstKeyword?_append_cons hc,
        firstKeyword?_append_cons hc, firstKeyword?_nil, Option.or_none]
  · cases b with
    | nil => rw [List.append_nil, firstKeyword?_nil, Option.or_none]
    | cons c b => rw [firstKeyword?_append_cons h, firstKeyword?_cons h]

/-! ### The scan and the text ahead of it -/

namespace Scan

variable {s : Scan}

/-- The character before, if it may begin a comment. -/
def pending (s : Scan) : List Char :=
  match s.before with
  | some '-' => ['-']
  | some '/' => ['/']
  | _ => []

/-- What is left of the text ahead when its comments are left out. -/
def ahead (s : Scan) (cs : List Char) : List Char :=
  match s.zone with
  | .normal => withoutComments .code (s.pending ++ cs)
  | .line => withoutComments .line cs
  | .block => withoutComments (.block (s.before == some '*')) cs

/-- What the scan and the text ahead decide together. -/
def outcome (s : Scan) (cs : List Char) : Option Operation :=
  s.found.or (firstKeyword? (s.word ++ s.ahead cs))

/-- A scan in a word has just read a character of it. -/
structure Sound (s : Scan) : Prop where
  word : ∀ c ∈ s.word, isWordChar c = true
  inWord : s.word ≠ [] → s.zone = .normal ∧ ∀ c ∈ s.before, isWordChar c = true

theorem sound_of_word_eq_nil (h : s.word = []) : s.Sound :=
  ⟨fun _ hc => absurd hc (h ▸ List.not_mem_nil), fun hne => absurd h hne⟩

/-- The scan reads on in a word, or the character is in none. -/
theorem word_or_not (s : Scan) (c : Char) : s.zone = .normal ∧ isWordChar c = true ∨
    (s.zone = .normal → isWordChar c = false) := by
  cases isWordChar c with
  | false => exact Or.inr fun _ => rfl
  | true => exact (Decidable.em (s.zone = .normal)).imp (⟨·, rfl⟩) fun h h' => absurd h' h

theorem step_of_wordChar (hzone : s.zone = .normal) (hc : isWordChar c = true) :
    s.step c = { s with before := some c, word := s.word ++ [c] } := by
  simp only [step, hzone, Zone.next_of_wordChar hc, hc, and_self, if_true]

theorem step_of_not_wordChar (h : s.zone = .normal → isWordChar c = false) :
    s.step c =
      { zone := s.zone.next s.before c
        before := if s.zone.next s.before c = s.zone then some c else none
        found := s.decided } := by
  have hnot : ¬(s.zone = .normal ∧ isWordChar c = true) := by
    rintro ⟨hzone, hc⟩
    rw [h hzone] at hc
    cases hc
  simp only [step, hnot, if_false]

theorem Sound.step (hs : s.Sound) (c : Char) : (s.step c).Sound := by
  rcases s.word_or_not c with ⟨hzone, hc⟩ | hout
  · rw [step_of_wordChar hzone hc]
    refine ⟨List.forall_mem_append.mpr ⟨hs.word, ?_⟩, fun _ => ⟨hzone, ?_⟩⟩
    · rintro d hd
      rw [List.mem_singleton.mp hd]
      exact hc
    · rintro d ⟨⟩
      exact hc
  · rw [step_of_not_wordChar hout]
    exact sound_of_word_eq_nil rfl

theorem Sound.read (hs : s.Sound) (cs : List Char) : (s.read cs).Sound := by
  induction cs generalizing s with
  | nil => exact hs
  | cons c cs ih => exact ih (hs.step c)

/-- No word is read in a comment. -/
theorem Sound.word_of_ne_normal (hs : s.Sound) (hzone : s.zone ≠ .normal) : s.word = [] := by
  by_contra hword
  exact hzone (hs.inWord hword).1

theorem pending_cases (s : Scan) :
    s.pending = [] ∨ s.before = some '-' ∧ s.pending = ['-'] ∨
      s.before = some '/' ∧ s.pending = ['/'] := by
  unfold pending
  split
  · exact Or.inr (Or.inl ⟨‹_›, rfl⟩)
  · exact Or.inr (Or.inr ⟨‹_›, rfl⟩)
  · exact Or.inl rfl

theorem pending_eq_nil (hdash : s.before ≠ some '-') (hslash : s.before ≠ some '/') :
    s.pending = [] := by
  rcases s.pending_cases with h | ⟨hb, -⟩ | ⟨hb, -⟩
  · exact h
  · exact absurd hb hdash
  · exact absurd hb hslash

/-- A character that may begin a comment is in no word, so the scan is in none behind it. -/
theorem Sound.word_of_pending (hs : s.Sound) (h : s.pending ≠ []) : s.word = [] := by
  by_contra hword
  have hbefore := (hs.inWord hword).2
  refine h (pending_eq_nil (fun hb => ?_) (fun hb => ?_)) <;> cases hbefore _ hb

/-- A character that may begin a comment decides nothing by itself. -/
theorem Sound.firstKeyword?_pending (hs : s.Sound) (cs : List Char) :
    firstKeyword? (s.word ++ (s.pending ++ cs)) = firstKeyword? (s.word ++ cs) := by
  rcases s.pending_cases with h | ⟨-, h⟩ | ⟨-, h⟩
  · rw [h, List.nil_append]
  · rw [hs.word_of_pending (by simp [h]), h]
    exact firstKeyword?_cons rfl cs
  · rw [hs.word_of_pending (by simp [h]), h]
    exact firstKeyword?_cons rfl cs

theorem Sound.decided_eq (hs : s.Sound) : s.decided = s.found.or (firstKeyword? s.word) := by
  rw [decided, firstKeyword?_word hs.word]

/-- Where the next character opens no comment, the text ahead is read as if it were a whole
text. -/
theorem ahead_of_normal (hzone : s.zone = .normal)
    (h : ∀ c ∈ cs.head?, Zone.normal.next s.before c = .normal) :
    s.ahead cs = s.pending ++ withoutComments .code cs := by
  simp only [ahead, hzone]
  rcases s.pending_cases with hp | ⟨hb, hp⟩ | ⟨hb, hp⟩
  · rw [hp, List.nil_append, List.nil_append]
  · rw [hp, List.singleton_append, List.singleton_append, withoutComments_cons (hb ▸ h)]
  · rw [hp, List.singleton_append, List.singleton_append, withoutComments_cons (hb ▸ h)]

theorem ahead_behind (hzone : s.zone = .normal) (hbefore : s.before = some c) (hdash : c ≠ '-')
    (hslash : c ≠ '/') (cs : List Char) : s.ahead cs = withoutComments .code cs := by
  have hpending : s.pending = [] := pending_eq_nil (by simpa [hbefore]) (by simpa [hbefore])
  simp only [ahead, hzone, hpending, List.nil_append]

/-- What is ahead of a character outside of words decides what it decides together with that
character, whether or not that may begin a comment. -/
theorem firstKeyword?_ahead (hc : isWordChar c = false) (o : Option Operation) (cs : List Char) :
    firstKeyword? (ahead { before := some c, found := o } cs) =
      firstKeyword? (withoutComments .code (c :: cs)) := by
  by_cases hopens : c = '-' ∨ c = '/'
  · rcases hopens with rfl | rfl <;> rfl
  · obtain ⟨hdash, hslash⟩ := not_or.mp hopens
    have hcode : withoutComments .code (c :: cs) = c :: withoutComments .code cs :=
      withoutComments_cons fun d _ => Zone.next_behind hdash hslash d
    rw [hcode, ahead_behind rfl rfl hdash hslash, firstKeyword?_cons hc]

/-- Where a character is in no word, the word before it and the text behind it decide. -/
theorem Sound.firstKeyword?_step (hs : s.Sound) (h : s.zone = .normal → isWordChar c = false)
    (cs : List Char) : firstKeyword? (s.word ++ s.ahead (c :: cs)) =
      (firstKeyword? s.word).or (firstKeyword? ((s.step c).ahead cs)) := by
  have hblank : isWordChar ' ' = false := rfl
  rw [step_of_not_wordChar h]
  cases hzone : s.zone with
  | normal =>
      by_cases hline : s.before = some '-' ∧ c = '-'
      · obtain ⟨hb, rfl⟩ := hline
        simp only [ahead, pending, hzone, hb, Zone.next]
        exact firstKeyword?_append_cons hblank
      · by_cases hblock : s.before = some '/' ∧ c = '*'
        · obtain ⟨hb, rfl⟩ := hblock
          simp only [ahead, pending, hzone, hb, Zone.next]
          exact firstKeyword?_append_cons hblank
        · have hnext : Zone.normal.next s.before c = .normal := by
            simp only [Zone.next, hline, hblock, if_false]
          have hahead : s.ahead (c :: cs) = s.pending ++ withoutComments .code (c :: cs) :=
            ahead_of_normal hzone fun d hd => by
              rw [← Option.some_inj.mp hd]
              exact hnext
          have hapart : Apart s.word (withoutComments .code (c :: cs)) :=
            Or.inr ((beginsInWord_withoutComments _).trans (h hzone))
          rw [hahead, hs.firstKeyword?_pending, firstKeyword?_append hapart, hnext, if_pos rfl,
            firstKeyword?_ahead (h hzone)]
  | line =>
      have hword : s.word = [] := hs.word_of_ne_normal (by simp [hzone])
      rw [hword, List.nil_append, firstKeyword?_nil, Option.none_or]
      by_cases hc : c = '\n' <;>
        simp [ahead, pending, hzone, hc, Zone.next, withoutComments]
  | block =>
      have hword : s.word = [] := hs.word_of_ne_normal (by simp [hzone])
      rw [hword, List.nil_append, firstKeyword?_nil, Option.none_or]
      by_cases hc : s.before = some '*' ∧ c = '/' <;>
        simp [ahead, pending, hzone, hc, Zone.next, withoutComments]

/-- **One character.**  The scan and the text ahead of it decide the same before and after. -/
theorem Sound.outcome_step (hs : s.Sound) (c : Char) (cs : List Char) :
    (s.step c).outcome cs = s.outcome (c :: cs) := by
  rcases s.word_or_not c with ⟨hzone, hc⟩ | hout
  · have hdash : c ≠ '-' := by rintro rfl; cases hc
    have hslash : c ≠ '/' := by rintro rfl; cases hc
    have hahead : s.ahead (c :: cs) = s.pending ++ withoutComments .code (c :: cs) :=
      ahead_of_normal hzone fun d hd => by
        rw [← Option.some_inj.mp hd]
        exact Zone.next_of_wordChar hc _
    have hcode : withoutComments .code (c :: cs) = c :: withoutComments .code cs :=
      withoutComments_cons fun d _ => Zone.next_behind hdash hslash d
    have hstep := step_of_wordChar hzone hc
    have hbehind : (s.step c).ahead cs = withoutComments .code cs :=
      ahead_behind (by rw [hstep, hzone]) (by rw [hstep]) hdash hslash cs
    rw [outcome, outcome, hbehind, hahead, hs.firstKeyword?_pending, hcode, hstep,
      List.append_assoc, List.singleton_append]
  · have hword : (s.step c).word = [] := by rw [step_of_not_wordChar hout]
    have hfound : (s.step c).found = s.decided := by rw [step_of_not_wordChar hout]
    rw [outcome, outcome, hword, hfound, hs.firstKeyword?_step hout, hs.decided_eq,
      Option.or_assoc, List.nil_append]

theorem Sound.outcome_nil (hs : s.Sound) : s.outcome [] = s.decided := by
  have hahead : firstKeyword? (s.word ++ s.ahead []) = firstKeyword? s.word := by
    cases hzone : s.zone with
    | normal =>
        have h : s.ahead [] = s.pending ++ withoutComments .code [] :=
          ahead_of_normal hzone fun c hc => by cases hc
        rw [h, hs.firstKeyword?_pending]
        exact congrArg firstKeyword? (List.append_nil _)
    | line => simp [ahead, hzone, withoutComments]
    | block => simp [ahead, hzone, withoutComments]
  rw [outcome, hahead, hs.decided_eq]

/-- **A text.**  What the scan has decided at the end is what it and the text decide at first. -/
theorem Sound.decided_read (hs : s.Sound) (cs : List Char) :
    (s.read cs).decided = s.outcome cs := by
  induction cs generalizing s with
  | nil => exact hs.outcome_nil.symm
  | cons c cs ih => exact (ih (hs.step c)).trans (hs.outcome_step c cs)

end Scan

theorem classify_eq_scan (sql : String) :
    classify sql = (Scan.read {} sql.toList).decided.getD .none := by
  rw [(Scan.sound_of_word_eq_nil rfl).decided_read]
  rfl

/-! ### The case of letters -/

/-- A character and its lower case are the same, or they are both letters. -/
theorem toLower_cases (c : Char) : c.toLower = c ∨
    isWordChar c = true ∧ isWordChar c.toLower = true ∧ c.toLower.toLower = c.toLower := by
  by_cases hu : c.val ≥ 'A'.val ∧ c.val ≤ 'Z'.val
  · have hrange : 65 ≤ c.toNat ∧ c.toNat < 91 :=
      ⟨UInt32.le_iff_toNat_le.mp hu.1, Nat.lt_succ_of_le (UInt32.le_iff_toNat_le.mp hu.2)⟩
    have hletters : ∀ n < 91, 65 ≤ n → isWordChar (Char.ofNat n) = true ∧
        isWordChar (Char.ofNat n).toLower = true ∧
        (Char.ofNat n).toLower.toLower = (Char.ofNat n).toLower := by decide
    have h := hletters c.toNat hrange.2 hrange.1
    rw [Char.ofNat_toNat] at h
    exact Or.inr h
  · exact Or.inl (dif_neg hu)

theorem isWordChar_toLower (c : Char) : isWordChar c.toLower = isWordChar c := by
  rcases toLower_cases c with h | ⟨hc, hlower, -⟩
  · rw [h]
  · rw [hc, hlower]

/-- Outside of words no character has another case. -/
theorem toLower_eq_iff {d : Char} (hd : isWordChar d = false) : c.toLower = d ↔ c = d := by
  rcases toLower_cases c with h | ⟨hc, hlower, -⟩
  · rw [h]
  · refine ⟨?_, ?_⟩ <;> rintro rfl
    · rw [hlower] at hd
      cases hd
    · rw [hc] at hd
      cases hd

theorem asciiLower_asciiLower (cs : List Char) : asciiLower (asciiLower cs) = asciiLower cs := by
  rw [asciiLower, asciiLower, List.map_map]
  refine List.map_congr_left fun c _ => ?_
  rcases toLower_cases c with h | ⟨-, -, h⟩
  · rw [Function.comp_apply, h, h]
  · exact h

theorem map_toLower_eq_some_iff {d : Char} (hd : isWordChar d = false) {before : Option Char} :
    before.map Char.toLower = some d ↔ before = some d := by
  cases before with
  | none => simp
  | some c => simp [toLower_eq_iff hd]

theorem Zone.next_toLower (zone : Zone) (before : Option Char) (c : Char) :
    zone.next (before.map Char.toLower) c.toLower = zone.next before c := by
  have hdash : isWordChar '-' = false := rfl
  have hslash : isWordChar '/' = false := rfl
  have hstar : isWordChar '*' = false := rfl
  have hnewline : isWordChar '\n' = false := rfl
  cases zone with
  | normal =>
      simp only [Zone.next, map_toLower_eq_some_iff hdash, map_toLower_eq_some_iff hslash,
        toLower_eq_iff hdash, toLower_eq_iff hstar]
  | line => simp only [Zone.next, toLower_eq_iff hnewline]
  | block =>
      simp only [Zone.next, map_toLower_eq_some_iff hstar, toLower_eq_iff hslash]

namespace Scan

variable {s : Scan}

/-- The scan of the same text in lower case. -/
def lower (s : Scan) : Scan :=
  { s with before := s.before.map Char.toLower, word := asciiLower s.word }

theorem decided_lower (s : Scan) : s.lower.decided = s.decided := by
  rw [decided, decided, lower, asciiLower_asciiLower]

theorem step_lower (s : Scan) (c : Char) : s.lower.step c.toLower = (s.step c).lower := by
  have hzone : s.lower.zone.next s.lower.before c.toLower = s.zone.next s.before c :=
    Zone.next_toLower ..
  rcases s.word_or_not c with ⟨hnormal, hc⟩ | hout
  · have hlower : isWordChar c.toLower = true := (isWordChar_toLower c).trans hc
    rw [step_of_wordChar hnormal hc, step_of_wordChar (s := s.lower) hnormal hlower]
    simp only [lower, asciiLower, Option.map_some, List.map_append, List.map_cons, List.map_nil]
  · have hlower : s.lower.zone = .normal → isWordChar c.toLower = false :=
      fun hnormal => (isWordChar_toLower c).trans (hout hnormal)
    rw [step_of_not_wordChar hout, step_of_not_wordChar hlower, hzone, decided_lower]
    by_cases hsame : s.zone.next s.before c = s.zone <;> simp [lower, hsame, asciiLower]

/-- **A text in lower case** leaves the scan in the same place, in lower case. -/
theorem read_lower (s : Scan) (cs : List Char) :
    s.lower.read (asciiLower cs) = (s.read cs).lower := by
  induction cs generalizing s with
  | nil => rfl
  | cons c cs ih => exact (congrArg (read · (asciiLower cs)) (step_lower s c)).trans (ih _)

theorem decided_read_asciiLower (cs : List Char) :
    (read {} (asciiLower cs)).decided = (read {} cs).decided :=
  (congrArg decided (read_lower {} cs)).trans (decided_lower _)

/-! ### A comment between two words -/

/-- Behind a text that ends outside of words, the scan is in none. -/
theorem word_read_of_endsInWord (h : endsInWord a = false) : (read {} a).word = [] := by
  rcases List.eq_nil_or_concat' a with rfl | ⟨a, c, rfl⟩
  · rfl
  · have hc : isWordChar c = false := by simpa [endsInWord] using h
    rw [read_concat, step_of_not_wordChar fun _ => hc]

theorem zone_step (s : Scan) (c : Char) : (s.step c).zone = s.zone.next s.before c := by
  unfold step
  split_ifs <;> rfl

theorem decided_of_word_eq_nil (h : s.word = []) : s.decided = s.found := by
  rw [decided, h]
  exact Option.or_none

/-- Outside of words, a character that is in none only moves the scan on. -/
theorem step_of_word_eq_nil (hword : s.word = []) (h : s.zone = .normal → isWordChar c = false) :
    s.step c =
      { zone := s.zone.next s.before c
        before := if s.zone.next s.before c = s.zone then some c else none
        found := s.found } := by
  rw [step_of_not_wordChar h, decided_of_word_eq_nil hword]

/-- The inside of a comment is passed, up to where it is closed. -/
theorem read_inside {zone : Zone} (hzone : zone ≠ .normal) (o : Option Operation)
    (h : ∀ front c, front ++ [c] <+: body → zone.next front.getLast? c = zone) :
    read { zone, found := o } body = { zone, before := body.getLast?, found := o } := by
  induction body using List.reverseRecOn with
  | nil => rfl
  | append_singleton body c ih =>
      have hbody := ih fun front c hfront => h front c (hfront.trans (List.prefix_append ..))
      have hnext := h body c (List.prefix_refl _)
      rw [read_concat, hbody, step_of_word_eq_nil rfl fun hnormal => absurd hnormal hzone, hnext,
        if_pos rfl, List.getLast?_concat]

theorem read_line_inside (h : '\n' ∉ body) (o : Option Operation) :
    read { zone := .line, found := o } body =
      { zone := .line, before := body.getLast?, found := o } := by
  refine read_inside (by decide) o fun front c hfront => if_neg ?_
  rintro rfl
  exact h (hfront.subset (List.mem_append_right _ (List.mem_singleton_self _)))

theorem read_block_inside (h : ¬['*', '/'] <:+: body) (o : Option Operation) :
    read { zone := .block, found := o } body =
      { zone := .block, before := body.getLast?, found := o } := by
  refine read_inside (by decide) o fun front c hfront => if_neg ?_
  rintro ⟨hlast, rfl⟩
  obtain ⟨front, rfl⟩ := List.getLast?_eq_some_iff.mp hlast
  rw [List.append_assoc] at hfront
  exact h ((List.suffix_append front _).isInfix.trans hfront.isInfix)

/-- A line comment ends the word before it and does nothing else. -/
theorem read_line_comment (hzone : s.zone = .normal) (h : '\n' ∉ body) :
    s.read (line.opener ++ body ++ line.closer) = { found := s.decided } := by
  have hend : ∀ (before : Option Char) (o : Option Operation),
      step { zone := .line, before, found := o } '\n' = { found := o } :=
    fun _ _ => step_of_word_eq_nil rfl fun _ => rfl
  show s.read ('-' :: '-' :: (body ++ ['\n'])) = _
  have hfirst := step_of_not_wordChar (s := s) (c := '-') fun _ => rfl
  by_cases hb : s.before = some '-'
  · -- The comment has begun with its first dash already, and the second is in it.
    have hline : s.step '-' = { zone := .line, found := s.decided } := by
      rw [hfirst, hzone, hb]
      rfl
    have hbody : '\n' ∉ '-' :: body := by simpa using h
    rw [read_cons, hline, ← List.cons_append, read_concat, read_line_inside hbody, hend]
  · have hdash : s.step '-' = { before := some '-', found := s.decided } := by
      rw [hfirst, hzone]
      simp [Zone.next, hb]
    have hline : step { before := some '-', found := s.decided } '-' =
        { zone := .line, found := s.decided } := step_of_word_eq_nil rfl fun _ => rfl
    rw [read_cons, read_cons, hdash, hline, read_concat, read_line_inside h, hend]

/-- So does a block comment. -/
theorem read_block_comment (hzone : s.zone = .normal) (h : ¬['*', '/'] <:+: body ++ ['*']) :
    s.read (block.opener ++ body ++ block.closer) = { found := s.decided } := by
  have hslash : s.step '/' = { before := some '/', found := s.decided } := by
    rw [step_of_not_wordChar fun _ => rfl, hzone]
    simp [Zone.next]
  have hblock : step { before := some '/', found := s.decided } '*' =
      { zone := .block, found := s.decided } := step_of_word_eq_nil rfl fun _ => rfl
  have hend : step { zone := .block, before := some '*', found := s.decided } '/' =
      { found := s.decided } := step_of_word_eq_nil rfl fun _ => rfl
  have hclosed : block.opener ++ body ++ block.closer = '/' :: '*' :: (body ++ ['*'] ++ ['/']) := by
    simp [block]
  rw [hclosed, read_cons, read_cons, hslash, hblock, read_concat, read_block_inside h,
    List.getLast?_concat, hend]

end Scan

/-- A comment with its end, and with nothing behind that. -/
def ClosedComment (text : List Char) : Prop :=
  ∃ d ∈ commentDelimiters, ∃ body, text = d.opener ++ body ++ d.closer ∧
    ¬d.closer <:+: body ++ d.closer.dropLast

/-- Between the two texts, no comment is open, and none is being opened. -/
def OutsideComments (a b : List Char) : Prop :=
  (Scan.read {} a).zone = .normal ∧ (Scan.read {} (a ++ b.take 1)).zone = .normal

instance (a b : List Char) : Decidable (OutsideComments a b) :=
  inferInstanceAs (Decidable (_ ∧ _))

theorem Scan.read_closedComment {s : Scan} (hzone : s.zone = .normal)
    (h : ClosedComment comment) : s.read comment = { found := s.decided } := by
  obtain ⟨d, hd, body, rfl, hfirst⟩ := h
  simp only [commentDelimiters, List.mem_cons, List.not_mem_nil, or_false] at hd
  rcases hd with rfl | rfl
  · exact read_line_comment hzone ((List.singleton_infix_iff ..).not.mp (not_infix_of_first hfirst))
  · exact read_block_comment hzone hfirst

/-- A closed comment between two words decides nothing. -/
theorem decided_read_comment (hapart : Apart a b) (hout : OutsideComments a b)
    (hcomment : ClosedComment comment) :
    (Scan.read {} (a ++ comment ++ b)).decided = (Scan.read {} (a ++ b)).decided := by
  obtain ⟨hzone, hnext⟩ := hout
  have hsound : (Scan.read {} a).Sound := (Scan.sound_of_word_eq_nil rfl).read a
  have hhead : ∀ c ∈ b.head?, Zone.normal.next (Scan.read {} a).before c = .normal := by
    intro c hc
    obtain ⟨rest, rfl⟩ := List.head?_eq_some_iff.mp hc
    rw [List.take_succ_cons, List.take_zero, Scan.read_concat, Scan.zone_step, hzone] at hnext
    exact hnext
  have hword : Apart (Scan.read {} a).word (withoutComments .code b) := by
    rcases hapart with h | h
    · exact Or.inl (by rw [Scan.word_read_of_endsInWord h]; rfl)
    · exact Or.inr ((beginsInWord_withoutComments b).trans h)
  calc (Scan.read {} (a ++ comment ++ b)).decided
      = (Scan.read { found := (Scan.read {} a).decided } b).decided := by
        rw [Scan.read_append, Scan.read_append, Scan.read_closedComment hzone hcomment]
    _ = (Scan.read {} a).decided.or (firstKeyword? (withoutComments .code b)) := by
        rw [(Scan.sound_of_word_eq_nil rfl).decided_read]
        rfl
    _ = (Scan.read {} a).outcome b := by
        rw [Scan.outcome, Scan.ahead_of_normal hzone hhead, hsound.firstKeyword?_pending,
          firstKeyword?_append hword, hsound.decided_eq, Option.or_assoc]
    _ = (Scan.read {} (a ++ b)).decided := by
        rw [← hsound.decided_read, Scan.read_append]

/--
**One pass finds what a raw statement does.**  A scan of the text, character by character and
without looking ahead, through the zones outside of comments, in a line comment and in a block
comment, decides the operation by the first maximal run of word characters outside of comments
that is a keyword in letters of any case.  So neither the case of letters nor a comment matters,
if the comment is closed and stands between two words and in no other comment.
-/
theorem classify_by_scan :
    (∀ sql : String, classify sql = (Scan.read {} sql.toList).decided.getD .none) ∧
      (∀ sql other : String, asciiLower other.toList = asciiLower sql.toList →
        classify other = classify sql) ∧
      ∀ before comment after : String, Apart before.toList after.toList →
        OutsideComments before.toList after.toList → ClosedComment comment.toList →
          classify (before ++ comment ++ after) = classify (before ++ after) := by
  refine ⟨classify_eq_scan, fun sql other hcase => ?_, fun before comment after hapart hout hc => ?_⟩
  · rw [classify_eq_scan, classify_eq_scan, ← Scan.decided_read_asciiLower other.toList, hcase,
      Scan.decided_read_asciiLower]
  · rw [classify_eq_scan, classify_eq_scan, String.toList_append, String.toList_append,
      String.toList_append, decided_read_comment hapart hout hc]

/-- A comment with a keyword in it in front of the first word, and the words in other letters. -/
theorem select_behind_commented_insert :
    classify "WITH x as (/* insert */SELECT 1)" = .select ∧
      classify "with x as (select 1)" = classify "WITH x as (SELECT 1)" := by
  have hcomment : ClosedComment "/* insert */".toList :=
    ⟨block, List.mem_cons_of_mem _ List.mem_cons_self, " insert ".toList, by decide, by decide⟩
  refine ⟨?_, ?_⟩
  · have hsame := classify_by_scan.2.2 "WITH x as (" "/* insert */" "SELECT 1)" (Or.inl (by decide))
      (by decide) hcomment
    exact hsame.trans (by decide)
  · exact classify_by_scan.2.1 "WITH x as (SELECT 1)" "with x as (select 1)" (by decide)

end SqlSession.Sql
