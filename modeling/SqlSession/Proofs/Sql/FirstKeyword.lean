/-
What a raw statement does, by its first keyword.

A raw statement is cut into words, and the first one that starts an operation decides.  The
words are told apart by everything that no word holds, so a text can be cut at any such
character; `Decides` says what the answer has to be without cutting anything, and both agree
because they go apart at the same places.

Comments are left out before, by a reader that knows no quotes.  So a comment marker inside of
a quoted run hides what follows it, and a keyword inside of one decides.
`classify_decides` says what is read in every text, and that quoted runs without markers and
keywords do no harm; `quoted_run_decides` shows what happens with them.
-/
import Mathlib.Tactic.SplitIfs
import SqlSession.Proofs.Sql.Pieces
import SqlSession.Proofs.Sql.Words
import SqlSession.Sql.Comment

namespace SqlSession.Sql

open Text Delimiter

variable {a b cs text rest body : List Char} {c : Char} {i : Nat} {op : Operation}
  {o o' : Option Operation} {ds : List Delimiter} {d : Delimiter} {ps : List Piece}

/-! ### The first word that starts an operation -/

/-- Behind so many characters stands a word of its own that starts the operation. -/
def StartsAt (cs : List Char) (i : Nat) (op : Operation) : Prop :=
  ∃ before word after, cs = before ++ word ++ after ∧ before.length = i ∧
    endsInWord before = false ∧ beginsInWord after = false ∧
    Operation.ofKeyword? (asciiLower word) = some op

/-- The operation that the first such word starts, if there is one. -/
def Decides (cs : List Char) : Option Operation → Prop
  | some op => ∃ i, StartsAt cs i op ∧ ∀ j < i, ∀ op', ¬StartsAt cs j op'
  | none => ∀ i op, ¬StartsAt cs i op

theorem isWord_of_ofKeyword? {keyword : List Char}
    (h : Operation.ofKeyword? keyword = some op) : IsWord keyword := by
  unfold Operation.ofKeyword? at h
  split_ifs at h with hselect hinsert hupdate hdelete hcreate
  · exact hselect ▸ by decide
  · exact hinsert ▸ by decide
  · exact hupdate ▸ by decide
  · exact hdelete ▸ by decide
  · exact hcreate ▸ by decide

/-- What is behind a character that no word holds does not change the words in front of it. -/
theorem StartsAt.append_cons (hc : isWordChar c = false) (b : List Char) (h : StartsAt a i op) :
    StartsAt (a ++ c :: b) i op := by
  obtain ⟨before, word, after, rfl, rfl, hends, hbegins, hkeyword⟩ := h
  refine ⟨before, word, after ++ c :: b, by simp, rfl, hends, ?_, hkeyword⟩
  cases after with
  | nil => exact hc
  | cons d after => exact hbegins

/-- Nor does what is in front of it change the words behind it. -/
theorem StartsAt.behind (hc : isWordChar c = false) (a : List Char) (h : StartsAt b i op) :
    StartsAt (a ++ c :: b) (a.length + 1 + i) op := by
  obtain ⟨before, word, after, rfl, rfl, hends, hbegins, hkeyword⟩ := h
  refine ⟨a ++ c :: before, word, after, by simp, by simp; omega, ?_, hbegins, hkeyword⟩
  cases before with
  | nil => rw [endsInWord_append_of_ne (List.cons_ne_nil c [])]; exact hc
  | cons d before =>
      rw [List.append_cons, endsInWord_append_of_ne (List.cons_ne_nil d before)]
      exact hends

/-- A word stands in front of such a character or behind it. -/
theorem StartsAt.of_append_cons (hc : isWordChar c = false) (h : StartsAt (a ++ c :: b) i op) :
    StartsAt a i op ∨ ∃ j, i = a.length + 1 + j ∧ StartsAt b j op := by
  obtain ⟨before, word, after, heq, rfl, hends, hbegins, hkeyword⟩ := h
  have hk := isWord_of_ofKeyword? hkeyword
  have hword : c ∉ word := by
    intro hmem
    rw [wordChar_of_reads hk rfl c hmem] at hc
    cases hc
  rw [List.append_assoc] at heq
  rcases List.append_eq_append_iff.mp heq with ⟨x, hbefore, hb⟩ | ⟨x, ha, hafter⟩
  · -- The word begins behind the first text, and not with the character.
    right
    cases x with
    | nil =>
        obtain ⟨d, word, rfl⟩ := List.exists_cons_of_ne_nil (ne_nil_of_reads hk rfl)
        cases hb
        exact absurd List.mem_cons_self hword
    | cons d x =>
        cases hb
        refine ⟨x.length, by simp [hbefore]; omega, x, word, after, by simp, rfl, ?_, hbegins,
          hkeyword⟩
        cases x with
        | nil => rfl
        | cons d x =>
            rw [hbefore, List.append_cons, endsInWord_append_of_ne (List.cons_ne_nil d x)] at hends
            exact hends
  · left
    rcases List.append_eq_append_iff.mp hafter with ⟨y, hx, hafter'⟩ | ⟨y, hx, hy⟩
    · refine ⟨before, word, y, by rw [ha, hx, List.append_assoc], rfl, hends, ?_, hkeyword⟩
      cases y with
      | nil => rfl
      | cons d y =>
          rw [hafter'] at hbegins
          exact hbegins
    · cases y with
      | nil =>
          rw [List.append_nil] at hx
          exact ⟨before, word, [], by rw [ha, hx, List.append_nil], rfl, hends, rfl, hkeyword⟩
      | cons d y =>
          cases hy
          exact absurd (hx ▸ List.mem_append_right _ List.mem_cons_self) hword

theorem StartsAt.lt_length (h : StartsAt cs i op) : i < cs.length := by
  obtain ⟨before, word, after, rfl, rfl, -, -, hkeyword⟩ := h
  have hlength :=
    List.length_pos_iff.mpr (ne_nil_of_reads (isWord_of_ofKeyword? hkeyword) rfl)
  simp only [List.length_append]
  omega

/-- At most one operation is started at one place. -/
theorem StartsAt.unique {op' : Operation} (h : StartsAt cs i op) (h' : StartsAt cs i op') :
    op = op' := by
  have hword : ∀ {op}, StartsAt cs i op →
      Operation.ofKeyword? (asciiLower ((cs.drop i).takeWhile isWordChar)) = some op := by
    rintro op ⟨before, word, after, rfl, rfl, -, hbegins, hkeyword⟩
    have hafter : after.takeWhile isWordChar = [] := by
      cases after with
      | nil => rfl
      | cons c after => exact List.takeWhile_cons_of_neg (Bool.eq_false_iff.mp hbegins)
    have hall := wordChar_of_reads (isWord_of_ofKeyword? hkeyword) rfl
    rw [List.append_assoc, List.drop_left, List.takeWhile_append_of_pos hall, hafter,
      List.append_nil, hkeyword]
  exact Option.some_inj.mp ((hword h).symm.trans (hword h'))

theorem Decides.unique (h : Decides cs o) (h' : Decides cs o') : o = o' := by
  cases o with
  | none =>
      cases o' with
      | none => rfl
      | some op' =>
          obtain ⟨i, hi, -⟩ := h'
          exact absurd hi (h i op')
  | some op =>
      obtain ⟨i, hi, hbefore⟩ := h
      cases o' with
      | none => exact absurd hi (h' i op)
      | some op' =>
          obtain ⟨j, hj, hbefore'⟩ := h'
          obtain hlt | rfl | hlt := Nat.lt_trichotomy i j
          · exact absurd hi (hbefore' i hlt op)
          · rw [hi.unique hj]
          · exact absurd hj (hbefore j hlt op')

/-- What two texts decide is decided by the first one that decides anything. -/
theorem decides_append_cons (hc : isWordChar c = false) (ha : Decides a o) (hb : Decides b o') :
    Decides (a ++ c :: b) (o.or o') := by
  cases o with
  | some op =>
      obtain ⟨i, hi, hbefore⟩ := ha
      refine ⟨i, hi.append_cons hc b, fun j hj op' hstarts => ?_⟩
      have hlt := hi.lt_length
      rcases hstarts.of_append_cons hc with hfirst | ⟨k, rfl, -⟩
      · exact hbefore j hj op' hfirst
      · omega
  | none =>
      cases o' with
      | some op =>
          obtain ⟨i, hi, hbefore⟩ := hb
          refine ⟨a.length + 1 + i, hi.behind hc a, fun j hj op' hstarts => ?_⟩
          rcases hstarts.of_append_cons hc with hfirst | ⟨k, rfl, hsecond⟩
          · exact ha j op' hfirst
          · exact hbefore k (by omega) op' hsecond
      | none =>
          intro i op hstarts
          rcases hstarts.of_append_cons hc with hfirst | ⟨k, -, hsecond⟩
          · exact ha i op hfirst
          · exact hb k op hsecond

/-! ### The words, one after the other -/

/-- The operation of the first of the words that starts one. -/
def firstKeyword? (cs : List Char) : Option Operation :=
  (words cs).findSome? fun word => Operation.ofKeyword? (asciiLower word)

theorem firstKeyword?_append_cons (hc : isWordChar c = false) :
    firstKeyword? (a ++ c :: b) = (firstKeyword? a).or (firstKeyword? b) := by
  rw [firstKeyword?, words, List.splitOnP_append_cons a b (by rw [hc]; rfl),
    List.findSome?_append]
  rfl

theorem firstKeyword?_word (h : ∀ c ∈ cs, isWordChar c = true) :
    firstKeyword? cs = Operation.ofKeyword? (asciiLower cs) := by
  rw [firstKeyword?, words, List.splitOnP_eq_singleton fun c hc => by simp [h c hc]]
  simp only [List.findSome?_cons, List.findSome?_nil]
  cases Operation.ofKeyword? (asciiLower cs) <;> rfl

/-- A text that is one word starts an operation as a whole or not at all. -/
theorem decides_word (h : ∀ c ∈ cs, isWordChar c = true) :
    Decides cs (Operation.ofKeyword? (asciiLower cs)) := by
  cases hkeyword : Operation.ofKeyword? (asciiLower cs) with
  | some op =>
      exact ⟨0, ⟨[], cs, [], by simp, rfl, rfl, rfl, hkeyword⟩, fun j hj => absurd hj (by omega)⟩
  | none =>
      rintro i op ⟨before, word, after, rfl, rfl, hends, hbegins, hword⟩
      have hbefore : before = [] := by
        by_contra hne
        rw [endsInWord, List.getLast?_eq_some_getLast hne] at hends
        exact absurd hends (by simp [h _ (List.mem_append_left _ (List.mem_append_left _
          (List.getLast_mem hne)))])
      have hafter : after = [] := by
        by_contra hne
        rw [beginsInWord, List.head?_eq_some_head hne] at hbegins
        exact absurd hbegins (by simp [h _ (List.mem_append_right _ (List.head_mem hne))])
      rw [hbefore, hafter, List.nil_append, List.append_nil, hword] at hkeyword
      cases hkeyword

theorem decides_firstKeyword? (cs : List Char) : Decides cs (firstKeyword? cs) := by
  induction hn : cs.length using Nat.strong_induction_on generalizing cs with
  | _ n ih =>
      by_cases hall : ∀ c ∈ cs, isWordChar c = true
      · rw [firstKeyword?_word hall]
        exact decides_word hall
      · simp only [not_forall, Bool.not_eq_true] at hall
        obtain ⟨c, hmem, hc⟩ := hall
        obtain ⟨a, b, rfl⟩ := List.append_of_mem hmem
        rw [List.length_append, List.length_cons] at hn
        rw [firstKeyword?_append_cons hc]
        exact decides_append_cons hc (ih a.length (by omega) a rfl) (ih b.length (by omega) b rfl)

theorem decides_iff : Decides cs o ↔ o = firstKeyword? cs := by
  refine ⟨fun h => h.unique (decides_firstKeyword? cs), ?_⟩
  rintro rfl
  exact decides_firstKeyword? cs

/-! ### Comments are left out -/

/-- What is left of a piece where only code counts: a run is a blank. -/
def Piece.outer : Piece → Char
  | .code c => c
  | .run _ _ => ' '

/-- The text of the pieces, with every run replaced by one blank. -/
def outside (ps : List Piece) : List Char :=
  ps.map Piece.outer

theorem withoutComments_line (h : '\n' ∉ body) :
    withoutComments .line (body ++ rest) = withoutComments .line rest := by
  induction body with
  | nil => rfl
  | cons c body ih =>
      simp only [List.mem_cons, not_or] at h
      rw [List.cons_append, withoutComments, if_neg (Ne.symm h.1), ih h.2]

theorem withoutComments_block (star : Bool)
    (h : ¬['*', '/'] <:+: (if star then '*' :: body else body)) :
    ∃ star', ∀ rest,
      withoutComments (.block star) (body ++ rest) = withoutComments (.block star') rest := by
  have hstep : ∀ star c rest, ¬(star = true ∧ c = '/') →
      withoutComments (.block star) (c :: rest) = withoutComments (.block (c == '*')) rest := by
    intro star c rest hopen
    rw [withoutComments, if_neg hopen]
  obtain ⟨star', hrest⟩ := exists_through_body (fun _ left => left) hstep star h
  exact ⟨star', fun rest => (hrest rest).trans (List.foldr_fixed ..)⟩

theorem withoutComments_of_line (h : line.Spans text rest) :
    withoutComments .code (text ++ rest) = ' ' :: withoutComments .code rest := by
  cases h with
  | @closed body rest first =>
      have hbody := (List.singleton_infix_iff ..).not.mp (not_infix_of_first first)
      show ' ' :: withoutComments .line (body ++ ['\n'] ++ rest) = _
      rw [List.append_assoc, withoutComments_line hbody]
      rfl
  | @unclosed body never =>
      show ' ' :: withoutComments .line (body ++ []) = _
      rw [withoutComments_line ((List.singleton_infix_iff ..).not.mp never)]
      rfl

theorem withoutComments_of_block (h : block.Spans text rest) :
    withoutComments .code (text ++ rest) = ' ' :: withoutComments .code rest := by
  cases h with
  | @closed body rest first =>
      obtain ⟨star, hthrough⟩ := withoutComments_block false (not_infix_of_first first)
      show ' ' :: withoutComments (.block false) (body ++ ['*', '/'] ++ rest) = _
      rw [List.append_assoc, hthrough]
      cases star <;> rfl
  | @unclosed body never =>
      obtain ⟨star, hthrough⟩ := withoutComments_block false never
      show ' ' :: withoutComments (.block false) (body ++ []) = _
      rw [hthrough]
      rfl

/-- Comments as SQL has them are what is left out, and a blank stands for each. -/
theorem withoutComments_reads (h : Reads commentDelimiters cs ps) :
    withoutComments .code cs = outside ps := by
  induction h with
  | nil => rfl
  | @code c rest ps unopened more ih =>
      rw [withoutComments, ih]
      · rfl
      · rintro tail rfl rfl
        exact unopened line (by simp [commentDelimiters]) ⟨tail, rfl⟩
      · rintro tail rfl rfl
        exact unopened block (by simp [commentDelimiters]) ⟨tail, rfl⟩
  | @run d text rest ps known opens spans more ih =>
      have hblank : withoutComments .code (text ++ rest) = ' ' :: withoutComments .code rest := by
        simp only [commentDelimiters, List.mem_cons, List.not_mem_nil, or_false] at known
        rcases known with rfl | rfl
        · exact withoutComments_of_line spans
        · exact withoutComments_of_block spans
      rw [hblank, ih]
      rfl

/-- Left without its comments, a text has the operation of its first keyword. -/
theorem classify_eq (sql : String) (h : Reads commentDelimiters sql.toList ps) :
    classify sql = (firstKeyword? (outside ps)).getD .none := by
  rw [← withoutComments_reads h]
  rfl

/-! ### Quoted runs taken for code -/

/-- A reader that knows no quotes passes the text as it passes code. -/
def NoMarker (text : List Char) : Prop :=
  ∀ d ∈ commentDelimiters, ¬d.marker <:+: text

/-- The pieces for a reader that knows no quotes. -/
def unquoted (ps : List Piece) : List Piece :=
  ps.flatMap fun
    | .run .quoted text => text.map .code
    | p => [p]

theorem quoted_or_comment (h : d ∈ standardDelimiters) :
    (∃ q, (q = '\'' ∨ q = '"') ∧ d = quote q) ∨ d ∈ commentDelimiters := by
  rcases List.mem_cons.mp h with rfl | h
  · exact .inl ⟨'\'', .inl rfl, rfl⟩
  · rcases List.mem_cons.mp h with rfl | h
    · exact .inl ⟨'"', .inr rfl, rfl⟩
    · exact .inr h

theorem kind_of_comment (h : d ∈ commentDelimiters) : d.kind = .comment := by
  simp only [commentDelimiters, List.mem_cons, List.not_mem_nil, or_false] at h
  rcases h with rfl | rfl <;> rfl

/-- A text in which no run begins is code, whatever follows it. -/
theorem Reads.codes (text : List Char) (h : ∀ x ∈ text.tails, x ≠ [] → Unopened ds (x ++ rest))
    (more : Reads ds rest ps) : Reads ds (text ++ rest) (text.map .code ++ ps) := by
  induction text with
  | nil => exact more
  | cons c text ih =>
      rw [List.tails, List.forall_mem_cons] at h
      exact .code (h.1 (List.cons_ne_nil c text)) (ih h.2)

/-- Within a quoted run that holds no marker, no comment begins, whatever follows the run. -/
theorem unopened_of_quoted {x : List Char} {q : Char} (hq : q = '\'' ∨ q = '"')
    (h : (quote q).Spans text rest) (hmarker : NoMarker text) (hne : x ≠ []) (hx : x <:+ text) :
    Unopened commentDelimiters (x ++ rest) := by
  intro d hd hp
  have hnot : ¬d.marker <+: x := fun hpre => hmarker d hd (hpre.isInfix.trans hx.isInfix)
  cases h with
  | @unclosed body never => exact hnot (by rwa [List.append_nil] at hp)
  | @closed body rest first =>
      -- The marker would reach over the closing quote.
      rcases List.prefix_or_prefix_of_prefix hp (List.prefix_append x rest) with hpre | hpre
      · exact hnot hpre
      · have hlast : x <:+ ([q] ++ body) ++ [q] := hx
        obtain ⟨y, rfl, -⟩ := (List.suffix_concat_iff.mp hlast).resolve_left hne
        have hmem : q ∈ d.marker := hpre.subset (List.mem_append_right _ List.mem_cons_self)
        simp only [commentDelimiters, List.mem_cons, List.not_mem_nil, or_false] at hd
        rcases hq with rfl | rfl <;> rcases hd with rfl | rfl <;> exact absurd hmem (by decide)

/-- Where no quoted run holds a marker, the comments are the same without quotes. -/
theorem reads_unquoted (h : Reads standardDelimiters cs ps)
    (hmarker : ∀ text, .run .quoted text ∈ ps → NoMarker text) :
    Reads commentDelimiters cs (unquoted ps) := by
  induction h with
  | nil => exact .nil
  | @code c rest ps unopened more ih =>
      refine .code (fun d hd => unopened d ?_) (ih fun text hmem =>
        hmarker text (List.mem_cons_of_mem _ hmem))
      exact List.mem_cons_of_mem _ (List.mem_cons_of_mem _ hd)
  | @run d text rest ps known opens spans more ih =>
      have ih := ih fun text hmem => hmarker text (List.mem_cons_of_mem _ hmem)
      rcases quoted_or_comment known with ⟨q, hq, rfl⟩ | hcomment
      · exact .codes text (fun x hx hne => unopened_of_quoted hq spans
          (hmarker text List.mem_cons_self) hne ((List.mem_tails x text).mp hx)) ih
      · have hrun := Reads.run hcomment opens spans ih
        rw [kind_of_comment hcomment] at hrun ⊢
        exact hrun

theorem outside_append (ps ps' : List Piece) : outside (ps ++ ps') = outside ps ++ outside ps' :=
  List.map_append

theorem outside_codes (text : List Char) : outside (text.map .code) = text := by
  rw [outside, List.map_map]
  exact List.map_id text

/-- Between two texts, a quoted run without a keyword decides nothing. -/
theorem firstKeyword?_quoted {q : Char} (hq : q = '\'' ∨ q = '"') (h : (quote q).Spans text rest)
    (hnone : Decides text none) (hlast : rest = [] → b = []) :
    firstKeyword? (a ++ (text ++ b)) = (firstKeyword? a).or (firstKeyword? b) := by
  have hc : isWordChar q = false := by rcases hq with rfl | rfl <;> decide
  have hempty : firstKeyword? [] = none := rfl
  have htext := (decides_iff.mp hnone).symm
  cases h with
  | @closed body rest first =>
      have hbody : firstKeyword? body = none := by
        have hsplit : (quote q).opener ++ body ++ (quote q).closer = [] ++ q :: (body ++ [q]) := by
          simp [quote]
        rw [hsplit, firstKeyword?_append_cons hc, firstKeyword?_append_cons hc, hempty] at htext
        simpa using htext
      have hsplit : a ++ ((quote q).opener ++ body ++ (quote q).closer ++ b) =
          a ++ q :: (body ++ q :: b) := by
        simp [quote]
      rw [hsplit, firstKeyword?_append_cons hc, firstKeyword?_append_cons hc, hbody, Option.none_or]
  | @unclosed body never =>
      have hbody : firstKeyword? body = none := by
        have hsplit : (quote q).opener ++ body = [] ++ q :: body := rfl
        rwa [hsplit, firstKeyword?_append_cons hc, hempty, Option.none_or] at htext
      have hsplit : a ++ ((quote q).opener ++ body ++ []) = a ++ q :: body := by simp [quote]
      rw [hlast rfl, hsplit, firstKeyword?_append_cons hc, hbody, hempty]

/-- Quoted runs without a keyword may be taken for code where the first keyword is looked for. -/
theorem firstKeyword?_unquoted (h : Reads standardDelimiters cs ps)
    (hnone : ∀ text, .run .quoted text ∈ ps → Decides text none) (a : List Char) :
    firstKeyword? (a ++ outside (unquoted ps)) = firstKeyword? (a ++ outside ps) := by
  have hblank : isWordChar ' ' = false := by decide
  induction h generalizing a with
  | nil => rfl
  | @code c rest ps unopened more ih =>
      have ih := ih (fun text hmem => hnone text (List.mem_cons_of_mem _ hmem)) (a ++ [c])
      rwa [List.append_assoc, List.append_assoc] at ih
  | @run d text rest ps known opens spans more ih =>
      have ih := ih (fun text hmem => hnone text (List.mem_cons_of_mem _ hmem)) []
      rw [List.nil_append, List.nil_append] at ih
      have hout : outside (.run d.kind text :: ps) = ' ' :: outside ps := rfl
      rw [hout, firstKeyword?_append_cons hblank]
      rcases quoted_or_comment known with ⟨q, hq, rfl⟩ | hcomment
      · have hcodes : outside (unquoted (.run (quote q).kind text :: ps)) =
            text ++ outside (unquoted ps) := by
          show outside (text.map .code ++ unquoted ps) = _
          rw [outside_append, outside_codes]
        rw [hcodes, firstKeyword?_quoted hq spans (hnone text List.mem_cons_self), ih]
        intro hrest
        rw [more.eq_nil_iff.mp hrest]
        rfl
      · have hblanked : outside (unquoted (.run .comment text :: ps)) =
            ' ' :: outside (unquoted ps) := rfl
        rw [kind_of_comment hcomment, hblanked, firstKeyword?_append_cons hblank, ih]

/-! ### What a raw statement does -/

/-- The statement does what the code of its pieces decides. -/
def SettledBy (sql : String) (ps : List Piece) : Prop :=
  (∃ o, Decides (outside ps) o) ∧ ∀ o, Decides (outside ps) o → classify sql = o.getD .none

/-- Neither a comment nor an operation begins in the run. -/
def Harmless (run : List Char) : Prop :=
  NoMarker run ∧ Decides run none

/--
**The first keyword outside comments decides, quoted or not.**  Comments are read as if there
were no quotes, so both a comment and a keyword can begin inside of a quoted run.  Where no
quoted run holds such a thing, the quoted runs may be left out like the comments.
-/
theorem classify_decides (sql : String) :
    (∃ ps, Reads commentDelimiters sql.toList ps) ∧
    (∀ ps, Reads commentDelimiters sql.toList ps → SettledBy sql ps) ∧
    (∃ ps, Reads standardDelimiters sql.toList ps) ∧
    ∀ ps, Reads standardDelimiters sql.toList ps →
      (∀ run, .run .quoted run ∈ ps → Harmless run) → SettledBy sql ps := by
  refine ⟨exists_reads _ _, fun ps hps => ⟨⟨_, decides_firstKeyword? _⟩, fun o ho => ?_⟩,
    exists_reads _ _, fun ps hps hruns => ⟨⟨_, decides_firstKeyword? _⟩, fun o ho => ?_⟩⟩
  · rw [decides_iff.mp ho, classify_eq sql hps]
  · have hunquoted := reads_unquoted hps fun run hmem => (hruns run hmem).1
    have hkeyword := firstKeyword?_unquoted hps (fun run hmem => (hruns run hmem).2) []
    rw [List.nil_append, List.nil_append] at hkeyword
    rw [decides_iff.mp ho, classify_eq sql hunquoted, hkeyword]

/-- What is quoted can hide the first keyword, and it can be the first keyword. -/
theorem quoted_run_decides :
    let hidden := "(values ('--')) union select 1"
    let quoted := "values ('insert')"
    (¬∀ ps, Reads standardDelimiters hidden.toList ps → SettledBy hidden ps) ∧
      ¬∀ ps, Reads standardDelimiters quoted.toList ps → SettledBy quoted ps := by
  intro hidden quoted
  refine ⟨fun h => ?_, fun h => ?_⟩
  · have hrun : (quote '\'').Spans "'--'".toList ")) union select 1".toList :=
      @Spans.closed (quote '\'') "--".toList _ (by decide)
    have hbehind : Reads standardDelimiters ")) union select 1".toList _ :=
      .codes ")) union select 1".toList (by decide) .nil
    have hreads := Reads.codes "(values (".toList (by decide)
      (.run (d := quote '\'') List.mem_cons_self (by decide) hrun hbehind)
    have hsql : hidden.toList =
        "(values (".toList ++ ("'--'".toList ++ ")) union select 1".toList) := by decide
    have hselect := (h _ (hsql ▸ hreads)).2 (some .select) (decides_iff.mpr (by decide))
    exact absurd hselect (by decide)
  · have hrun : (quote '\'').Spans "'insert'".toList ")".toList :=
      @Spans.closed (quote '\'') "insert".toList _ (by decide)
    have hbehind : Reads standardDelimiters ")".toList _ := .codes ")".toList (by decide) .nil
    have hreads := Reads.codes "values (".toList (by decide)
      (.run (d := quote '\'') List.mem_cons_self (by decide) hrun hbehind)
    have hsql : quoted.toList = "values (".toList ++ ("'insert'".toList ++ ")".toList) := by decide
    have hnone := (h _ (hsql ▸ hreads)).2 none (decides_iff.mpr (by decide))
    exact absurd hnone (by decide)

end SqlSession.Sql
