/-
Quoted runs and comments.

A text is read from left to right.  Where the marker of a delimiter stands, a run begins that
goes on to the first closing text behind it, or to the end of the text where there is none;
any other character is code.  `Reads` says this of a text and its pieces, and nothing about how
a reader keeps track.  So the readers of statements can be compared with it and with one
another: they differ in nothing but the delimiters that they know.

One delimiter is in dispute.  The star that opens a block comment is either passed with the
marker, or it is looked at again and may close the comment that it has opened.
`reads_standard_iff` says in which texts that makes a difference.
-/
import Mathlib.Data.List.Infix

namespace SqlSession.Sql

/-! ### Delimiters -/

/-- What a run of text is, if it is not code. -/
inductive RunKind where
  | quoted
  | comment
  deriving DecidableEq, Repr

/-- How the runs of one kind are told from the text around them. -/
structure Delimiter where
  kind : RunKind
  /-- What is passed before the end of the run is looked for. -/
  opener : List Char
  /-- What has to follow the opener.  It belongs to the run, and may belong to its end. -/
  ahead : List Char := []
  /-- The run ends behind the first of these. -/
  closer : List Char
  opener_ne_nil : opener ≠ [] := by simp
  closer_ne_nil : closer ≠ [] := by simp

namespace Delimiter

/-- The text that a run begins with. -/
def marker (d : Delimiter) : List Char :=
  d.opener ++ d.ahead

/-- The run that begins in front of some further text. -/
inductive Spans (d : Delimiter) : (run rest : List Char) → Prop
  /-- The closing text stands nowhere before the end of the run. -/
  | closed {body rest : List Char} (first : ¬d.closer <:+: body ++ d.closer.dropLast) :
    Spans d (d.opener ++ body ++ d.closer) rest
  /-- Without a closing text nothing is left behind the run. -/
  | unclosed {body : List Char} (never : ¬d.closer <:+: body) : Spans d (d.opener ++ body) []

/-- A run between two quotes of one kind. -/
def quote (q : Char) : Delimiter where
  kind := .quoted
  opener := [q]
  closer := [q]

/-- A comment up to the end of the line. -/
def line : Delimiter where
  kind := .comment
  opener := ['-', '-']
  closer := ['\n']

/-- A comment whose end is looked for behind its marker. -/
def block : Delimiter where
  kind := .comment
  opener := ['/', '*']
  closer := ['*', '/']

/-- A comment whose opening star may close it. -/
def starBlock : Delimiter where
  kind := .comment
  opener := ['/']
  ahead := ['*']
  closer := ['*', '/']

end Delimiter

open Delimiter

/-- Quotes and comments as SQL has them. -/
def standardDelimiters : List Delimiter :=
  [quote '\'', quote '"', line, block]

/-- Quotes and comments, where the opening star of a block comment may close it. -/
def starDelimiters : List Delimiter :=
  [quote '\'', quote '"', line, starBlock]

/-- Comments as SQL has them, and no quotes. -/
def commentDelimiters : List Delimiter :=
  [line, block]

/-! ### Pieces of a text -/

/-- A piece of a text: one character of code, or a run. -/
inductive Piece where
  | code (c : Char)
  | run (kind : RunKind) (text : List Char)
  deriving DecidableEq, Repr

variable {ds : List Delimiter} {d : Delimiter} {cs text rest body : List Char} {ps : List Piece}

/-- No run begins at the front of the text. -/
def Unopened (ds : List Delimiter) (cs : List Char) : Prop :=
  ∀ d ∈ ds, ¬d.marker <+: cs

instance (ds : List Delimiter) (cs : List Char) : Decidable (Unopened ds cs) :=
  inferInstanceAs (Decidable (∀ d ∈ ds, ¬d.marker <+: cs))

/-- The text, read from left to right, has these pieces. -/
inductive Reads (ds : List Delimiter) : List Char → List Piece → Prop
  | nil : Reads ds [] []
  | code {c : Char} {rest : List Char} {ps : List Piece} (unopened : Unopened ds (c :: rest))
    (more : Reads ds rest ps) : Reads ds (c :: rest) (.code c :: ps)
  | run {d : Delimiter} {text rest : List Char} {ps : List Piece} (known : d ∈ ds)
    (opens : d.marker <+: text ++ rest) (spans : d.Spans text rest) (more : Reads ds rest ps) :
    Reads ds (text ++ rest) (.run d.kind text :: ps)

theorem Delimiter.Spans.ne_nil (h : d.Spans text rest) : text ≠ [] := by
  cases h with
  | closed first => simp [d.opener_ne_nil]
  | unclosed never => simp [d.opener_ne_nil]

theorem Reads.eq_nil_iff (h : Reads ds cs ps) : cs = [] ↔ ps = [] := by
  cases h with
  | nil => simp
  | code unopened more => simp
  | run known opens spans more => simp [spans.ne_nil]

/-- A text that holds another holds it for a first time. -/
theorem exists_first {closer : List Char} (hne : closer ≠ []) (h : closer <:+: cs) :
    ∃ body rest, cs = body ++ closer ++ rest ∧ ¬closer <:+: body ++ closer.dropLast := by
  have hshort : ¬closer <:+: closer.dropLast := fun hin => by
    have hpos := List.length_pos_iff.mpr hne
    have hle := hin.length_le
    rw [List.length_dropLast] at hle
    omega
  induction cs with
  | nil => exact absurd (List.eq_nil_of_infix_nil h) hne
  | cons c cs ih =>
      by_cases hp : closer <+: c :: cs
      · obtain ⟨rest, hrest⟩ := hp
        exact ⟨[], rest, hrest.symm, hshort⟩
      · obtain ⟨body, rest, rfl, hfirst⟩ := ih ((List.infix_cons_iff.mp h).resolve_left hp)
        refine ⟨c :: body, rest, rfl, fun hin => ?_⟩
        rcases List.infix_cons_iff.mp hin with hhead | htail
        · -- The closing text would stand at the front already.
          refine hp (hhead.trans (List.cons_prefix_cons.mpr ⟨rfl, ?_⟩))
          rw [List.append_assoc]
          exact (List.prefix_append_right_inj body).mpr
            ((List.dropLast_prefix closer).trans (List.prefix_append ..))
        · exact hfirst htail

theorem not_infix_of_first {closer : List Char} (h : ¬closer <:+: body ++ closer.dropLast) :
    ¬closer <:+: body :=
  fun hin => h (hin.trans (List.prefix_append ..).isInfix)

theorem Delimiter.exists_spans (h : d.marker <+: cs) :
    ∃ text rest, cs = text ++ rest ∧ d.Spans text rest := by
  obtain ⟨tail, rfl⟩ := h
  rw [marker, List.append_assoc]
  by_cases hin : d.closer <:+: d.ahead ++ tail
  · obtain ⟨body, rest, heq, hfirst⟩ := exists_first d.closer_ne_nil hin
    exact ⟨_, rest, by simp only [heq, List.append_assoc], .closed hfirst⟩
  · exact ⟨_, [], (List.append_nil _).symm, .unclosed hin⟩

/-- Every text has a reading. -/
theorem exists_reads (ds : List Delimiter) (cs : List Char) : ∃ ps, Reads ds cs ps := by
  induction hn : cs.length using Nat.strong_induction_on generalizing cs with
  | _ n ih =>
      by_cases hopen : Unopened ds cs
      · cases cs with
        | nil => exact ⟨[], .nil⟩
        | cons c rest =>
            obtain ⟨ps, hps⟩ := ih rest.length (hn ▸ Nat.lt_succ_self _) rest rfl
            exact ⟨_, .code hopen hps⟩
      · simp only [Unopened, not_forall, not_not] at hopen
        obtain ⟨d, hd, hmarker⟩ := hopen
        obtain ⟨text, rest, rfl, hspans⟩ := exists_spans hmarker
        have hlength := List.length_pos_iff.mpr hspans.ne_nil
        rw [List.length_append] at hn
        obtain ⟨ps, hps⟩ := ih rest.length (by omega) rest rfl
        exact ⟨_, .run hd hmarker hspans hps⟩

/-! ### The stars of a block comment -/

/-- A reader that keeps a star in mind gets through the body of a block comment: what it does
with one character is all that it does. -/
theorem exists_through_body {β : Type*} {read : Bool → List Char → β} (step : Char → β → β)
    (hstep : ∀ star c rest, ¬(star = true ∧ c = '/') →
      read star (c :: rest) = step c (read (c == '*') rest))
    (star : Bool) (h : ¬['*', '/'] <:+: (if star then '*' :: body else body)) :
    ∃ star', ∀ rest, read star (body ++ rest) = body.foldr step (read star' rest) := by
  induction body generalizing star with
  | nil => exact ⟨star, fun rest => rfl⟩
  | cons c body ih =>
      have hopen : ¬(star = true ∧ c = '/') := by
        rintro ⟨rfl, rfl⟩
        exact h ⟨[], body, rfl⟩
      have hbody : ¬['*', '/'] <:+: (if (c == '*') = true then '*' :: body else body) := by
        intro hin
        have hcons : ['*', '/'] <:+: c :: body := by
          by_cases hc : c = '*'
          · simpa [hc] using hin
          · exact List.infix_cons (by simpa [hc] using hin)
        cases star with
        | false => exact h hcons
        | true => exact h (List.infix_cons hcons)
      obtain ⟨star', hrest⟩ := ih _ hbody
      refine ⟨star', fun rest => ?_⟩
      rw [List.cons_append, hstep _ _ _ hopen, hrest]
      rfl

/-- In front of further text stands a block comment that is closed by the star of its own
marker. -/
def SelfClosed (ps : List Piece) : Prop :=
  ∃ before after, ps = before ++ .run .comment ['/', '*', '/'] :: after ∧ after ≠ []

theorem SelfClosed.cons {p : Piece} (h : SelfClosed ps) : SelfClosed (p :: ps) := by
  obtain ⟨before, after, rfl, hafter⟩ := h
  exact ⟨p :: before, after, rfl, hafter⟩

theorem unopened_standard_iff :
    Unopened standardDelimiters cs ↔ Unopened starDelimiters cs := by
  simp only [Unopened, standardDelimiters, starDelimiters, List.forall_mem_cons]
  rfl

/-- A comment is the same for both, unless the star would have to be used twice. -/
theorem spans_block_of_starBlock (hopens : starBlock.marker <+: text ++ rest)
    (h : starBlock.Spans text rest) (hself : text = ['/', '*', '/'] → rest = []) :
    block.Spans text rest := by
  cases h with
  | @closed body rest first =>
      cases body with
      | nil =>
          obtain rfl := hself rfl
          exact @Spans.unclosed block ['/'] (by decide)
      | cons c body =>
          obtain rfl : '*' = c := by simpa [marker, starBlock] using hopens
          exact Spans.closed (d := block) fun hin => first (List.infix_cons hin)
  | @unclosed body never =>
      obtain ⟨body, rfl⟩ : ∃ tail, '*' :: tail = body := by
        simpa [marker, starBlock, List.IsPrefix] using hopens
      exact Spans.unclosed (d := block) fun hin => never (List.infix_cons hin)

/-- As SQL has it, a comment that looks closed by its own star is not closed at all. -/
theorem not_selfClosed_of_standard (h : Reads standardDelimiters cs ps) : ¬SelfClosed ps := by
  rintro ⟨before, after, hps, hafter⟩
  induction h generalizing before with
  | nil => exact List.append_ne_nil_of_right_ne_nil _ (List.cons_ne_nil _ _) hps.symm
  | @code c rest ps unopened more ih =>
      cases before with
      | nil => cases hps
      | cons p before => exact ih before (List.cons.inj hps).2
  | @run d text rest ps known opens spans more ih =>
      cases before with
      | cons p before => exact ih before (List.cons.inj hps).2
      | nil =>
          obtain ⟨hrun, rfl⟩ := List.cons.inj hps
          obtain ⟨hkind, htext⟩ := Piece.run.inj hrun
          suffices hrest : rest = [] by
            exact hafter (more.eq_nil_iff.mp hrest)
          simp only [standardDelimiters, List.mem_cons, List.not_mem_nil, or_false] at known
          rcases known with rfl | rfl | rfl | rfl
          · cases hkind
          · cases hkind
          · cases spans <;> cases htext
          · cases spans with
            | closed first => simpa [block] using congrArg List.length htext
            | unclosed never => rfl

/-- The two ways to close a block comment read a text alike exactly if no comment that its own
star has closed stands in front of further text. -/
theorem reads_standard_iff (h : Reads starDelimiters cs ps) :
    Reads standardDelimiters cs ps ↔ ¬SelfClosed ps := by
  refine ⟨not_selfClosed_of_standard, fun hself => ?_⟩
  induction h with
  | nil => exact .nil
  | code unopened more ih =>
      exact .code (unopened_standard_iff.mpr unopened) (ih fun hmore => hself hmore.cons)
  | @run d text rest ps known opens spans more ih =>
      have hmore := ih fun hmore => hself hmore.cons
      simp only [starDelimiters, List.mem_cons, List.not_mem_nil, or_false] at known
      rcases known with rfl | rfl | rfl | rfl
      · exact .run (d := quote '\'') (by simp [standardDelimiters]) opens spans hmore
      · exact .run (d := quote '"') (by simp [standardDelimiters]) opens spans hmore
      · exact .run (d := line) (by simp [standardDelimiters]) opens spans hmore
      · refine .run (d := block) (by simp [standardDelimiters]) opens
          (spans_block_of_starBlock opens spans fun htext => ?_) hmore
        by_contra hrest
        refine hself ⟨[], ps, by rw [htext]; rfl, ?_⟩
        exact fun hps => hrest (more.eq_nil_iff.mpr hps)

end SqlSession.Sql
