/-
Placeholders are the question marks in code.

The numbering goes through a text character by character and keeps a region in mind.  What it
comes to is a matter of the pieces of the text alone: question marks that are code are numbered
in order, and everything else is copied.  A run is copied as a whole, however the numbering gets
through it, so one fact for each delimiter carries the induction over the pieces.

The pieces are those of a reader to whom the opening star of a block comment may close it.
`placeholders_numbered` says on which texts that reader differs from SQL, and
`star_ends_comment_early` that a question mark in a comment can be numbered for it.
-/
import SqlSession.Proofs.Sql.Pieces
import SqlSession.Sql.Placeholder

namespace SqlSession.Sql

open Delimiter

variable {ds : List Delimiter} {d : Delimiter} {cs body rest : List Char} {ps : List Piece}
  {q : Char} {k : Nat}

/-- The text of the pieces, where each question mark of the code has become a numbered
placeholder; `k` of them have been passed. -/
def numbered : (k : Nat) → List Piece → List Char
  | _, [] => []
  | k, .code c :: ps =>
    if c = '?' then '$' :: (Text.natDigits (k + 1) ++ numbered (k + 1) ps) else c :: numbered k ps
  | k, .run _ text :: ps => text ++ numbered k ps

/-! ### Through a run -/

theorem numberFrom_of_ne_code {r : Region} {c : Char} (hr : r ≠ .code) :
    numberFrom r k (c :: rest) = c :: numberFrom (r.after c rest.head?) k rest := by
  simp only [numberFrom, hr, false_and, if_false]

/-- A region that only one character ends goes on as long as this does not come. -/
theorem numberFrom_until {r : Region} {last : Char} (hr : r ≠ .code)
    (hstay : ∀ c next, c ≠ last → r.after c next = r) (h : last ∉ body) :
    numberFrom r k (body ++ rest) = body ++ numberFrom r k rest := by
  induction body with
  | nil => rfl
  | cons c body ih =>
      simp only [List.mem_cons, not_or] at h
      rw [List.cons_append, numberFrom_of_ne_code hr, hstay _ _ (Ne.symm h.1), ih h.2]
      rfl

/-- A block comment goes on as long as it is not closed; before and after some of its body, the
numbering may be behind a star. -/
theorem numberFrom_block (star : Bool)
    (h : ¬['*', '/'] <:+: (if star then '*' :: body else body)) :
    ∃ star', ∀ rest, numberFrom (.block star) k (body ++ rest) =
      body ++ numberFrom (.block star') k rest := by
  have hstep : ∀ star c rest, ¬(star = true ∧ c = '/') →
      numberFrom (.block star) k (c :: rest) = c :: numberFrom (.block (c == '*')) k rest := by
    intro star c rest hopen
    have hstay : Region.after (.block star) c rest.head? = .block (c == '*') := if_neg hopen
    rw [numberFrom_of_ne_code (by simp), hstay]
  obtain ⟨star', hrest⟩ := exists_through_body List.cons hstep star h
  exact ⟨star', fun rest => (hrest rest).trans List.foldr_cons_eq_append'⟩

/-- The numbering copies every run of the delimiter. -/
def Copies (d : Delimiter) : Prop :=
  ∀ k text rest, d.marker <+: text ++ rest → d.Spans text rest →
    numberFrom .code k (text ++ rest) = text ++ numberFrom .code k rest

/-- A run is copied if its opener, a body without the closing text, and that text are copied, and
the first leads into the body and the last out of it. -/
theorem copies_of {r : Region}
    (hopen : ∀ k tail, d.ahead <+: tail →
      numberFrom .code k (d.opener ++ tail) = d.opener ++ numberFrom r k tail)
    (hbody : ∀ k body, ¬d.closer <:+: body → ∃ r', (∀ rest, numberFrom r k (body ++ rest) =
      body ++ numberFrom r' k rest) ∧
      ∀ rest, numberFrom r' k (d.closer ++ rest) = d.closer ++ numberFrom .code k rest) :
    Copies d := by
  intro k text rest hmarker hspans
  cases hspans with
  | @closed body rest first =>
      obtain ⟨r', hthrough, hclose⟩ := hbody k body (not_infix_of_first first)
      rw [marker, List.append_assoc, List.append_assoc, List.prefix_append_right_inj] at hmarker
      rw [List.append_assoc, List.append_assoc, hopen _ _ hmarker, hthrough, hclose]
      simp only [List.append_assoc]
  | @unclosed body never =>
      obtain ⟨r', hthrough, -⟩ := hbody k body never
      rw [marker, List.append_assoc, List.prefix_append_right_inj] at hmarker
      rw [List.append_assoc, hopen _ _ hmarker, hthrough, List.append_assoc]
      rfl

/-- A delimiter that one character closes has its runs copied. -/
theorem copies_of_last {r : Region} {last : Char} (hcloser : d.closer = [last]) (hr : r ≠ .code)
    (hopen : ∀ k tail, numberFrom .code k (d.opener ++ tail) = d.opener ++ numberFrom r k tail)
    (hstay : ∀ c next, c ≠ last → r.after c next = r) (hlast : ∀ next, r.after last next = .code) :
    Copies d := by
  refine copies_of (fun k tail _ => hopen k tail) fun k body hnever => ?_
  rw [hcloser, List.singleton_infix_iff] at hnever
  refine ⟨r, fun rest => numberFrom_until hr hstay hnever, fun rest => ?_⟩
  rw [hcloser, List.singleton_append, numberFrom_of_ne_code hr, hlast]
  rfl

theorem copies_quote (hq : q = '\'' ∨ q = '"') : Copies (quote q) := by
  refine copies_of_last (r := .quoted q) rfl (by simp) (fun k tail => ?_)
    (fun c next hc => if_neg hc) (fun next => if_pos rfl)
  rcases hq with rfl | rfl <;> rfl

theorem copies_line : Copies line :=
  copies_of_last (r := .line) rfl (by simp) (fun _ _ => rfl) (fun _ _ hc => if_neg hc)
    (fun _ => rfl)

theorem copies_starBlock : Copies starBlock := by
  refine copies_of (r := .block false) (fun k tail htail => ?_) fun k body hnever => ?_
  · obtain ⟨tail, rfl⟩ := htail
    rfl
  · obtain ⟨star, hthrough⟩ := numberFrom_block (k := k) false hnever
    refine ⟨.block star, hthrough, fun rest => ?_⟩
    cases star <;> rfl

/-! ### Through a text -/

theorem copies_of_known (h : d ∈ starDelimiters) : Copies d := by
  simp only [starDelimiters, List.mem_cons, List.not_mem_nil, or_false] at h
  rcases h with rfl | rfl | rfl | rfl
  · exact copies_quote (Or.inl rfl)
  · exact copies_quote (Or.inr rfl)
  · exact copies_line
  · exact copies_starBlock

/-- Where no run begins, the numbering stays in code. -/
theorem after_of_unopened {c : Char} (h : Unopened starDelimiters (c :: rest)) :
    Region.after .code c rest.head? = .code := by
  simp only [Unopened, starDelimiters, List.forall_mem_cons, marker, quote, line, starBlock,
    List.append_nil, List.cons_append, List.nil_append, List.cons_prefix_cons,
    List.nil_prefix, and_true] at h
  obtain ⟨hsingle, hdouble, hline, hblock, -⟩ := h
  have hquote : ¬(c = '\'' ∨ c = '"') := not_or.mpr ⟨Ne.symm hsingle, Ne.symm hdouble⟩
  have hdash : ¬(c = '-' ∧ rest.head? = some '-') := by
    rintro ⟨rfl, hnext⟩
    exact hline ⟨rfl, List.singleton_prefix_iff_head?_eq_some.mpr hnext⟩
  have hstar : ¬(c = '/' ∧ rest.head? = some '*') := by
    rintro ⟨rfl, hnext⟩
    exact hblock ⟨rfl, List.singleton_prefix_iff_head?_eq_some.mpr hnext⟩
  simp only [Region.after, hquote, hdash, hstar, if_false]

theorem numberFrom_reads (h : Reads starDelimiters cs ps) (k : Nat) :
    numberFrom .code k cs = numbered k ps := by
  induction h generalizing k with
  | nil => rfl
  | @code c rest ps unopened more ih =>
      by_cases hc : c = '?'
      · simp only [numberFrom, numbered, hc, and_self, if_true, ih]
      · simp only [numberFrom, numbered, hc, and_false, if_false, after_of_unopened unopened, ih]
  | run known opens spans more ih =>
      rw [copies_of_known known k _ _ opens spans, ih]
      rfl

/--
**Question marks are numbered exactly where they are code.**  A text is read into pieces from
left to right, where the opening star of a block comment may close it.  The numbering makes the
`k`-th question mark of the code `$k` and copies everything else.

The pieces are those that SQL has the text made of, unless a comment `/*/` stands in front of
further text: for SQL that comment is still open.
-/
theorem placeholders_numbered (sql : String) :
    (∃ ps, Reads starDelimiters sql.toList ps) ∧
      ∀ ps, Reads starDelimiters sql.toList ps →
        (numberPlaceholders sql).toList = numbered 0 ps ∧
        (Reads standardDelimiters sql.toList ps ↔ ¬SelfClosed ps) := by
  refine ⟨exists_reads _ _, fun ps hps => ⟨?_, reads_standard_iff hps⟩⟩
  rw [numberPlaceholders, String.toList_ofList, numberFrom_reads hps]

/-- A comment that its own star has closed has a question mark behind it numbered that SQL
still has in the comment. -/
theorem star_ends_comment_early :
    let sql := "/*/ ? */ ?"
    ¬∀ ps, Reads standardDelimiters sql.toList ps →
      (numberPlaceholders sql).toList = numbered 0 ps := by
  intro sql h
  have hcode : Reads standardDelimiters " ?".toList [.code ' ', .code '?'] :=
    .code (by decide) (.code (by decide) .nil)
  have hcomment : block.Spans "/*/ ? */".toList " ?".toList :=
    @Spans.closed block "/ ? ".toList _ (by decide)
  have hsql : sql.toList = "/*/ ? */".toList ++ " ?".toList := by decide
  have hnumbered := h [.run .comment "/*/ ? */".toList, .code ' ', .code '?'] <| by
    rw [hsql]
    exact .run (d := block) (by simp [standardDelimiters]) (by decide) hcomment hcode
  exact absurd hnumbered (by decide)

end SqlSession.Sql
