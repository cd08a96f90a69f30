/-
Comments in front of a predicate.

Whether a predicate needs a `where` is asked of its first word.  What stands before that word,
blanks, opening parentheses and comments, is passed over, so it should make no difference.  For
blanks, parentheses and line comments that is so.  For block comments it is not: the star that
opens one is looked at again for its end, so a comment whose body begins with a slash counts as
`/*/`, and the rest of its body is read as if it stood outside.

What is then passed over decides.  If the rest of the body comes to a further opening marker,
the true end of the comment is found after all; otherwise what is read is the body, and never
the predicate.  `needsWhere_behind_lead` says so for every comment, and
`commented_keyword_leads` shows a comment that is read for the keyword in it.
-/
import SqlSession.Proofs.Sql.Pieces
import SqlSession.Proofs.Sql.RowNumber

namespace SqlSession.Sql

open Text Delimiter

variable {a b body cs lead rest tail : List Char} {c : Char}

/-! ### Through a comment -/

theorem withoutLead_line_cons (c : Char) (rest : List Char) :
    withoutLead .line (c :: rest) = withoutLead (if c = '\n' then .code else .line) rest := by
  rw [withoutLead.eq_def]
  split <;> simp_all

theorem withoutLead_block_cons (star : Bool) (c : Char) (rest : List Char) :
    withoutLead (.block star) (c :: rest) =
      withoutLead (if star ∧ c = '/' then .code else .block (c == '*')) rest := by
  rw [withoutLead.eq_def]
  split <;> simp_all

theorem withoutLead_line (h : '\n' ∉ body) (rest : List Char) :
    withoutLead .line (body ++ rest) = withoutLead .line rest := by
  induction body with
  | nil => rfl
  | cons c body ih =>
      simp only [List.mem_cons, not_or] at h
      rw [List.cons_append, withoutLead_line_cons, if_neg (Ne.symm h.1), ih h.2]

theorem withoutLead_of_line (h : '\n' ∉ body) (rest : List Char) :
    withoutLead .code (line.opener ++ body ++ line.closer ++ rest) = withoutLead .code rest := by
  show withoutLead .line (body ++ ['\n'] ++ rest) = _
  rw [List.append_assoc, withoutLead_line h, List.singleton_append, withoutLead_line_cons,
    if_pos rfl]

/-- The star that opens a block comment is looked at again. -/
theorem withoutLead_marker (rest : List Char) :
    withoutLead .code (block.opener ++ rest) = withoutLead (.block false) ('*' :: rest) := by
  rw [withoutLead_block_cons, if_neg (by simp)]
  rfl

theorem withoutLead_block_open {star : Bool} (h : ¬(star = true ∧ c = '/')) (rest : List Char) :
    withoutLead (.block star) (c :: rest) = withoutLead (.block (c == '*')) rest := by
  rw [withoutLead_block_cons, if_neg h]

/-- The body of a block comment is passed over. -/
theorem withoutLead_body (h : ¬block.closer <:+: body) :
    ∃ star, ∀ rest, withoutLead (.block false) (body ++ rest) = withoutLead (.block star) rest := by
  obtain ⟨star, hthrough⟩ := exists_through_body (fun _ left => left)
    (fun _ _ rest hopen => withoutLead_block_open hopen rest) false h
  exact ⟨star, fun rest => by rw [hthrough, List.foldr_fixed]⟩

theorem withoutLead_block (h : ¬block.closer <:+: body) (rest : List Char) :
    withoutLead (.block false) (body ++ block.closer ++ rest) = withoutLead .code rest := by
  obtain ⟨star, hbody⟩ := withoutLead_body h
  rw [List.append_assoc, hbody]
  show withoutLead (.block star) ('*' :: '/' :: rest) = _
  rw [withoutLead_block_open (by simp), withoutLead_block_cons, if_pos ⟨rfl, rfl⟩]

/-- A slash behind the marker closes the comment. -/
theorem withoutLead_early (rest : List Char) :
    withoutLead .code (block.opener ++ '/' :: rest) = withoutLead .code rest := by
  rw [withoutLead_marker]
  exact @withoutLead_block [] (by decide) rest

/-! ### What is passed over -/

/-- Nothing but blanks, opening parentheses and whole line comments. -/
inductive Passable : List Char → Prop
  | nil : Passable []
  | mark {c : Char} {cs : List Char} (hc : isBlank c = true ∨ c = '(') (more : Passable cs) :
    Passable (c :: cs)
  | line {body cs : List Char} (hbody : '\n' ∉ body) (more : Passable cs) :
    Passable (line.opener ++ body ++ line.closer ++ cs)

theorem withoutLead_passable (h : Passable lead) (rest : List Char) :
    withoutLead .code (lead ++ rest) = withoutLead .code rest := by
  induction h with
  | nil => rfl
  | mark hc more ih => rw [List.cons_append, withoutLead_of_lead hc, ih]
  | line hbody more ih => rw [List.append_assoc, withoutLead_of_line hbody, ih]

/-- Where nothing more is passed over: at the end of the text, at a block comment, at a line
comment without an end, or at the text proper. -/
inductive Halts : List Char → Prop
  | nil : Halts []
  | block {tail : List Char} (opens : block.opener <+: tail) : Halts tail
  | line {body : List Char} (hbody : '\n' ∉ body) : Halts (line.opener ++ body)
  | text {c : Char} {cs : List Char} (hc : ¬(isBlank c = true ∨ c = '('))
    (hline : ¬line.opener <+: c :: cs) (hblock : ¬block.opener <+: c :: cs) : Halts (c :: cs)

/-- Every text has what can be passed over cut off. -/
theorem exists_passable (cs : List Char) :
    ∃ lead tail, cs = lead ++ tail ∧ Passable lead ∧ Halts tail := by
  induction hn : cs.length using Nat.strong_induction_on generalizing cs with
  | _ n ih =>
      cases cs with
      | nil => exact ⟨[], [], rfl, .nil, .nil⟩
      | cons c cs =>
          rw [List.length_cons] at hn
          by_cases hc : isBlank c = true ∨ c = '('
          · obtain ⟨lead, tail, rfl, hlead, htail⟩ := ih cs.length (by omega) cs rfl
            exact ⟨c :: lead, tail, rfl, .mark hc hlead, htail⟩
          · by_cases hblock : block.opener <+: c :: cs
            · exact ⟨[], _, rfl, .nil, .block hblock⟩
            · by_cases hline : line.opener <+: c :: cs
              · obtain ⟨body, hbody⟩ := hline
                by_cases hend : '\n' ∈ body
                · obtain ⟨body, rest, rfl, hfirst⟩ := List.eq_append_cons_of_mem hend
                  have hlength := congrArg List.length hbody
                  simp only [List.length_append, List.length_cons] at hlength
                  obtain ⟨lead, tail, rfl, hlead, htail⟩ := ih rest.length (by omega) rest rfl
                  refine ⟨line.opener ++ body ++ line.closer ++ lead, tail, ?_,
                    .line hfirst hlead, htail⟩
                  rw [← hbody]
                  simp [line]
                · exact ⟨[], _, rfl, .nil, hbody ▸ .line hend⟩
              · exact ⟨[], _, rfl, .nil, .text hc hline hblock⟩

/-! ### Comments that their own star closes -/

/-- The comment is taken for `/*/`, and the rest of its body comes to no further opening marker
before the closing one is read; the star of that may be the second character of a marker. -/
def ClosedEarly (body : List Char) : Prop :=
  ∃ rest, body = '/' :: rest ∧
    ∀ lead tail, Passable lead → rest ++ block.closer ≠ lead ++ block.opener ++ tail

/-- A further marker leads up to the true end of the comment. -/
theorem withoutLead_of_reopened (hbody : ¬block.closer <:+: '/' :: rest) (hlead : Passable lead)
    (heq : rest ++ block.closer = lead ++ block.opener ++ tail) (behind : List Char) :
    withoutLead .code (block.opener ++ '/' :: rest ++ block.closer ++ behind) =
      withoutLead .code behind := by
  -- What follows the slash of the marker is the star, and it leads to the closing text.
  obtain ⟨inner, rfl, hinner⟩ :
      ∃ inner, rest = lead ++ '/' :: inner ∧ '*' :: tail = inner ++ block.closer := by
    have hsplit : rest ++ block.closer = lead ++ '/' :: '*' :: tail := by
      rw [heq, List.append_assoc]
      rfl
    rcases List.append_eq_append_iff.mp hsplit with ⟨x, hleads, hx⟩ | ⟨x, hrest, hx⟩
    · rcases x with _ | ⟨d, _ | ⟨d', x⟩⟩ <;> simp [block] at hx
    · cases x with
      | nil => simp [block] at hx
      | cons d x =>
          rw [List.cons_append, List.cons.injEq] at hx
          obtain ⟨rfl, hx⟩ := hx
          exact ⟨x, hrest, hx⟩
  have hnone : ¬block.closer <:+: inner := fun hin =>
    hbody (hin.trans ⟨'/' :: lead ++ ['/'], [], by simp⟩)
  have hmarker : '/' :: inner ++ block.closer ++ behind = block.opener ++ (tail ++ behind) := by
    rw [List.cons_append, ← hinner]
    rfl
  have hbehind : block.opener ++ '/' :: (lead ++ '/' :: inner) ++ block.closer ++ behind =
      block.opener ++ '/' :: (lead ++ ('/' :: inner ++ block.closer ++ behind)) := by
    simp only [List.append_assoc, List.cons_append]
  rw [hbehind, withoutLead_early, withoutLead_passable hlead, hmarker, withoutLead_marker,
    ← List.cons_append, hinner]
  exact withoutLead_block hnone behind

/-- A comment that is not closed early is passed over as a whole. -/
theorem withoutLead_of_comment (hbody : ¬block.closer <:+: body) (h : ¬ClosedEarly body)
    (behind : List Char) :
    withoutLead .code (block.opener ++ body ++ block.closer ++ behind) =
      withoutLead .code behind := by
  by_cases hslash : ∃ rest, body = '/' :: rest
  · obtain ⟨rest, rfl⟩ := hslash
    obtain ⟨lead, tail, hlead, heq⟩ : ∃ lead tail, Passable lead ∧
        rest ++ block.closer = lead ++ block.opener ++ tail := by
      by_contra hnone
      exact h ⟨rest, rfl, fun lead tail hlead heq => hnone ⟨lead, tail, hlead, heq⟩⟩
    exact withoutLead_of_reopened hbody hlead heq behind
  · have hnone : ¬block.closer <:+: '*' :: body := fun hin => by
      rcases List.infix_cons_iff.mp hin with ⟨rest, hrest⟩ | hin
      · exact hslash ⟨rest, ((List.cons.inj hrest).2).symm⟩
      · exact hbody hin
    rw [List.append_assoc, List.append_assoc, withoutLead_marker, ← List.cons_append,
      ← List.append_assoc]
    exact withoutLead_block hnone behind

/-! ### Comments that are read for their words -/

/-- Where the text proper ends outside of words, what is behind it has no part in the answer. -/
theorem needsWhere_of_text (hends : endsInWord a = false) (ha : a ≠ [])
    (hstay : ∀ behind, withoutLead .code (a ++ behind) = a ++ behind) (behind : List Char) :
    needsWhere (a ++ behind) = needsWhere a := by
  have hself : withoutLead .code a = a := by simpa using hstay []
  have hsame : ∀ keyword ∈ ["join", "inner", "group", "where"],
      startsWithKeyword keyword.toList (a ++ behind) = startsWithKeyword keyword.toList a :=
    fun keyword hmem => startsWithKeyword_append (isWord_of_leading hmem) (Or.inl hends) ha
  simp only [needsWhere, hstay, hself]
  rw [Bool.eq_iff_iff, Bool.not_eq_true', Bool.not_eq_true', List.any_eq_false, List.any_eq_false]
  exact forall_congr' fun keyword => forall_congr' fun hmem => by rw [hsame keyword hmem]

theorem needsWhere_passable (h : Passable lead) (predicate : List Char) :
    needsWhere (lead ++ predicate) = needsWhere predicate := by
  rw [needsWhere, needsWhere, withoutLead_passable h]

/-- Of a comment that is closed early, its body is read up to the end, or to the end of a line
comment in it; what is behind the comment in the same line is not read at all. -/
theorem needsWhere_of_closedEarly (h : ClosedEarly body) (behind : List Char)
    (hbehind : '\n' ∉ behind) :
    needsWhere (block.opener ++ body ++ block.closer ++ behind) =
      needsWhere (block.opener ++ body ++ block.closer) := by
  obtain ⟨rest, rfl, hnone⟩ := h
  have hearly : ∀ cs, needsWhere (block.opener ++ '/' :: rest ++ cs) = needsWhere (rest ++ cs) := by
    intro cs
    rw [needsWhere, needsWhere, List.append_assoc, List.cons_append, withoutLead_early]
  rw [List.append_assoc, hearly, hearly]
  obtain ⟨lead, tail, rfl, hlead, htail⟩ := exists_passable rest
  have hnone : ¬block.opener <+: tail ++ block.closer := by
    rintro ⟨further, hfurther⟩
    refine hnone lead further hlead ?_
    rw [List.append_assoc, ← hfurther, List.append_assoc]
  rw [List.append_assoc, List.append_assoc, needsWhere_passable hlead, needsWhere_passable hlead,
    ← List.append_assoc]
  cases htail with
  | nil => exact needsWhere_of_text (by decide) (by decide) (fun _ => rfl) behind
  | block opens => exact absurd (opens.trans (List.prefix_append ..)) hnone
  | @line body hbody =>
      have hread : ∀ cs, '\n' ∉ cs → withoutLead .code (line.opener ++ body ++ cs) = [] := by
        intro cs hcs
        show withoutLead .line (body ++ cs) = []
        rw [withoutLead_line hbody, ← List.append_nil cs, withoutLead_line hcs]
        rfl
      have hcloser : '\n' ∉ block.closer := by decide
      rw [needsWhere, needsWhere, hread _ hcloser, List.append_assoc, hread]
      simpa using ⟨hcloser, hbehind⟩
  | @text c cs hc hline hblock =>
      -- The end of the comment makes a marker with the last of its body, or with nothing.
      have htext : ∀ cs', ¬"--".toList <+: c :: (cs ++ block.closer ++ cs') ∧
          ¬"/*".toList <+: c :: (cs ++ block.closer ++ cs') := by
        intro cs'
        cases cs with
        | nil => simp_all [block]
        | cons d cs =>
            simp only [line, block, List.cons_prefix_cons, List.nil_prefix, and_true]
              at hline hblock
            simp only [List.cons_append, String.reduceToList, List.cons_prefix_cons,
              List.nil_prefix, and_true]
            exact ⟨hline, hblock⟩
      refine needsWhere_of_text ?_ (by simp)
        (fun cs' => withoutLead_of_text hc (htext cs').1 (htext cs').2) behind
      rw [endsInWord_append_of_ne (by decide)]
      rfl

/--
**What leads a predicate does not change how it is joined, but for comments closed early.**
Blanks, opening parentheses and line comments in front of a predicate make no difference to
whether it needs a `where`.  A block comment makes none to any predicate exactly if it is not
closed early, by the star of its own marker.
-/
theorem needsWhere_behind_lead (lead body : List Char) :
    ((∀ c ∈ lead, isBlank c = true ∨ c = '(') →
      ∀ predicate, needsWhere (lead ++ predicate) = needsWhere predicate) ∧
    (¬line.closer <:+: body → ∀ predicate,
      needsWhere (line.opener ++ body ++ line.closer ++ predicate) = needsWhere predicate) ∧
    (¬block.closer <:+: body →
      ((∀ predicate,
        needsWhere (block.opener ++ body ++ block.closer ++ predicate) = needsWhere predicate) ↔
        ¬ClosedEarly body)) := by
  refine ⟨fun hlead predicate => ?_, fun hbody predicate => ?_, fun hbody => ⟨?_, ?_⟩⟩
  · rw [needsWhere, needsWhere, withoutLead_append hlead]
  · rw [needsWhere, needsWhere, withoutLead_of_line ((List.singleton_infix_iff ..).not.mp hbody)]
  · -- One predicate needs a `where` and another does not, and neither is read.
    intro hsame hearly
    have hwhere := needsWhere_of_closedEarly hearly "where".toList (by decide)
    have hempty := needsWhere_of_closedEarly hearly [] (by decide)
    rw [hsame] at hwhere hempty
    exact absurd (hwhere.trans hempty.symm) (by decide)
  · intro hwhole predicate
    rw [needsWhere, needsWhere, withoutLead_of_comment hbody hwhole]

/-- A keyword in a comment is taken for the first word of the predicate behind it. -/
theorem commented_keyword_leads :
    ¬∀ body predicate : List Char, ¬block.closer <:+: body →
      needsWhere (block.opener ++ body ++ block.closer ++ predicate) = needsWhere predicate := by
  intro h
  have hsame := h "/ where ".toList " id = 1".toList (by decide)
  exact absurd hsame (by decide)

end SqlSession.Sql
