/-
The passes over the front of a text.

What leads a text is stripped in a loop.  A pass takes off the blanks and then a comment or an
opening parenthesis, and the loop is over with a pass that has found nothing, or a comment without
an end.  `pass_sound` says all that a pass does: it leaves a shorter text to the next one, or it
is the last one and what it leaves is stripped.  From that the loop ends, and ends with what
`withoutLead` leaves in a single run over the text.

A comment that is never closed should leave nothing.  But the end of a block comment is looked for
from its marker on, so a marker `/*/` is taken for a whole comment, and the text behind it is
stripped and left.
-/
import SqlSession.Proofs.Sql.LeadingComments

namespace SqlSession.Sql

open Text Delimiter

variable {body closer cs front lead rest : List Char} {c : Char}

/-! ### The loop -/

/-- What stands in a text behind the first place of another one. -/
def behind? (closer : List Char) : List Char → Option (List Char)
  | [] => none
  | c :: cs =>
    if closer <+: c :: cs then some ((c :: cs).drop closer.length) else behind? closer cs

/-- What a pass comes to. -/
inductive Pass where
  /-- Something was taken off, and the next pass goes on with the rest. -/
  | again (rest : List Char)
  /-- There is no next pass, and this is left. -/
  | last (result : List Char)
  deriving DecidableEq

/-- A comment is taken off up to its end; without an end nothing is left. -/
def passComment (closer front : List Char) : Pass :=
  match behind? closer front with
  | some rest => .again rest
  | none => .last []

/-- A pass over the front of a text. -/
def pass (cs : List Char) : Pass :=
  let front := trimStart cs
  if line.opener <+: front then passComment line.closer front
  else if block.opener <+: front then passComment block.closer front
  else
    match front with
    | '(' :: rest => .again rest
    | _ => if front = cs then .last front else .again front

/-- What the loop comes to, if it is over after so many passes. -/
def afterPasses : Nat → List Char → Option (List Char)
  | 0, _ => none
  | n + 1, cs =>
    match pass cs with
    | .again rest => afterPasses n rest
    | .last result => some result

/-- The text begins with nothing that a pass takes off. -/
structure Stripped (cs : List Char) : Prop where
  blank : ∀ c ∈ cs.head?, isBlank c = false
  parenthesis : cs.head? ≠ some '('
  line : ¬line.opener <+: cs
  block : ¬block.opener <+: cs

theorem stripped_nil : Stripped [] :=
  ⟨nofun, nofun, by decide, by decide⟩

/-! ### The end of a comment -/

theorem behind?_of_first (hne : closer ≠ []) (h : ¬closer <:+: body ++ closer.dropLast)
    (rest : List Char) : behind? closer (body ++ closer ++ rest) = some rest := by
  induction body with
  | nil =>
      obtain ⟨c, closer, rfl⟩ := List.exists_cons_of_ne_nil hne
      rw [List.nil_append, List.cons_append, behind?, ← List.cons_append,
        if_pos (List.prefix_append ..), List.drop_left]
  | cons c body ih =>
      have hnone : ¬closer <+: c :: (body ++ closer ++ rest) := fun hp => by
        -- The closing text would end in front of its last character.
        refine h (List.IsPrefix.isInfix (List.prefix_of_prefix_length_le hp ?_ ?_))
        · rw [List.cons_append, List.cons_prefix_cons, List.append_assoc]
          exact ⟨rfl, (List.prefix_append_right_inj body).mpr
            ((List.dropLast_prefix closer).trans (List.prefix_append ..))⟩
        · simp only [List.cons_append, List.length_cons, List.length_append, List.length_dropLast]
          omega
      rw [List.cons_append, List.cons_append, behind?, if_neg hnone]
      exact ih fun hin => h (List.infix_cons hin)

theorem behind?_of_never (h : ¬closer <:+: cs) : behind? closer cs = none := by
  induction cs with
  | nil => rfl
  | cons c cs ih =>
      rw [behind?, if_neg fun hp => h hp.isInfix]
      exact ih fun hin => h (List.infix_cons hin)

/-- A comment without an end leaves nothing. -/
theorem withoutLead_line_unclosed (h : ¬line.closer <:+: body) : withoutLead .line body = [] := by
  have hthrough := withoutLead_line ((List.singleton_infix_iff ..).not.mp h) []
  rw [List.append_nil] at hthrough
  rw [hthrough, withoutLead.eq_def]

theorem withoutLead_block_unclosed (h : ¬block.closer <:+: body) :
    withoutLead (.block false) body = [] := by
  obtain ⟨star, hbody⟩ := withoutLead_body h
  rw [← List.append_nil body, hbody, withoutLead.eq_def]

/-! ### One pass -/

/-- What a pass has done to a text. -/
def Pass.Sound (cs : List Char) : Pass → Prop
  | .again rest =>
    rest <:+ cs ∧ rest.length < cs.length ∧ withoutLead .code cs = withoutLead .code rest
  | .last result => result <:+ cs ∧ Stripped result ∧ withoutLead .code cs = result

theorem passComment_of_first (hne : closer ≠ []) (h : ¬closer <:+: body ++ closer.dropLast)
    (hbody : body ≠ [])
    (hlead : withoutLead .code (body ++ closer ++ rest) = withoutLead .code rest) :
    (passComment closer (body ++ closer ++ rest)).Sound (body ++ closer ++ rest) := by
  have hlength := List.length_pos_iff.mpr hbody
  rw [passComment, behind?_of_first hne h]
  refine ⟨List.suffix_append .., ?_, hlead⟩
  simp only [List.length_append]
  omega

theorem passComment_of_never (h : ¬closer <:+: front) (hlead : withoutLead .code front = []) :
    (passComment closer front).Sound front := by
  rw [passComment, behind?_of_never h]
  exact ⟨List.nil_suffix, stripped_nil, hlead⟩

theorem passComment_line (hopens : line.opener <+: front) :
    (passComment line.closer front).Sound front := by
  obtain ⟨tail, rfl⟩ := hopens
  by_cases hin : line.closer <:+: tail
  · obtain ⟨body, rest, rfl, hfirst⟩ := exists_first line.closer_ne_nil hin
    have hbody := not_infix_of_first hfirst
    have hlead := withoutLead_of_line ((List.singleton_infix_iff ..).not.mp hbody) rest
    rw [← List.append_assoc, ← List.append_assoc]
    refine passComment_of_first line.closer_ne_nil ?_ (by simp [line]) hlead
    simpa [line, List.singleton_infix_iff] using hbody
  · refine passComment_of_never ?_ (withoutLead_line_unclosed hin)
    simpa [line, List.singleton_infix_iff] using hin

/-- The star of the marker belongs to what the end of the comment is looked for in. -/
theorem passComment_block (hopens : block.opener <+: front) :
    (passComment block.closer front).Sound front := by
  obtain ⟨tail, rfl⟩ := hopens
  -- The search begins at the slash of the marker, which is no part of an end.
  have hslash : ∀ {cs : List Char}, ¬block.closer <:+: cs → ¬block.closer <:+: '/' :: cs := by
    intro cs hnone hin
    exact hnone ((List.infix_cons_iff.mp hin).resolve_left fun hp =>
      absurd (List.cons_prefix_cons.mp hp).1 (by decide))
  by_cases hin : block.closer <:+: '*' :: tail
  · obtain ⟨body, rest, hsplit, hfirst⟩ := exists_first block.closer_ne_nil hin
    have hlead : withoutLead .code (block.opener ++ tail) = withoutLead .code rest := by
      rw [withoutLead_marker, hsplit, withoutLead_block (not_infix_of_first hfirst)]
    have hfront : block.opener ++ tail = '/' :: body ++ block.closer ++ rest :=
      congrArg ('/' :: ·) hsplit
    rw [hfront] at hlead ⊢
    exact passComment_of_first block.closer_ne_nil (hslash hfirst) (List.cons_ne_nil _ _) hlead
  · refine passComment_of_never (hslash hin) ?_
    rw [withoutLead_marker, withoutLead_block_unclosed hin]

/-- What a pass does behind the blanks it does to the whole text. -/
theorem Pass.Sound.behind {p : Pass} (h : p.Sound front) (hsuffix : front <:+ cs)
    (hlead : withoutLead .code cs = withoutLead .code front) : p.Sound cs := by
  cases p with
  | again rest =>
      obtain ⟨hrest, hlength, heq⟩ := h
      exact ⟨hrest.trans hsuffix, Nat.lt_of_lt_of_le hlength hsuffix.length_le, hlead.trans heq⟩
  | last result =>
      obtain ⟨hresult, hstripped, heq⟩ := h
      exact ⟨hresult.trans hsuffix, hstripped, hlead.trans heq⟩

theorem withoutLead_trimStart (cs : List Char) :
    withoutLead .code cs = withoutLead .code (trimStart cs) := by
  obtain ⟨blanks, hblanks, hcs⟩ := trimStart_split cs
  conv_lhs => rw [hcs]
  exact withoutLead_append (fun c hc => Or.inl (hblanks c hc)) _

theorem isBlank_head?_trimStart (cs : List Char) :
    ∀ c ∈ (trimStart cs).head?, isBlank c = false := by
  intro c hc
  have hhead := List.head?_dropWhile_not isBlank cs
  rw [← trimStart, hc] at hhead
  exact hhead

theorem withoutLead_of_stripped (h : Stripped cs) : withoutLead .code cs = cs := by
  cases cs with
  | nil => rw [withoutLead.eq_def]
  | cons c cs =>
      refine withoutLead_of_text ?_ h.line h.block
      rintro (hblank | rfl)
      · rw [h.blank c rfl] at hblank
        cases hblank
      · exact h.parenthesis rfl

/-- **What a pass does.**  It leaves a shorter end of the text, with the same lead to be taken off,
or it is over and what it leaves is stripped. -/
theorem pass_sound (cs : List Char) : (pass cs).Sound cs := by
  have hsuffix := trimStart_suffix cs
  have hlead := withoutLead_trimStart cs
  rw [pass]
  by_cases hline : line.opener <+: trimStart cs
  · rw [if_pos hline]
    exact (passComment_line hline).behind hsuffix hlead
  by_cases hblock : block.opener <+: trimStart cs
  · rw [if_neg hline, if_pos hblock]
    exact (passComment_block hblock).behind hsuffix hlead
  rw [if_neg hline, if_neg hblock]
  split
  · rename_i rest hfront
    rw [hfront] at hsuffix hlead
    refine ⟨(List.suffix_cons ..).trans hsuffix, hsuffix.length_le, ?_⟩
    rw [hlead, withoutLead_of_lead (Or.inr rfl)]
  · rename_i hparenthesis
    split_ifs with hsame
    · have hstripped : Stripped (trimStart cs) :=
        ⟨isBlank_head?_trimStart cs, fun hhead => ?_, hline, hblock⟩
      · exact ⟨hsuffix, hstripped, hlead.trans (withoutLead_of_stripped hstripped)⟩
      · obtain ⟨rest, hrest⟩ := List.head?_eq_some_iff.mp hhead
        exact hparenthesis rest hrest
    · exact ⟨hsuffix, Nat.lt_of_le_of_ne hsuffix.length_le fun hlength =>
        hsame (hsuffix.eq_of_length hlength), hlead⟩

/-! ### The whole loop -/

/-- The loop is over before it has made more passes than the text has characters, and one. -/
theorem afterPasses_eq {n : Nat} (h : cs.length < n) :
    afterPasses n cs = some (withoutLead .code cs) := by
  induction n generalizing cs with
  | zero => exact absurd h (Nat.not_lt_zero _)
  | succ n ih =>
      have hsound := pass_sound cs
      rw [afterPasses]
      cases hpass : pass cs with
      | again rest =>
          rw [hpass] at hsound
          obtain ⟨-, hlength, hlead⟩ := hsound
          rw [hlead]
          exact ih (by omega)
      | last result =>
          rw [hpass] at hsound
          rw [hsound.2.2]

/-- What the passes keep, the loop keeps. -/
theorem suffix_and_stripped (cs : List Char) :
    withoutLead .code cs <:+ cs ∧ Stripped (withoutLead .code cs) := by
  -- By the length of the text, which every pass but the last one lowers.
  induction hn : cs.length using Nat.strong_induction_on generalizing cs with
  | _ n ih =>
      have hsound := pass_sound cs
      cases hpass : pass cs with
      | again rest =>
          rw [hpass] at hsound
          obtain ⟨hsuffix, hlength, hlead⟩ := hsound
          obtain ⟨hmore, hstripped⟩ := ih rest.length (hn ▸ hlength) rest rfl
          rw [hlead]
          exact ⟨hmore.trans hsuffix, hstripped⟩
      | last result =>
          rw [hpass] at hsound
          obtain ⟨hsuffix, hstripped, hlead⟩ := hsound
          rw [hlead]
          exact ⟨hsuffix, hstripped⟩

/-! ### Comments without an end -/

/-- Blanks, opening parentheses and closed comments, where this holds of the bodies of the block
comments. -/
inductive LeadOf (inBlock : List Char → Prop) : List Char → Prop
  | nil : LeadOf inBlock []
  | mark {c : Char} {cs : List Char} (hc : isBlank c = true ∨ c = '(') (more : LeadOf inBlock cs) :
    LeadOf inBlock (c :: cs)
  | line {body cs : List Char} (hbody : ¬line.closer <:+: body) (more : LeadOf inBlock cs) :
    LeadOf inBlock (line.opener ++ body ++ line.closer ++ cs)
  | block {body cs : List Char} (hbody : inBlock body) (more : LeadOf inBlock cs) :
    LeadOf inBlock (block.opener ++ body ++ block.closer ++ cs)

/-- A block comment ends with the closing text behind this body. -/
def IsBody (body : List Char) : Prop :=
  ¬block.closer <:+: body

/-- The star of the marker closes nothing either. -/
def IsPlainBody (body : List Char) : Prop :=
  ¬block.closer <:+: '*' :: body

/-- A comment is opened in the lead of the text and never closed. -/
def Unclosed (cs : List Char) : Prop :=
  ∃ lead d body, LeadOf IsBody lead ∧ d ∈ commentDelimiters ∧ ¬d.closer <:+: body ∧
    cs = lead ++ d.opener ++ body

/-- A marker `/*/` in the lead is taken for a whole comment, and something is left of the text
behind it. -/
def CutShort (cs : List Char) : Prop :=
  ∃ lead rest, LeadOf IsPlainBody lead ∧ cs = lead ++ block.opener ++ '/' :: rest ∧
    withoutLead .code rest ≠ []

theorem withoutLead_lead (h : LeadOf IsPlainBody lead) (rest : List Char) :
    withoutLead .code (lead ++ rest) = withoutLead .code rest := by
  induction h with
  | nil => rfl
  | mark hc more ih => rw [List.cons_append, withoutLead_of_lead hc, ih]
  | line hbody more ih =>
      rw [List.append_assoc, withoutLead_of_line ((List.singleton_infix_iff ..).not.mp hbody), ih]
  | @block body cs hbody more ih =>
      have hmarker : block.opener ++ body ++ block.closer ++ cs ++ rest =
          block.opener ++ (body ++ block.closer ++ (cs ++ rest)) := by
        simp only [List.append_assoc]
      rw [hmarker, withoutLead_marker, ← List.cons_append, ← List.cons_append,
        withoutLead_block hbody, ih]

/-- A body that begins with no slash is closed by its closing text alone. -/
theorem isPlainBody_or_slash (h : IsBody body) :
    IsPlainBody body ∨ ∃ rest, body = '/' :: rest := by
  by_cases hin : block.closer <:+: '*' :: body
  · rcases List.infix_cons_iff.mp hin with ⟨rest, hrest⟩ | hin
    · exact Or.inr ⟨rest, (List.cons.inj hrest).2.symm⟩
    · exact absurd hin h
  · exact Or.inl hin

/-- In a lead, the star of a marker closes nothing, or there is a first one that does. -/
theorem lead_cases (h : LeadOf IsBody lead) : LeadOf IsPlainBody lead ∨
    ∃ front rest, LeadOf IsPlainBody front ∧ lead = front ++ block.opener ++ '/' :: rest := by
  induction h with
  | nil => exact Or.inl .nil
  | mark hc more ih =>
      rcases ih with hplain | ⟨front, rest, hfront, rfl⟩
      · exact Or.inl (.mark hc hplain)
      · exact Or.inr ⟨_, rest, .mark hc hfront, rfl⟩
  | line hbody more ih =>
      rcases ih with hplain | ⟨front, rest, hfront, rfl⟩
      · exact Or.inl (.line hbody hplain)
      · exact Or.inr ⟨_, rest, .line hbody hfront, by simp only [List.append_assoc]⟩
  | block hbody more ih =>
      rcases isPlainBody_or_slash hbody with hplainBody | ⟨rest, rfl⟩
      · rcases ih with hplain | ⟨front, rest, hfront, rfl⟩
        · exact Or.inl (.block hplainBody hplain)
        · exact Or.inr ⟨_, rest, .block hplainBody hfront, by simp only [List.append_assoc]⟩
      · exact Or.inr ⟨[], _, .nil, by simp only [List.nil_append, List.append_assoc]; rfl⟩

theorem withoutLead_cutShort (hlead : LeadOf IsPlainBody lead) (rest : List Char) :
    withoutLead .code (lead ++ block.opener ++ '/' :: rest) = withoutLead .code rest := by
  rw [List.append_assoc, withoutLead_lead hlead, withoutLead_early]

/-- Nothing is left of a text with an unclosed comment, unless it is cut short. -/
theorem withoutLead_unclosed (h : Unclosed cs) : withoutLead .code cs = [] ↔ ¬CutShort cs := by
  constructor
  · rintro hempty ⟨lead, rest, hlead, rfl, hleft⟩
    rw [withoutLead_cutShort hlead] at hempty
    exact hleft hempty
  · intro hnot
    have hempty : ∀ lead rest, LeadOf IsPlainBody lead →
        cs = lead ++ block.opener ++ '/' :: rest → withoutLead .code cs = [] := by
      rintro lead rest hlead rfl
      rw [withoutLead_cutShort hlead]
      by_contra hleft
      exact hnot ⟨lead, rest, hlead, rfl, hleft⟩
    obtain ⟨lead, d, body, hlead, hd, hbody, rfl⟩ := h
    rcases lead_cases hlead with hplain | ⟨front, rest, hfront, rfl⟩
    · simp only [commentDelimiters, List.mem_cons, List.not_mem_nil, or_false] at hd
      rcases hd with rfl | rfl
      · rw [List.append_assoc, withoutLead_lead hplain]
        exact withoutLead_line_unclosed hbody
      · rcases isPlainBody_or_slash hbody with hplainBody | ⟨rest, rfl⟩
        · rw [List.append_assoc, withoutLead_lead hplain, withoutLead_marker]
          exact withoutLead_block_unclosed hplainBody
        · exact hempty lead rest hplain rfl
    · exact hempty front _ hfront (by simp only [List.append_assoc]; rfl)

/--
**The loop over the lead of a text ends, and strips it.**  For every text the loop is over after
at most one pass more than the text has characters, with what `withoutLead` leaves.  That is an
end of the text, it begins with no blank, parenthesis or comment, and stripping it again changes
nothing.  Of a text with an unclosed comment in its lead nothing is left, exactly if no marker
`/*/` in the lead cuts a comment short with something left behind it.
-/
theorem withoutLead_by_passes (cs : List Char) :
    (∀ n, cs.length < n → afterPasses n cs = some (withoutLead .code cs)) ∧
    withoutLead .code cs <:+ cs ∧ Stripped (withoutLead .code cs) ∧
    withoutLead .code (withoutLead .code cs) = withoutLead .code cs ∧
    (Unclosed cs → (withoutLead .code cs = [] ↔ ¬CutShort cs)) := by
  obtain ⟨hsuffix, hstripped⟩ := suffix_and_stripped cs
  exact ⟨fun n => afterPasses_eq, hsuffix, hstripped, withoutLead_of_stripped hstripped,
    withoutLead_unclosed⟩

/-- A parenthesis and a closed comment in front of an unclosed one, which holds a keyword. -/
theorem unclosed_comment_leaves_nothing :
    let cs := "( -- a\n /* where".toList
    Unclosed cs ∧ ¬CutShort cs ∧ afterPasses 17 cs = some [] := by
  intro cs
  have hlead : LeadOf IsBody "( -- a\n ".toList :=
    .mark (by decide) <| .mark (by decide) <|
      @LeadOf.line _ " a".toList _ (by decide) <| .mark (by decide) .nil
  have hunclosed : Unclosed cs :=
    ⟨_, block, " where".toList, hlead, by simp [commentDelimiters], by decide, rfl⟩
  have hempty : withoutLead .code cs = [] := by decide
  obtain ⟨hends, -, -, -, hleft⟩ := withoutLead_by_passes cs
  exact ⟨hunclosed, (hleft hunclosed).mp hempty, by rw [hends 17 (by decide), hempty]⟩

/-- The star of a marker closes a comment that has no end, and the text of the comment is left. -/
theorem text_of_unclosed_comment_left : ¬∀ cs, Unclosed cs → withoutLead .code cs = [] := by
  intro h
  have hunclosed : Unclosed "/*/ group by id".toList :=
    ⟨[], block, "/ group by id".toList, .nil, by simp [commentDelimiters], by decide, rfl⟩
  exact absurd (h _ hunclosed) (by decide)

end SqlSession.Sql
