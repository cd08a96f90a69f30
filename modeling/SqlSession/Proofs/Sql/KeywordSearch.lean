/-
The search for a keyword.

A clause keyword counts only where it is a word of its own outside quotes and parentheses.  In a
text whose parentheses are balanced there is one way to say this, but the search takes any text:
it ignores a parenthesis that closes nothing, and a quote that is never closed reaches to the end.
`KeywordAt` says of any text where such a word stands, by the pieces that the text is read in.

The search goes through the text once.  What it keeps of the characters that it has passed says
whether they end between two pieces, how many parentheses are open there and whether a word goes
on, and so it stops at the first place of the keyword, which is `findKeyword_first`.
-/
import Mathlib.Order.Bounds.Basic
import SqlSession.Proofs.Sql.Places
import SqlSession.Proofs.Sql.RowNumber

namespace SqlSession.Sql

open Text Delimiter

variable {keyword before body cs rest : List Char} {ps : List Piece} {c q : Char} {i : Nat}

/-! ### Places of a keyword -/

/-- Quotes as SQL has them, and no comments. -/
def quoteDelimiters : List Delimiter :=
  [quote '\'', quote '"']

/-- How many parentheses are open behind a piece; one too many is not closed. -/
def Piece.depthBehind (depth : Nat) : Piece → Nat
  | .code c => if c = '(' then depth + 1 else if c = ')' then depth - 1 else depth
  | .run _ _ => depth

/-- How many parentheses are open behind the pieces. -/
def openParentheses (ps : List Piece) : Nat :=
  ps.foldl Piece.depthBehind 0

/-- Behind so many characters a piece begins and no parenthesis is open, and there the keyword
stands as a word of its own, in letters of any case. -/
def KeywordAt (keyword cs : List Char) (i : Nat) : Prop :=
  ∃ qs rs word after, Reads quoteDelimiters cs (qs ++ rs) ∧
    cs = qs.flatMap Piece.source ++ word ++ after ∧ (qs.flatMap Piece.source).length = i ∧
    openParentheses qs = 0 ∧ endsInWord (qs.flatMap Piece.source) = false ∧
    asciiLower word = asciiLower keyword ∧ beginsInWord after = false

/-! ### What the search keeps -/

namespace Nesting

variable {n : Nesting}

/-- The state behind a text. -/
def read (n : Nesting) (cs : List Char) : Nesting :=
  cs.foldl after n

@[simp] theorem read_nil (n : Nesting) : n.read [] = n := rfl

@[simp] theorem read_cons (n : Nesting) (c : Char) (cs : List Char) :
    n.read (c :: cs) = (n.after c).read cs := rfl

theorem read_append (n : Nesting) (a b : List Char) : n.read (a ++ b) = (n.read a).read b :=
  List.foldl_append

theorem read_concat (n : Nesting) (a : List Char) (c : Char) :
    n.read (a ++ [c]) = (n.read a).after c :=
  read_append n a [c]

/-- Outside quotes, a character that is no quote stays outside. -/
theorem after_of_code (hn : n.quote = none) (hc : c ≠ '\'' ∧ c ≠ '"') :
    (n.after c).quote = none ∧ (n.after c).depth = Piece.depthBehind n.depth (.code c) := by
  obtain ⟨hsingle, hdouble⟩ := hc
  simp only [after, hn, hsingle, hdouble, or_self, if_false, Piece.depthBehind]
  split_ifs <;> exact ⟨rfl, rfl⟩

/-- From its opening quote on, a run is read in quotes. -/
theorem read_inside (hn : n.quote = none) (hq : q = '\'' ∨ q = '"') (hbody : q ∉ body) :
    (n.read (q :: body)).quote = some q ∧ (n.read (q :: body)).depth = n.depth := by
  induction body using List.reverseRecOn with
  | nil =>
      rw [read_cons, read_nil, after, hn]
      simp only [hq, if_true]
      exact ⟨trivial, trivial⟩
  | append_singleton body c ih =>
      rw [List.mem_append, List.mem_singleton, not_or] at hbody
      obtain ⟨hquote, hdepth⟩ := ih hbody.1
      rw [← List.cons_append, read_concat, after, hquote]
      simp only [Ne.symm hbody.2, if_false]
      exact ⟨trivial, hdepth⟩

theorem read_run (hn : n.quote = none) (hq : q = '\'' ∨ q = '"') (hbody : q ∉ body) :
    (n.read (q :: body ++ [q])).quote = none ∧ (n.read (q :: body ++ [q])).depth = n.depth := by
  obtain ⟨hquote, hdepth⟩ := read_inside hn hq hbody
  rw [read_concat, after, hquote]
  simp only [if_true]
  exact ⟨trivial, hdepth⟩

/-- The search is inside of no other quotes. -/
theorem quote_of_read (cs : List Char) :
    ∀ q ∈ (read {} cs).quote, q = '\'' ∨ q = '"' := by
  induction cs using List.reverseRecOn with
  | nil => exact nofun
  | append_singleton cs c ih =>
      rw [read_concat, after]
      split
      · rename_i q hquote
        intro q' hq'
        split_ifs at hq'
        · cases hq'
        · exact ih q' (hquote.trans hq')
      · intro q' hq'
        split_ifs at hq' with hc <;> simp_all

/-- Outside quotes, the search knows whether a word goes on. -/
theorem inWord_of_read (h : (read {} before).quote = none) :
    (read {} before).inWord = endsInWord before := by
  induction before using List.reverseRecOn with
  | nil => rfl
  | append_singleton before c _ =>
      have hends : endsInWord (before ++ [c]) = isWordChar c :=
        endsInWord_append_of_ne (List.cons_ne_nil c [])
      rw [read_concat] at h ⊢
      rw [hends]
      cases hquote : (read {} before).quote with
      | none =>
          simp only [after, hquote]
          split_ifs <;> rfl
      | some q =>
          -- The run ends here, and its quote is in no word.
          simp only [after, hquote] at h ⊢
          obtain rfl : c = q := by_contra fun hc => by simp [hc] at h
          rcases quote_of_read before c hquote with rfl | rfl <;> rfl

end Nesting

/-! ### The search among the pieces -/

/-- The runs of a text are those between two quotes of one kind. -/
theorem spans_quote {d : Delimiter} {text rest : List Char} (hd : d ∈ quoteDelimiters)
    (h : d.Spans text rest) : ∃ q body, (q = '\'' ∨ q = '"') ∧ q ∉ body ∧
      (text = q :: body ++ [q] ∨ text = q :: body ∧ rest = []) := by
  obtain ⟨q, hq, rfl⟩ : ∃ q, (q = '\'' ∨ q = '"') ∧ d = quote q := by
    simp only [quoteDelimiters, List.mem_cons, List.not_mem_nil, or_false] at hd
    rcases hd with rfl | rfl
    · exact ⟨_, Or.inl rfl, rfl⟩
    · exact ⟨_, Or.inr rfl, rfl⟩
  cases h with
  | @closed body rest first =>
      exact ⟨q, body, hq, (List.singleton_infix_iff ..).not.mp (not_infix_of_first first),
        Or.inl rfl⟩
  | @unclosed body never =>
      exact ⟨q, body, hq, (List.singleton_infix_iff ..).not.mp never, Or.inr ⟨rfl, rfl⟩⟩

theorem ne_quote_of_unopened (h : Unopened quoteDelimiters (c :: rest)) : c ≠ '\'' ∧ c ≠ '"' := by
  constructor
  · rintro rfl
    exact h (quote '\'') (by simp [quoteDelimiters]) ⟨rest, rfl⟩
  · rintro rfl
    exact h (quote '"') (by simp [quoteDelimiters]) ⟨rest, rfl⟩

/-- Between two pieces the search is outside quotes, and it has counted the parentheses. -/
theorem read_of_reads {n : Nesting} {qs rs : List Piece} (h : Reads quoteDelimiters cs ps)
    (hps : ps = qs ++ rs) (hcs : cs = qs.flatMap Piece.source ++ rest) (hrest : rest ≠ [])
    (hn : n.quote = none) :
    (n.read (qs.flatMap Piece.source)).quote = none ∧
      (n.read (qs.flatMap Piece.source)).depth = qs.foldl Piece.depthBehind n.depth := by
  -- The state is generalized: the next piece is read in the one behind this piece.
  induction h generalizing n qs with
  | nil => exact absurd (List.append_eq_nil_iff.mp hcs.symm).2 hrest
  | @code c more ps unopened hmore ih =>
      cases qs with
      | nil => exact ⟨hn, rfl⟩
      | cons p qs =>
          obtain ⟨rfl, hqs⟩ := List.cons.inj hps
          obtain ⟨hquote, hdepth⟩ := Nesting.after_of_code hn (ne_quote_of_unopened unopened)
          rw [List.foldl_cons, ← hdepth]
          exact ih hqs (List.cons.inj hcs).2 hquote
  | @run d text more ps known opens spans hmore ih =>
      cases qs with
      | nil => exact ⟨hn, rfl⟩
      | cons p qs =>
          obtain ⟨rfl, hqs⟩ := List.cons.inj hps
          rw [List.flatMap_cons, List.append_assoc] at hcs
          have hmoreEq := List.append_cancel_left hcs
          obtain ⟨q, body, hq, hbody, rfl | ⟨rfl, hnil⟩⟩ := spans_quote known spans
          · obtain ⟨hquote, hdepth⟩ := Nesting.read_run hn hq hbody
            rw [List.flatMap_cons, Nesting.read_append, List.foldl_cons, Piece.depthBehind,
              ← hdepth]
            exact ih hqs hmoreEq hquote
          · -- A run that is never closed leaves no rest.
            rw [hnil] at hmoreEq
            exact absurd (List.append_eq_nil_iff.mp hmoreEq.symm).2 hrest

/-- Where the search is outside quotes, the text is cut between two pieces. -/
theorem reads_of_read {n : Nesting} (h : Reads quoteDelimiters cs ps) (hcs : cs = before ++ rest)
    (hrest : rest ≠ []) (hn : n.quote = none) (hread : (n.read before).quote = none) :
    ∃ qs rs, ps = qs ++ rs ∧ qs.flatMap Piece.source = before := by
  induction h generalizing n before with
  | nil => exact absurd (List.append_eq_nil_iff.mp hcs.symm).2 hrest
  | @code c more ps unopened hmore ih =>
      cases before with
      | nil => exact ⟨[], _, rfl, rfl⟩
      | cons c' before =>
          obtain ⟨rfl, hmoreEq⟩ := List.cons.inj hcs
          obtain ⟨hquote, -⟩ := Nesting.after_of_code hn (ne_quote_of_unopened unopened)
          obtain ⟨qs, rs, rfl, hsource⟩ := ih hmoreEq hquote hread
          exact ⟨.code c :: qs, rs, rfl, congrArg (c :: ·) hsource⟩
  | @run d text more ps known opens spans hmore ih =>
      obtain ⟨q, body, hq, hbody, htext⟩ := spans_quote known spans
      rcases List.append_eq_append_iff.mp hcs with ⟨w, rfl, rfl⟩ | ⟨w, hw, rfl⟩
      · -- The whole run has been passed.
        rcases htext with rfl | ⟨-, hnil⟩
        · obtain ⟨hquote, -⟩ := Nesting.read_run hn hq hbody
          rw [Nesting.read_append] at hread
          obtain ⟨qs, rs, rfl, hsource⟩ := ih rfl hquote hread
          exact ⟨.run d.kind (q :: body ++ [q]) :: qs, rs, rfl,
            congrArg (q :: body ++ [q] ++ ·) hsource⟩
        · exact absurd (List.append_eq_nil_iff.mp hnil).2 hrest
      · by_cases hbefore : before = []
        · exact ⟨[], _, rfl, hbefore ▸ rfl⟩
        · by_cases hw' : w = []
          · rw [hw', List.append_nil] at hw
            exact ⟨[.run d.kind text], _, rfl, (List.append_nil _).trans hw⟩
          · -- The search has passed the opening quote and not the closing one.
            obtain ⟨inner, rfl, hinner⟩ : ∃ inner, before = q :: inner ∧ q ∉ inner := by
              obtain ⟨c, inner, rfl⟩ := List.exists_cons_of_ne_nil hbefore
              obtain ⟨w, x, rfl⟩ := (List.eq_nil_or_concat' w).resolve_left hw'
              rcases htext with rfl | ⟨rfl, -⟩
              · rw [← List.append_assoc] at hw
                obtain ⟨rfl, rfl⟩ := List.cons.inj (List.append_inj' hw rfl).1
                exact ⟨inner, rfl, fun hin => hbody (List.mem_append_left _ hin)⟩
              · obtain ⟨rfl, rfl⟩ := List.cons.inj hw
                exact ⟨inner, rfl, fun hin => hbody (List.mem_append_left _ hin)⟩
            rw [(Nesting.read_inside hn hq hinner).1] at hread
            cases hread

/-! ### Where the search stops -/

/-- The search would stop behind so many characters. -/
def stopsAt (keyword cs : List Char) (i : Nat) : Bool :=
  match cs.drop i with
  | [] => false
  | c :: rest => (Nesting.read {} (cs.take i)).admits c && startsWithKeyword keyword (c :: rest)

theorem stopsAt_append (keyword before rest : List Char) (c : Char) :
    stopsAt keyword (before ++ c :: rest) before.length =
      ((Nesting.read {} before).admits c && startsWithKeyword keyword (c :: rest)) := by
  rw [stopsAt, List.drop_left, List.take_left]

theorem findKeywordFrom_eq_find? (keyword before rest : List Char) :
    findKeywordFrom keyword (Nesting.read {} before) before.length rest =
      (List.range' before.length rest.length).find? (stopsAt keyword (before ++ rest)) := by
  induction rest generalizing before with
  | nil => rfl
  | cons c rest ih =>
      have hsplit : before ++ c :: rest = (before ++ [c]) ++ rest := List.append_cons ..
      have hlength : (before ++ [c]).length = before.length + 1 := List.length_append
      have hmore := ih (before ++ [c])
      rw [Nesting.read_concat, hlength, ← hsplit] at hmore
      rw [findKeywordFrom, List.length_cons, List.range'_succ, List.find?_cons, stopsAt_append,
        hmore]
      cases (Nesting.read {} before).admits c && startsWithKeyword keyword (c :: rest) <;> rfl

theorem findKeyword_eq_find? (keyword cs : List Char) :
    findKeyword keyword cs = (List.range cs.length).find? (stopsAt keyword cs) := by
  rw [List.range_eq_range']
  exact findKeywordFrom_eq_find? keyword [] cs

/-- A keyword begins with no quote and no parenthesis. -/
theorem admits_iff {n : Nesting} (hk : IsWord keyword)
    (h : startsWithKeyword keyword (c :: rest) = true) :
    n.admits c = true ↔ n.quote = none ∧ n.depth = 0 ∧ n.inWord = false := by
  obtain ⟨word, after, hword, hreads, -⟩ := startsWithKeyword_iff.mp h
  obtain ⟨c', word, rfl⟩ := List.exists_cons_of_ne_nil (ne_nil_of_reads hk hreads)
  obtain ⟨rfl, -⟩ := List.cons.inj hword
  have hplain := isPlain_of_wordChar (wordChar_of_reads hk hreads c List.mem_cons_self)
  simp only [isPlain, Bool.and_eq_true] at hplain
  simp only [Nesting.admits, hplain, Bool.and_true, Bool.and_eq_true, Option.isNone_iff_eq_none,
    beq_iff_eq, Bool.not_eq_true', and_assoc]

/-- The letters of a keyword fill a place in the text. -/
theorem lt_length_of_keywordAt (hk : IsWord keyword) (hlower : asciiLower keyword = keyword)
    (h : KeywordAt keyword cs i) : i < cs.length := by
  rw [KeywordAt, hlower] at h
  obtain ⟨qs, rs, word, after, -, rfl, rfl, -, -, hreads, -⟩ := h
  have hlength := List.length_pos_iff.mpr (ne_nil_of_reads hk hreads)
  simp only [List.length_append]
  omega

/-- What the search keeps says whether the keyword may stand behind a text. -/
theorem keywordAt_append_iff (hlower : asciiLower keyword = keyword) :
    KeywordAt keyword (before ++ c :: rest) before.length ↔
    ((Nesting.read {} before).quote = none ∧ (Nesting.read {} before).depth = 0 ∧
      (Nesting.read {} before).inWord = false) ∧ startsWithKeyword keyword (c :: rest) = true := by
  have hrest : c :: rest ≠ [] := List.cons_ne_nil c rest
  rw [KeywordAt, hlower, startsWithKeyword_iff]
  constructor
  · rintro ⟨qs, rs, word, after, hps, hcs, hlength, hdepth, hends, hreads, hbegins⟩
    rw [List.append_assoc] at hcs
    obtain ⟨rfl, hword⟩ := List.append_inj hcs hlength.symm
    obtain ⟨hquote, hcounted⟩ := read_of_reads hps rfl rfl hrest (rfl : ({} : Nesting).quote = none)
    refine ⟨⟨hquote, hcounted.trans hdepth, ?_⟩, word, after, hword, hreads, hbegins⟩
    rw [Nesting.inWord_of_read hquote, hends]
  · rintro ⟨⟨hquote, hdepth, hinWord⟩, word, after, hword, hreads, hbegins⟩
    obtain ⟨ps, hps⟩ := exists_reads quoteDelimiters (before ++ c :: rest)
    obtain ⟨qs, rs, rfl, rfl⟩ := reads_of_read hps rfl hrest rfl hquote
    obtain ⟨-, hcounted⟩ := read_of_reads hps rfl rfl hrest (rfl : ({} : Nesting).quote = none)
    refine ⟨qs, rs, word, after, hps, ?_, rfl, hcounted.symm.trans hdepth, ?_, hreads, hbegins⟩
    · rw [List.append_assoc, ← hword]
    · rw [← Nesting.inWord_of_read hquote, hinWord]

/-- The search stops at the places of the keyword. -/
theorem stopsAt_iff (hk : IsWord keyword) (hlower : asciiLower keyword = keyword) :
    stopsAt keyword cs i = true ↔ KeywordAt keyword cs i := by
  by_cases hi : i < cs.length
  · obtain ⟨before, c, rest, rfl, rfl⟩ : ∃ before c rest, cs = before ++ c :: rest ∧
        before.length = i :=
      ⟨cs.take i, cs[i], cs.drop (i + 1), by simp, List.length_take_of_le (Nat.le_of_lt hi)⟩
    rw [stopsAt_append, Bool.and_eq_true, keywordAt_append_iff hlower]
    exact and_congr_left (admits_iff hk)
  · rw [stopsAt, List.drop_eq_nil_of_le (Nat.le_of_not_lt hi)]
    exact ⟨nofun, fun h => absurd (lt_length_of_keywordAt hk hlower h) hi⟩

/-! ### The first place -/

/--
**The search finds the first place of a keyword.**  For every text and every word in lower case,
the search answers how many characters stand before the first place of the word, and it has no
answer exactly if there is no place.  If the quotes and parentheses of the text are closed, those
of the parts before and behind the answer are closed too.
-/
theorem findKeyword_first (hk : IsWord keyword) (hlower : asciiLower keyword = keyword)
    (cs : List Char) :
    (∀ i, findKeyword keyword cs = some i ↔ IsLeast {i | KeywordAt keyword cs i} i) ∧
    (findKeyword keyword cs = none ↔ ∀ i, ¬KeywordAt keyword cs i) ∧
    ∀ i, findKeyword keyword cs = some i → Closed cs → Closed (cs.take i) ∧ Closed (cs.drop i) := by
  have hstops : ∀ i, (!stopsAt keyword cs i) = true ↔ ¬KeywordAt keyword cs i := fun i => by
    rw [Bool.not_eq_true', ← Bool.not_eq_true, stopsAt_iff hk hlower]
  refine ⟨fun i => ?_, ?_, fun i hfound hclosed => ?_⟩
  · rw [findKeyword_eq_find?, List.find?_range_eq_some, stopsAt_iff hk hlower, List.mem_range]
    simp only [hstops]
    refine and_congr_right fun hat => ?_
    rw [and_iff_right (lt_length_of_keywordAt hk hlower hat)]
    exact ⟨fun hnone j hj => Nat.le_of_not_lt fun hlt => hnone j hlt hj,
      fun hleast j hlt hj => absurd (hleast hj) (Nat.not_le.mpr hlt)⟩
  · rw [findKeyword_eq_find?, List.find?_range_eq_none]
    simp only [hstops]
    exact ⟨fun hnone i hat => hnone i (lt_length_of_keywordAt hk hlower hat) hat,
      fun hnone i _ => hnone i⟩
  · obtain ⟨hcut, hne⟩ := cut_of_findKeyword hk hclosed hfound
    have hbefore := (hcut.split hne).1
    refine ⟨hbefore, (closed_append_iff hbefore).mp ?_⟩
    rwa [List.take_append_drop]

/-- A `where` in parentheses, one in quotes and one within a word come before the first place. -/
theorem where_behind_inner_ones :
    let cs := "k in (select 1 where 1) and somewhere = \"where\" WHERE n = ' group'".toList
    findKeyword "where".toList cs = some 48 ∧
      IsLeast {i | KeywordAt "where".toList cs i} 48 ∧ Closed cs ∧
      Closed (cs.take 48) ∧ Closed (cs.drop 48) := by
  intro cs
  have hfound : findKeyword "where".toList cs = some 48 := by decide +kernel
  have hclosed : Closed cs := by decide +kernel
  obtain ⟨hplace, -, hparts⟩ := findKeyword_first isWord_where (by decide) cs
  exact ⟨hfound, (hplace 48).mp hfound, hclosed, hparts 48 hfound hclosed⟩

end SqlSession.Sql
