/-
Where a reader of a statement stands.

The pieces of a text say which characters are code, with the quotes of a dialect.  `Place` says
where a reader stands who goes through the text one character after the other, and a text is in
code for him exactly where the pieces say so, which is `isCode_iff`.

A statement is woven from the texts of the caller and generated text between them.  Generated
text opens and closes nothing, so behind it the reader stands where the caller's text has left
him; `read_woven` says that he may skip it.
-/
import SqlSession.Proofs.Sql.Pieces
import SqlSession.Proofs.Sql.ProjectionItems

namespace SqlSession.Sql

open Text Delimiter

variable {p : Product} {a b back body clause cs front rest text : List Char}
  {texts texts' : List (List Char)} {ps : List Piece} {c q : Char}

/-! ### Pieces in a dialect -/

/-- The quotes of identifiers. -/
def identifierQuote (d : Dialect) : Delimiter where
  kind := .quoted
  opener := [d.openQuote]
  closer := [d.closeQuote]

/-- What a database takes for quoted runs and comments. -/
def delimiters (d : Dialect) : List Delimiter :=
  identifierQuote d :: standardDelimiters

/-- The text that a piece is read from. -/
def Piece.source : Piece → List Char
  | .code c => [c]
  | .run _ text => text

/-- The text in the middle is code, all of it, however the whole is read. -/
def IsCode (d : Dialect) (front clause back : List Char) : Prop :=
  ∀ ps, Reads (delimiters d) (front ++ clause ++ back) ps →
    ∃ qs rs, ps = qs ++ clause.map .code ++ rs ∧ qs.flatMap Piece.source = front

/-! ### A reader -/

/-- Where the reader stands. -/
inductive Place where
  /-- In code; the character before may be the first of a comment's marker. -/
  | code (pending : Option Char)
  /-- In a quoted run that this character ends. -/
  | quoted (closing : Char)
  | line
  | block (afterStar : Bool)
  deriving DecidableEq

namespace Place

variable {place : Place}

/-- Read a character. -/
def step (d : Dialect) : Place → Char → Place
  | .code pending, c =>
    if pending = some '-' ∧ c = '-' then .line
    else if pending = some '/' ∧ c = '*' then .block false
    else
      match closing? d c with
      | some q => .quoted q
      | none => .code (if c = '-' ∨ c = '/' then some c else none)
  | .quoted q, c => if c = q then .code none else .quoted q
  | .line, c => if c = '\n' then .code none else .line
  | .block afterStar, c => if afterStar ∧ c = '/' then .code none else .block (c == '*')

/-- Read a text. -/
def read (d : Dialect) (place : Place) (cs : List Char) : Place :=
  cs.foldl (step d) place

@[simp] theorem read_nil (d : Dialect) (place : Place) : read d place [] = place := rfl

@[simp] theorem read_cons (d : Dialect) (place : Place) (c : Char) (cs : List Char) :
    read d place (c :: cs) = read d (step d place c) cs := rfl

theorem read_append (d : Dialect) (place : Place) (a b : List Char) :
    read d place (a ++ b) = read d (read d place a) b :=
  List.foldl_append

/-- In code, and no marker that has been begun is completed by what follows. -/
def Fresh (place : Place) (rest : List Char) : Prop :=
  ∃ pending, place = .code pending ∧ ∀ c ∈ rest.head?,
    ¬(pending = some '-' ∧ c = '-') ∧ ¬(pending = some '/' ∧ c = '*')

theorem fresh_none (rest : List Char) : Fresh (.code none) rest :=
  ⟨none, rfl, fun _ _ => ⟨by simp, by simp⟩⟩

theorem Fresh.append (h : Fresh place (a ++ b)) (ha : a ≠ []) : Fresh place a := by
  obtain ⟨c, a, rfl⟩ := List.exists_cons_of_ne_nil ha
  exact h

theorem Fresh.step_eq (h : Fresh place (c :: rest)) (d : Dialect) :
    place.step d c = match closing? d c with
      | some q => .quoted q
      | none => .code (if c = '-' ∨ c = '/' then some c else none) := by
  obtain ⟨pending, rfl, hnext⟩ := h
  obtain ⟨hline, hblock⟩ := hnext c rfl
  rw [step, if_neg hline, if_neg hblock]

end Place

open Place

/-! ### Quotes of the products -/

theorem closing?_eq_some (h : closing? p.dialect c = some q) : q = c := by
  have hsame : p.dialect.openQuote = p.dialect.closeQuote := by cases p <;> rfl
  unfold closing? at h
  split_ifs at h with hopen hquote
  · cases h
    rw [hopen, hsame]
  · cases h
    rfl

theorem closing?_openQuote (p : Product) :
    closing? p.dialect p.dialect.openQuote = some p.dialect.closeQuote :=
  if_pos rfl

theorem closing?_of_unopened (h : Unopened (delimiters p.dialect) (c :: rest)) :
    closing? p.dialect c = none := by
  have hne : ∀ q, quote q ∈ standardDelimiters → c ≠ q := by
    rintro q hq rfl
    exact h _ (List.mem_cons_of_mem _ hq) ⟨rest, rfl⟩
  have hopen : c ≠ p.dialect.openQuote := by
    rintro rfl
    exact h _ List.mem_cons_self ⟨rest, rfl⟩
  have hquote : ¬(c = '\'' ∨ c = '"') :=
    not_or.mpr ⟨hne '\'' (by simp [standardDelimiters]), hne '"' (by simp [standardDelimiters])⟩
  rw [closing?, if_neg hopen, if_neg hquote]

/-! ### Through code and through runs -/

section Runs

variable {d : Delimiter}

theorem fresh_step {place : Place} (h : Fresh place (c :: rest))
    (hunopened : Unopened (delimiters p.dialect) (c :: rest)) :
    Fresh (place.step p.dialect c) rest := by
  rw [h.step_eq, closing?_of_unopened hunopened]
  refine ⟨_, rfl, fun next hnext => ?_⟩
  obtain ⟨rest, rfl⟩ := List.head?_eq_some_iff.mp hnext
  refine ⟨?_, ?_⟩
  · rintro ⟨hpending, rfl⟩
    split_ifs at hpending
    obtain rfl := Option.some_inj.mp hpending
    exact hunopened line (by simp [delimiters, standardDelimiters]) ⟨rest, rfl⟩
  · rintro ⟨hpending, rfl⟩
    split_ifs at hpending
    obtain rfl := Option.some_inj.mp hpending
    exact hunopened block (by simp [delimiters, standardDelimiters]) ⟨rest, rfl⟩

/-- The reader comes out of a run at its end, if it has one, and not before. -/
def Passes (p : Product) (d : Delimiter) : Prop :=
  ∀ place text rest, Fresh place (text ++ rest) → d.Spans text rest →
    (rest ≠ [] → place.read p.dialect text = .code none) ∧
    ∀ x y, text = x ++ y → x ≠ [] → y ≠ [] → place.read p.dialect x ≠ .code none

/-- A run is passed if its opener leads inside, its body stays there, and only the last character
of the closing text leads out. -/
theorem passes_of (inside : List Char → Place) (last : Char)
    (hcloser : d.closer = d.closer.dropLast ++ [last])
    (hmarker : ∀ place x y, Fresh place d.opener → d.opener = x ++ y → x ≠ [] → y ≠ [] →
      place.read p.dialect x ≠ .code none)
    (hinside : ∀ place z, Fresh place d.opener → ¬d.closer <:+: z →
      place.read p.dialect (d.opener ++ z) = inside z)
    (hclose : ∀ body, (inside (body ++ d.closer.dropLast)).step p.dialect last = .code none)
    (hne : ∀ z, inside z ≠ .code none) : Passes p d := by
  -- Up to some of the body, the reader has not come out.
  have hwithin : ∀ place z x y, Fresh place d.opener → ¬d.closer <:+: z →
      d.opener ++ z = x ++ y → x ≠ [] → place.read p.dialect x ≠ .code none := by
    intro place z x y hfresh hnone heq hx
    rcases List.append_eq_append_iff.mp heq with ⟨w, rfl, rfl⟩ | ⟨w, hw, rfl⟩
    · rw [hinside _ _ hfresh fun hin => hnone (hin.trans (List.prefix_append ..).isInfix)]
      exact hne w
    · by_cases hempty : w = []
      · rw [hempty, List.append_nil] at hw
        rw [← hw, ← List.append_nil d.opener,
          hinside _ _ hfresh fun hin => d.closer_ne_nil (List.eq_nil_of_infix_nil hin)]
        exact hne []
      · exact hmarker place x w hfresh hw hx hempty
  intro place text rest hfresh hspans
  cases hspans with
  | @closed body rest first =>
      have hopener : Fresh place d.opener := by
        rw [List.append_assoc, List.append_assoc] at hfresh
        exact hfresh.append d.opener_ne_nil
      have htext : d.opener ++ body ++ d.closer =
          d.opener ++ (body ++ d.closer.dropLast) ++ [last] := by
        simp only [List.append_assoc, ← hcloser]
      refine ⟨fun _ => ?_, fun x y heq hx hy => ?_⟩
      · rw [htext, read_append, hinside _ _ hopener first]
        exact hclose body
      · obtain ⟨y, c, rfl⟩ := (List.eq_nil_or_concat' y).resolve_left hy
        rw [htext, ← List.append_assoc x] at heq
        exact hwithin place _ x y hopener first (List.append_inj' heq rfl).1 hx
  | @unclosed body never =>
      have hopener : Fresh place d.opener := by
        rw [List.append_assoc] at hfresh
        exact hfresh.append d.opener_ne_nil
      exact ⟨fun hrest => absurd rfl hrest, fun x y heq hx _ =>
        hwithin place body x y hopener never heq hx⟩

theorem passes_quote (h : closing? p.dialect q = some q) : Passes p (quote q) := by
  refine passes_of (fun _ => .quoted q) q rfl
    (fun place x y _ heq hx hy => ?_) (fun place z hfresh hnone => ?_) (fun _ => if_pos rfl)
    (by simp)
  · have hlength := congrArg List.length heq
    have hxlength := List.length_pos_iff.mpr hx
    have hylength := List.length_pos_iff.mpr hy
    simp only [quote, List.length_singleton, List.length_append] at hlength
    omega
  · have hstep : place.step p.dialect q = .quoted q := by rw [hfresh.step_eq, h]
    have hz : q ∉ z := (List.singleton_infix_iff ..).not.mp hnone
    show read p.dialect (place.step p.dialect q) z = _
    rw [hstep]
    clear hnone
    induction z with
    | nil => rfl
    | cons c z ih =>
        simp only [List.mem_cons, not_or] at hz
        rw [read_cons, step, if_neg (Ne.symm hz.1), ih hz.2]

/-- The first character of a comment's marker is code until the second one is read. -/
theorem step_marker {place : Place} (hc : c = '-' ∨ c = '/') (h : Fresh place (c :: rest)) :
    place.step p.dialect c = .code (some c) := by
  have hnone : closing? p.dialect c = none := by rcases hc with rfl | rfl <;> cases p <;> decide
  rw [h.step_eq, hnone, if_pos hc]

/-- A marker of two characters, cut in two, is cut between them. -/
theorem read_marker {place : Place} {c' : Char} {x y : List Char} (hc : c = '-' ∨ c = '/')
    (h : Fresh place [c, c']) (heq : [c, c'] = x ++ y) (hx : x ≠ []) (hy : y ≠ []) :
    place.read p.dialect x ≠ .code none := by
  obtain ⟨a, x, rfl⟩ := List.exists_cons_of_ne_nil hx
  obtain ⟨b, y, rfl⟩ := List.exists_cons_of_ne_nil hy
  obtain rfl : x = [] := by
    have hlength := congrArg List.length heq
    simp only [List.length_cons, List.length_append, List.length_nil] at hlength
    exact List.eq_nil_of_length_eq_zero (by omega)
  obtain rfl := (List.cons.inj heq).1
  rw [read_cons, read_nil, step_marker hc h]
  simp

theorem passes_line (p : Product) : Passes p line := by
  refine passes_of (fun _ => .line) '\n' rfl
    (fun place x y hfresh heq hx hy => read_marker (.inl rfl) hfresh heq hx hy)
    (fun place z hfresh hnone => ?_) (fun _ => rfl) (by simp)
  have hz : '\n' ∉ z := (List.singleton_infix_iff ..).not.mp hnone
  show read p.dialect ((place.step p.dialect '-').step p.dialect '-') z = _
  rw [step_marker (.inl rfl) hfresh]
  show read p.dialect .line z = _
  clear hnone
  induction z with
  | nil => rfl
  | cons c z ih =>
      simp only [List.mem_cons, not_or] at hz
      rw [read_cons, step, if_neg (Ne.symm hz.1), ih hz.2]

theorem passes_block (p : Product) : Passes p block := by
  refine passes_of (fun z => .block (z.getLast? == some '*')) '/' rfl
    (fun place x y hfresh heq hx hy => read_marker (.inr rfl) hfresh heq hx hy)
    (fun place z hfresh hnone => ?_) (fun body => ?_) (by simp)
  · show read p.dialect ((place.step p.dialect '/').step p.dialect '*') z = _
    rw [step_marker (.inr rfl) hfresh]
    show read p.dialect (.block false) z = _
    induction z using List.reverseRecOn with
    | nil => rfl
    | append_singleton z c ih =>
        have hopen : ¬((z.getLast? == some '*') = true ∧ c = '/') := by
          rintro ⟨hstar, rfl⟩
          obtain ⟨z, rfl⟩ := List.getLast?_eq_some_iff.mp (beq_iff_eq.mp hstar)
          exact hnone ⟨z, [], by simp [Delimiter.block]⟩
        rw [read_append, ih fun hin => hnone (hin.trans (List.prefix_append ..).isInfix), read_cons,
          read_nil, step, if_neg hopen, List.getLast?_concat]
        rfl
  · have hstar : ((body ++ ['*']).getLast? == some '*') = true := by simp
    show step p.dialect (.block ((body ++ ['*']).getLast? == some '*')) '/' = _
    rw [hstar]
    rfl

theorem passes_of_known (h : d ∈ delimiters p.dialect) : Passes p d := by
  simp only [delimiters, standardDelimiters, List.mem_cons, List.not_mem_nil, or_false] at h
  rcases h with rfl | rfl | rfl | rfl | rfl
  · have hquote : identifierQuote p.dialect = quote p.dialect.openQuote := by cases p <;> rfl
    have hsame : p.dialect.closeQuote = p.dialect.openQuote := by cases p <;> rfl
    rw [hquote]
    exact passes_quote ((closing?_openQuote p).trans (congrArg some hsame))
  · exact passes_quote (by cases p <;> decide)
  · exact passes_quote (by cases p <;> decide)
  · exact passes_line p
  · exact passes_block p

end Runs

/-! ### The reader among the pieces -/

/-- Where the reader is in code, the text is cut between two of its pieces. -/
theorem reads_cut {place : Place} (h : Reads (delimiters p.dialect) cs ps) (hfresh : Fresh place cs)
    (hcs : cs = front ++ rest) (hrest : rest ≠ [])
    (hcode : place.read p.dialect front = .code none) :
    ∃ qs rs, ps = qs ++ rs ∧ qs.flatMap Piece.source = front ∧
      Reads (delimiters p.dialect) rest rs := by
  induction h generalizing place front with
  | nil => exact absurd (List.append_eq_nil_iff.mp hcs.symm).2 hrest
  | @code c more ps unopened hmore ih =>
      cases front with
      | nil =>
          rw [List.nil_append] at hcs
          exact ⟨[], _, rfl, rfl, hcs ▸ .code unopened hmore⟩
      | cons c' front =>
          obtain ⟨rfl, hmoreEq⟩ := List.cons.inj hcs
          obtain ⟨qs, rs, rfl, hsource, hreads⟩ := ih (fresh_step hfresh unopened) hmoreEq hcode
          exact ⟨.code c :: qs, rs, rfl, congrArg (c :: ·) hsource, hreads⟩
  | @run d text more ps known opens spans hmore ih =>
      obtain ⟨hout, hin⟩ := passes_of_known known _ _ _ hfresh spans
      rcases List.append_eq_append_iff.mp hcs with ⟨w, rfl, rfl⟩ | ⟨w, rfl, rfl⟩
      · -- The whole run has been read.
        rw [read_append, hout (by simp [hrest])] at hcode
        obtain ⟨qs, rs, rfl, hsource, hreads⟩ := ih (fresh_none _) rfl hcode
        exact ⟨.run d.kind text :: qs, rs, rfl, congrArg (text ++ ·) hsource, hreads⟩
      · by_cases hw : w = []
        · rw [hw, List.append_nil, List.nil_append]
          exact ⟨[.run d.kind front], ps, rfl, List.append_nil _, hmore⟩
        · by_cases hfront : front = []
          · rw [hfront] at spans opens ⊢
            exact ⟨[], _, rfl, rfl, .run known opens spans hmore⟩
          · exact absurd hcode (hin front w rfl hfront hw)

/-- Between two pieces of the text, the reader is in code. -/
theorem reads_code {place : Place} {qs rs : List Piece} (h : Reads (delimiters p.dialect) cs ps)
    (hfresh : Fresh place cs) (hps : ps = qs ++ rs) (hcs : cs = qs.flatMap Piece.source ++ rest)
    (hrest : rest ≠ []) : Fresh (place.read p.dialect (qs.flatMap Piece.source)) rest := by
  induction h generalizing place qs with
  | nil => exact absurd (List.append_eq_nil_iff.mp hcs.symm).2 hrest
  | @code c more ps unopened hmore ih =>
      cases qs with
      | nil =>
          rw [List.flatMap_nil, List.nil_append] at hcs
          exact hcs ▸ hfresh
      | cons q qs =>
          obtain ⟨rfl, hqs⟩ := List.cons.inj hps
          show Fresh ((place.step p.dialect c).read _ _) rest
          exact ih (fresh_step hfresh unopened) hqs (List.cons.inj hcs).2
  | @run d text more ps known opens spans hmore ih =>
      cases qs with
      | nil =>
          rw [List.flatMap_nil, List.nil_append] at hcs
          exact hcs ▸ hfresh
      | cons q qs =>
          obtain ⟨rfl, hqs⟩ := List.cons.inj hps
          rw [List.flatMap_cons, List.append_assoc] at hcs
          have hmoreEq := List.append_cancel_left hcs
          obtain ⟨hout, -⟩ := passes_of_known known _ _ _ hfresh spans
          rw [List.flatMap_cons, read_append]
          show Fresh ((place.read p.dialect text).read _ _) rest
          rw [hout (by simp [hmoreEq, hrest])]
          exact ih (fresh_none _) hqs hmoreEq

/-! ### Characters that open and close nothing -/

variable {d : Dialect}

/-- The character has no part in a quoted run's or a comment's beginning or end. -/
def Neutral (d : Dialect) (c : Char) : Prop :=
  c ∉ ['\n', '-', '/', '*'] ∧ closing? d c = none

instance (d : Dialect) (c : Char) : Decidable (Neutral d c) :=
  inferInstanceAs (Decidable (_ ∧ _))

theorem Neutral.unopened (h : Neutral p.dialect c) (rest : List Char) :
    Unopened (delimiters p.dialect) (c :: rest) := by
  obtain ⟨hmarks, hquotes⟩ := h
  have hne : ∀ {q : Char}, closing? p.dialect q ≠ none → q ≠ c := by
    rintro q hq rfl
    exact hq hquotes
  simp only [List.mem_cons, not_or] at hmarks
  simp only [Unopened, delimiters, standardDelimiters, List.forall_mem_cons]
  refine ⟨fun hp => ?_, fun hp => ?_, fun hp => ?_, fun hp => ?_, fun hp => ?_, by simp⟩
  · exact hne (by rw [closing?_openQuote]; simp) (List.cons_prefix_cons.mp hp).1
  · exact hne (by cases p <;> decide) (List.cons_prefix_cons.mp hp).1
  · exact hne (by cases p <;> decide) (List.cons_prefix_cons.mp hp).1
  · exact hmarks.2.1 (List.cons_prefix_cons.mp hp).1.symm
  · exact hmarks.2.2.1 (List.cons_prefix_cons.mp hp).1.symm

/-- Where such characters follow one another in code, they are code. -/
theorem reads_neutral (hneutral : ∀ c ∈ clause, Neutral p.dialect c)
    (h : Reads (delimiters p.dialect) (clause ++ back) ps) :
    ∃ rs, ps = clause.map .code ++ rs := by
  induction clause generalizing ps with
  | nil => exact ⟨ps, rfl⟩
  | cons c clause ih =>
      obtain ⟨hc, hclause⟩ := List.forall_mem_cons.mp hneutral
      generalize hcs : c :: clause ++ back = cs at h
      cases h with
      | nil => cases hcs
      | code unopened more =>
          obtain ⟨rfl, rfl⟩ := List.cons.inj hcs
          obtain ⟨rs, rfl⟩ := ih hclause more
          exact ⟨rs, rfl⟩
      | @run d text rest ps known opens spans more =>
          rw [← hcs] at opens
          exact absurd opens (hc.unopened _ d known)

namespace Place

variable {place : Place}

/-- Without what the character before has begun. -/
def settled : Place → Place
  | .code _ => .code none
  | .block _ => .block false
  | place => place

@[simp] theorem settled_settled (place : Place) : place.settled.settled = place.settled := by
  cases place <;> rfl

/-- A run is open only between quotes that the dialect has. -/
def Sound (d : Dialect) (place : Place) : Prop :=
  ∀ q, place = .quoted q → closing? d q = some q

theorem sound_code (d : Dialect) (pending : Option Char) : Sound d (.code pending) :=
  nofun

theorem Sound.settled (h : Sound d place) : Sound d place.settled := by
  cases place with
  | quoted q => exact h
  | _ => exact nofun

theorem Sound.step {p : Product} (h : Sound p.dialect place) (c : Char) :
    Sound p.dialect (place.step p.dialect c) := by
  intro q hq
  cases place with
  | code pending =>
      cases hc : closing? p.dialect c with
      | none =>
          simp only [Place.step, hc] at hq
          split_ifs at hq
      | some q' =>
          simp only [Place.step, hc] at hq
          split_ifs at hq
          cases hq
          obtain rfl := closing?_eq_some hc
          exact hc
  | quoted q' =>
      rw [Place.step] at hq
      split_ifs at hq
      cases hq
      exact h q rfl
  | line =>
      rw [Place.step] at hq
      split_ifs at hq
  | block afterStar =>
      rw [Place.step] at hq
      split_ifs at hq

theorem Sound.read {p : Product} (h : Sound p.dialect place) (cs : List Char) :
    Sound p.dialect (place.read p.dialect cs) := by
  induction cs generalizing place with
  | nil => exact h
  | cons c cs ih => exact ih (h.step c)

theorem Sound.step_neutral (h : Sound d place) (hc : Neutral d c) :
    place.step d c = place.settled := by
  obtain ⟨hmarks, hquotes⟩ := hc
  simp only [List.mem_cons, List.not_mem_nil, or_false, not_or] at hmarks
  obtain ⟨hline, hdash, hslash, hstar⟩ := hmarks
  cases place with
  | code pending => simp [Place.step, Place.settled, hquotes, hdash, hslash, hstar]
  | quoted q =>
      have hq : c ≠ q := by
        rintro rfl
        rw [h c rfl] at hquotes
        cases hquotes
      exact if_neg hq
  | line => exact if_neg hline
  | block afterStar => simp [Place.step, Place.settled, hslash, hstar]

theorem Sound.settled_read_neutral {p : Product} {glue : List Char} (h : Sound p.dialect place)
    (hglue : ∀ c ∈ glue, Neutral p.dialect c) :
    (place.read p.dialect glue).settled = place.settled := by
  induction glue generalizing place with
  | nil => rfl
  | cons c glue ih =>
      obtain ⟨hc, hglue⟩ := List.forall_mem_cons.mp hglue
      rw [read_cons, h.step_neutral hc, ih h.settled hglue, settled_settled]

theorem Sound.read_neutral {p : Product} {glue : List Char} (h : Sound p.dialect place)
    (hglue : ∀ c ∈ glue, Neutral p.dialect c) (hne : glue ≠ []) :
    place.read p.dialect glue = place.settled := by
  obtain ⟨glue, c, rfl⟩ := (List.eq_nil_or_concat' glue).resolve_left hne
  obtain ⟨hinit, hc⟩ := List.forall_mem_append.mp hglue
  rw [read_append, read_cons, read_nil, (h.read glue).step_neutral (hc c List.mem_cons_self),
    h.settled_read_neutral hinit]

end Place

/-- A clause that opens and closes nothing is code exactly if the reader is in code before it. -/
theorem isCode_iff (hclause : clause ≠ []) (hneutral : ∀ c ∈ clause, Neutral p.dialect c)
    (hc : Neutral p.dialect c) :
    IsCode p.dialect (front ++ [c]) clause back ↔
      (read p.dialect (.code none) (front ++ [c])).settled = .code none := by
  have hrest : clause ++ back ≠ [] := List.append_ne_nil_of_left_ne_nil hclause _
  constructor
  · intro hcode
    obtain ⟨ps, hps⟩ := exists_reads (delimiters p.dialect) (front ++ [c] ++ clause ++ back)
    obtain ⟨qs, rs, rfl, hsource⟩ := hcode ps hps
    rw [List.append_assoc] at hps
    obtain ⟨pending, hplace, -⟩ := reads_code hps (fresh_none _) (List.append_assoc ..)
      (by rw [hsource]) hrest
    rw [hsource] at hplace
    rw [hplace]
    rfl
  · intro hcode ps hps
    have hread : read p.dialect (.code none) (front ++ [c]) = .code none := by
      rw [read_append, read_cons, read_nil,
        ((sound_code _ none).read front).step_neutral hc] at hcode ⊢
      rwa [settled_settled] at hcode
    rw [List.append_assoc] at hps
    obtain ⟨qs, rs, rfl, hsource, hreads⟩ := reads_cut hps (fresh_none _) rfl hrest hread
    obtain ⟨rs, rfl⟩ := reads_neutral hneutral hreads
    exact ⟨qs, rs, (List.append_assoc ..).symm, hsource⟩

/-! ### Woven texts -/

/-- The texts stand in the whole one after the other, with generated text before each of them that
is not empty, and behind the last. -/
inductive Woven (d : Dialect) : (texts : List (List Char)) → (whole : List Char) → Prop
  | glue {glue : List Char} (neutral : ∀ c ∈ glue, Neutral d c) : Woven d [] glue
  | text {glue : List Char} {text : List Char} {texts : List (List Char)} {rest : List Char}
    (neutral : ∀ c ∈ glue, Neutral d c) (apart : glue = [] → text = [])
    (more : Woven d texts rest) : Woven d (text :: texts) (glue ++ text ++ rest)

namespace Woven

theorem behind {glue : List Char} (hglue : ∀ c ∈ glue, Neutral d c) (h : Woven d texts b) :
    Woven d texts (glue ++ b) := by
  cases h with
  | glue neutral => exact .glue (List.forall_mem_append.mpr ⟨hglue, neutral⟩)
  | text neutral apart more =>
      rw [← List.append_assoc, ← List.append_assoc]
      exact .text (List.forall_mem_append.mpr ⟨hglue, neutral⟩)
        (fun hnil => apart (List.append_eq_nil_iff.mp hnil).2) more

theorem append (ha : Woven d texts a) (hb : Woven d texts' b) :
    Woven d (texts ++ texts') (a ++ b) := by
  induction ha with
  | glue neutral => exact hb.behind neutral
  | text neutral apart more ih =>
      rw [List.append_assoc]
      exact .text neutral apart ih

theorem singleton {glue : List Char} (hglue : ∀ c ∈ glue, Neutral d c)
    (hapart : glue = [] → text = []) : Woven d [text] (glue ++ text) := by
  rw [← List.append_nil (glue ++ text)]
  exact .text hglue hapart (.glue nofun)

theorem empty (d : Dialect) : Woven d [[]] [] :=
  singleton (fun _ h => absurd h List.not_mem_nil) fun _ => rfl

end Woven

/-- Where the reader stands behind texts with generated text between them. -/
def readAll (d : Dialect) (place : Place) (texts : List (List Char)) : Place :=
  texts.foldl (fun place text => (place.read d text).settled) place

/-- Generated text may be skipped. -/
theorem read_woven {place : Place} (h : Woven p.dialect texts cs) (hplace : Sound p.dialect place) :
    (place.read p.dialect cs).settled = readAll p.dialect place.settled texts := by
  induction h generalizing place with
  | glue neutral => exact hplace.settled_read_neutral neutral
  | @text glue text texts rest neutral apart more ih =>
      by_cases hglue : glue = []
      · obtain rfl := hglue
        obtain rfl := apart rfl
        rw [List.nil_append, List.nil_append, ih hplace, readAll, readAll, List.foldl_cons,
          read_nil, settled_settled]
      · rw [read_append, read_append, hplace.read_neutral neutral hglue,
          ih (hplace.settled.read text)]
        rfl

/-- The text leaves no quoted run and no comment open. -/
def EndsInCode (d : Dialect) (text : List Char) : Prop :=
  (read d (.code none) text).settled = .code none

instance (d : Dialect) (text : List Char) : Decidable (EndsInCode d text) :=
  inferInstanceAs (Decidable (_ = _))

/-- Texts that leave nothing open by themselves leave nothing open one after the other. -/
theorem readAll_of_endsInCode (h : ∀ text ∈ texts, EndsInCode d text) :
    readAll d (.code none) texts = .code none := by
  induction texts with
  | nil => rfl
  | cons text texts ih =>
      obtain ⟨htext, htexts⟩ := List.forall_mem_cons.mp h
      rw [readAll, List.foldl_cons, htext]
      exact ih htexts

end SqlSession.Sql
