/-
The words that a written JSON text is cut into.

A punctuation mark, a blank and a quoted text end where they end, whatever follows: that is
`Cut`.  A number or a constant ends only where something else begins, so of it the same is
true before a text that does not go on with such a character: that is `CutApart`.  Both
compose along `++`, and a text that ends in a mark is `Cut` again.  So what is written between
brackets and commas can be read piece by piece.

A quoted text keeps its characters: each is read back from its escape, and `textOfPieces?_pieces`
says that the pieces stand for the text again, control characters included.
-/
import SqlSession.Proofs.Json.Numbers

namespace SqlSession.Json

variable {a b rest : List Char} {s t ts : List Token} {c : Char}

/-! ### Texts and their words -/

/-- The text is cut into the words, whatever follows. -/
def Cut (a : List Char) (s : List Token) : Prop :=
  ∀ rest, tokensFrom? .between (a ++ rest) = (tokensFrom? .between rest).map (s ++ ·)

/-- What follows goes on with neither a number nor a constant. -/
def Parted (rest : List Char) : Prop :=
  ∀ c ∈ rest.head?, isNumberChar c = false ∧ c.isLower = false

/-- The text is cut into the words before whatever does not go on with a number or a constant. -/
def CutApart (a : List Char) (s : List Token) : Prop :=
  ∀ rest, Parted rest →
    tokensFrom? .between (a ++ rest) = (tokensFrom? .between rest).map (s ++ ·)

theorem Cut.apart (h : Cut a s) : CutApart a s :=
  fun rest _ => h rest

theorem Cut.nil : Cut [] [] := by
  intro rest
  rw [List.nil_append]
  exact Option.map_id'.symm

theorem Cut.append (ha : Cut a s) (hb : Cut b t) : Cut (a ++ b) (s ++ t) := by
  intro rest
  rw [List.append_assoc, ha, hb, Option.map_map]
  congr 1
  funext ts
  exact (List.append_assoc s t ts).symm

theorem Cut.appendApart (ha : Cut a s) (hb : CutApart b t) : CutApart (a ++ b) (s ++ t) := by
  intro rest hrest
  rw [List.append_assoc, ha, hb rest hrest, Option.map_map]
  congr 1
  funext ts
  exact (List.append_assoc s t ts).symm

/-- A text that ends with a mark ends there. -/
theorem CutApart.append (ha : CutApart a s) (hb : Cut b t) (hne : b ≠ []) (hparted : Parted b) :
    Cut (a ++ b) (s ++ t) := by
  intro rest
  have hrest : Parted (b ++ rest) := by
    intro c hc
    rw [List.head?_append_of_ne_nil _ hne] at hc
    exact hparted c hc
  rw [List.append_assoc, ha _ hrest, hb, Option.map_map]
  congr 1
  funext ts
  exact (List.append_assoc s t ts).symm

/-- The words of a text that is cut. -/
theorem CutApart.tokens? {x : String} (h : CutApart x.toList s) : tokens? x = some s := by
  have := h [] (by intro c hc; cases hc)
  rw [List.append_nil] at this
  rw [Json.tokens?, this]
  exact congrArg some (List.append_nil s)

/-! ### Marks and blanks -/

theorem cut_mark (h : begin? c = some (s, .between)) : Cut [c] s := by
  intro rest
  show (begin? c).bind _ = _
  rw [h]
  rfl

theorem cut_blank (h : isSpace c = true) : Cut [c] [] :=
  cut_mark (by rw [begin?, if_pos h])

theorem cut_blanks (h : ∀ c ∈ a, isSpace c = true) : Cut a [] := by
  induction a with
  | nil => exact Cut.nil
  | cons c a ih =>
      exact (cut_blank (h c (List.mem_cons_self ..))).append
        (ih fun d hd => h d (List.mem_cons_of_mem _ hd))

/-! ### Quoted texts -/

/-- How a character is written inside quotes: by its code if it is a control character that has
no short escape, else by itself. -/
def pieceOf (c : Char) : Piece :=
  if c.toNat < 32 ∧ c.toNat ≠ 8 ∧ c.toNat ≠ 12 ∧ c ≠ '\n' ∧ c ≠ '\r' ∧ c ≠ '\t' then
    .unit c.toNat
  else .char c

/-- A text as it is written inside quotes. -/
def pieces (x : String) : List Piece :=
  x.toList.map pieceOf

theorem hexValue?_hexDigit : ∀ k < 16, hexValue? (hexDigit k) = some k := by
  decide

theorem tokensFrom?_of_step (next : Cutting) {state : Cutting}
    (h : state.step? c = some ([], next))
    (rest : List Char) : tokensFrom? state (c :: rest) = tokensFrom? next rest := by
  show (state.step? c).bind _ = _
  rw [h]
  exact Option.map_id'

theorem tokensFrom?_shortEscape {d : Char} (hc : c ≠ 'u') (hd : shortEscape? c = some d)
    (read : List Piece) (rest : List Char) :
    tokensFrom? (.quoted read) (['\\', c] ++ rest) =
      tokensFrom? (.quoted (.char d :: read)) rest := by
  have hlast : (Cutting.escape read).step? c = some ([], .quoted (.char d :: read)) := by
    show (if c = 'u' then _ else (shortEscape? c).map _) = _
    rw [if_neg hc, hd]
    rfl
  show tokensFrom? (.quoted read) ('\\' :: c :: rest) = _
  rw [tokensFrom?_of_step (.escape read) rfl, tokensFrom?_of_step _ hlast]

theorem step?_hexDigit (digits : Nat) (read : List Piece) (code : Nat) {k : Nat} (hk : k < 16)
    (hdigits : digits ≠ 3) :
    (Cutting.hex read digits code).step? (hexDigit k) =
      some ([], .hex read (digits + 1) (code * 16 + k)) := by
  show (hexValue? (hexDigit k)).map _ = _
  rw [hexValue?_hexDigit k hk, Option.map_some, if_neg hdigits]

theorem step?_lastHexDigit (read : List Piece) (code : Nat) {k : Nat} (hk : k < 16) :
    (Cutting.hex read 3 code).step? (hexDigit k) =
      some ([], .quoted (.unit (code * 16 + k) :: read)) := by
  show (hexValue? (hexDigit k)).map _ = _
  rw [hexValue?_hexDigit k hk, Option.map_some, if_pos rfl]

theorem tokensFrom?_codeEscape {k : Nat} (hk : k < 256) (read : List Piece) (rest : List Char) :
    tokensFrom? (.quoted read)
        (['\\', 'u', '0', '0', hexDigit (k / 16), hexDigit (k % 16)] ++ rest) =
      tokensFrom? (.quoted (.unit k :: read)) rest := by
  have hlast := step?_lastHexDigit read (k / 16) (k := k % 16) (by omega)
  rw [Nat.div_add_mod'] at hlast
  have hfirst := step?_hexDigit 2 read 0 (k := k / 16) (by omega) (by decide)
  rw [Nat.zero_mul, Nat.zero_add] at hfirst
  show tokensFrom? (.quoted read)
    ('\\' :: 'u' :: '0' :: '0' :: hexDigit (k / 16) :: hexDigit (k % 16) :: rest) = _
  rw [tokensFrom?_of_step (.escape read) rfl,
    tokensFrom?_of_step (.hex read 0 0) rfl,
    tokensFrom?_of_step (.hex read 1 0) rfl,
    tokensFrom?_of_step (.hex read 2 0) rfl, tokensFrom?_of_step _ hfirst,
    tokensFrom?_of_step _ hlast]

theorem tokensFrom?_unescaped (hquote : c ≠ '"') (hslash : c ≠ '\\') (hcontrol : ¬c.toNat < 32)
    (read : List Piece) (rest : List Char) :
    tokensFrom? (.quoted read) ([c] ++ rest) = tokensFrom? (.quoted (.char c :: read)) rest := by
  refine tokensFrom?_of_step _ ?_ rest
  show (if c = '"' then _ else if c = '\\' then _ else if c.toNat < 32 then none else _) = _
  rw [if_neg hquote, if_neg hslash, if_neg hcontrol]

theorem eq_of_toNat_eq {d : Char} (h : c.toNat = d.toNat) : c = d :=
  Char.ext (UInt32.toNat_inj.mp h)

/-- The escape of a character is read as its piece. -/
theorem tokensFrom?_escaped (c : Char) (read : List Piece) (rest : List Char) :
    tokensFrom? (.quoted read) (escaped c ++ rest) =
      tokensFrom? (.quoted (pieceOf c :: read)) rest := by
  unfold escaped
  by_cases hquote : c = '"'
  · rw [if_pos hquote, hquote]
    exact tokensFrom?_shortEscape (by decide) rfl read rest
  rw [if_neg hquote]
  by_cases hslash : c = '\\'
  · rw [if_pos hslash, hslash]
    exact tokensFrom?_shortEscape (by decide) rfl read rest
  rw [if_neg hslash]
  by_cases hb : c.toNat = 8
  · rw [if_pos hb, eq_of_toNat_eq (d := '\x08') hb]
    exact tokensFrom?_shortEscape (by decide) rfl read rest
  rw [if_neg hb]
  by_cases hf : c.toNat = 12
  · rw [if_pos hf, eq_of_toNat_eq (d := '\x0c') hf]
    exact tokensFrom?_shortEscape (by decide) rfl read rest
  rw [if_neg hf]
  by_cases hn : c = '\n'
  · rw [if_pos hn, hn]
    exact tokensFrom?_shortEscape (by decide) rfl read rest
  rw [if_neg hn]
  by_cases hr : c = '\r'
  · rw [if_pos hr, hr]
    exact tokensFrom?_shortEscape (by decide) rfl read rest
  rw [if_neg hr]
  by_cases ht : c = '\t'
  · rw [if_pos ht, ht]
    exact tokensFrom?_shortEscape (by decide) rfl read rest
  rw [if_neg ht, pieceOf]
  by_cases hcontrol : c.toNat < 32
  · rw [if_pos hcontrol, if_pos ⟨hcontrol, hb, hf, hn, hr, ht⟩]
    exact tokensFrom?_codeEscape (by omega) read rest
  · rw [if_neg hcontrol, if_neg fun h => hcontrol h.1]
    exact tokensFrom?_unescaped hquote hslash hcontrol read rest

theorem tokensFrom?_quoted (cs : List Char) (read : List Piece) (rest : List Char) :
    tokensFrom? (.quoted read) (cs.flatMap escaped ++ '"' :: rest) =
      (tokensFrom? .between rest).map (.text (read.reverse ++ cs.map pieceOf) :: ·) := by
  induction cs generalizing read with
  | nil =>
      rw [List.map_nil, List.append_nil]
      rfl
  | cons c cs ih =>
      rw [List.flatMap_cons, List.append_assoc, tokensFrom?_escaped, ih, List.map_cons,
        List.reverse_cons, List.append_assoc]
      rfl

theorem cut_quoted (x : String) : Cut (quoted x) [.text (pieces x)] := by
  intro rest
  show tokensFrom? .between ('"' :: ((x.toList.flatMap escaped ++ ['"']) ++ rest)) = _
  rw [List.append_assoc]
  show ((tokensFrom? (.quoted []) (x.toList.flatMap escaped ++ '"' :: rest)).map fun later =>
    [] ++ later) = _
  rw [tokensFrom?_quoted, Option.map_map]
  rfl

/-- The code of a control character stands for the character. -/
theorem charsOfPieces?_unit {k : Nat} (hk : k < 32) (ps : List Piece) :
    charsOfPieces? (.unit k :: ps) = (charsOfPieces? ps).map (Char.ofNat k :: ·) := by
  have hlow : ¬0xD800 ≤ k := by omega
  have hhigh : ¬0xDC00 ≤ k := by omega
  rcases ps with _ | ⟨d | low, ps⟩ <;> simp only [charsOfPieces?, hlow, hhigh, false_and, if_false]

theorem charsOfPieces?_pieceOf (cs : List Char) : charsOfPieces? (cs.map pieceOf) = some cs := by
  induction cs with
  | nil => rfl
  | cons c cs ih =>
      rw [List.map_cons, pieceOf]
      split
      next h => rw [charsOfPieces?_unit h.1, ih, Option.map_some, Char.ofNat_toNat]
      next h => rw [charsOfPieces?, ih, Option.map_some]

/-- A text is read back from what is written inside quotes. -/
@[simp] theorem textOfPieces?_pieces (x : String) : textOfPieces? (pieces x) = some x := by
  rw [textOfPieces?, pieces, charsOfPieces?_pieceOf, Option.map_some, String.ofList_toList]

/-! ### Numbers and constants -/

theorem tokensFrom?_numberChars {cs : List Char} (h : ∀ c ∈ cs, isNumberChar c = true)
    (read rest : List Char) :
    tokensFrom? (.number read) (cs ++ rest) = tokensFrom? (.number (cs.reverse ++ read)) rest := by
  induction cs generalizing read with
  | nil => rfl
  | cons c cs ih =>
      have hstep : (Cutting.number read).step? c = some ([], .number (c :: read)) :=
        if_pos (h c (List.mem_cons_self ..))
      rw [List.cons_append, tokensFrom?_of_step _ hstep,
        ih fun d hd => h d (List.mem_cons_of_mem _ hd), List.reverse_cons, List.append_assoc]
      rfl

theorem tokensFrom?_lowerChars {cs : List Char} (h : ∀ c ∈ cs, c.isLower = true)
    (read rest : List Char) :
    tokensFrom? (.word read) (cs ++ rest) = tokensFrom? (.word (cs.reverse ++ read)) rest := by
  induction cs generalizing read with
  | nil => rfl
  | cons c cs ih =>
      have hstep : (Cutting.word read).step? c = some ([], .word (c :: read)) :=
        if_pos (h c (List.mem_cons_self ..))
      rw [List.cons_append, tokensFrom?_of_step _ hstep,
        ih fun d hd => h d (List.mem_cons_of_mem _ hd), List.reverse_cons, List.append_assoc]
      rfl

/-- A word that is complete ends where something else begins. -/
theorem tokensFrom?_complete {state : Cutting} {w : Token} (hfinish : state.finish? = some [w])
    (hstep : ∀ c, isNumberChar c = false → c.isLower = false →
      state.step? c = (begin? c).map fun p => (w :: p.1, p.2))
    (hrest : Parted rest) :
    tokensFrom? state rest = (tokensFrom? .between rest).map (w :: ·) := by
  rcases rest with _ | ⟨c, rest⟩
  · exact hfinish
  · obtain ⟨hnumber, hlower⟩ := hrest c rfl
    show (state.step? c).bind _ = ((begin? c).bind _).map _
    rw [hstep c hnumber hlower]
    rcases begin? c with _ | ⟨ts, next⟩
    · rfl
    · show Option.map _ (tokensFrom? next rest) = Option.map _ (Option.map _ _)
      rw [Option.map_map]
      rfl

theorem isNumberChar_of_isDigit (h : c.isDigit = true) : isNumberChar c = true := by
  simp [isNumberChar, h]

theorem NumberLiteral.Canonical.isNumberChar {n : NumberLiteral} (h : n.Canonical)
    (hc : c ∈ n.chars) : isNumberChar c = true := by
  unfold NumberLiteral.chars at hc
  rcases List.mem_append.mp hc with hsign | hc
  · split at hsign
    · rw [List.mem_singleton.mp hsign]
      rfl
    · cases hsign
  rcases List.mem_append.mp hc with hwhole | hc
  · exact isNumberChar_of_isDigit (h.whole.2 c hwhole)
  rcases List.mem_append.mp hc with hfraction | hexponent
  · rcases hf : n.fraction with _ | digits
    · rw [hf] at hfraction
      cases hfraction
    · rw [hf] at hfraction
      rcases List.mem_cons.mp hfraction with rfl | hdigit
      · rfl
      · exact isNumberChar_of_isDigit ((h.fraction digits hf).2 c hdigit)
  · rcases he : n.exponent with _ | ⟨negative, digits⟩
    · rw [he] at hexponent
      cases hexponent
    · rw [he] at hexponent
      rcases List.mem_cons.mp hexponent with rfl | hc
      · rfl
      rcases List.mem_cons.mp hc with rfl | hdigit
      · cases negative <;> rfl
      · exact isNumberChar_of_isDigit ((h.exponent _ he).2 c hdigit)

/-- A literal begins like a number. -/
theorem NumberLiteral.Canonical.begin? {n : NumberLiteral} (h : n.Canonical) :
    ∃ c cs, n.chars = c :: cs ∧ begin? c = some ([], .number [c]) := by
  have hdigit : ∀ c : Char, c.isDigit = true → Json.begin? c = some ([], .number [c]) := by
    intro c hc
    have hne : ∀ d : Char, d.isDigit = false → c ≠ d := by
      intro d hd hcd
      rw [hcd, hd] at hc
      cases hc
    have hspace : isSpace c = false := by
      simp [isSpace, hne ' ' rfl, hne '\n' rfl, hne '\t' rfl, hne '\r' rfl]
    simp [Json.begin?, hspace, hc, hne '[' rfl, hne ']' rfl, hne '\x7b' rfl, hne '\x7d' rfl,
      hne ',' rfl, hne ':' rfl, hne '"' rfl]
  unfold NumberLiteral.chars
  cases n.negative with
  | true => exact ⟨'-', _, rfl, rfl⟩
  | false =>
      obtain ⟨c, cs, hcs⟩ := List.exists_cons_of_ne_nil h.whole.1
      rw [hcs]
      exact ⟨c, _, rfl, hdigit c (h.whole.2 c (hcs ▸ List.mem_cons_self ..))⟩

theorem cutApart_number (n : JsonNumber) : CutApart n.text.toList [.number n.literal] := by
  intro rest hrest
  have hparse := n.parse?_text
  rw [n.toList_text] at hparse ⊢
  obtain ⟨c, cs, hcs, hbegin⟩ := n.canonical_literal.begin?
  have hall : ∀ d ∈ cs, isNumberChar d = true := fun d hd =>
    n.canonical_literal.isNumberChar (hcs ▸ List.mem_cons_of_mem _ hd)
  rw [hcs] at hparse ⊢
  have hfirst : Cutting.between.step? c = some ([], .number [c]) := hbegin
  rw [List.cons_append, tokensFrom?_of_step _ hfirst, tokensFrom?_numberChars hall]
  have hread : NumberLiteral.parse? (cs.reverse ++ [c]).reverse = some n.literal := by
    rw [List.reverse_append, List.reverse_reverse]
    exact hparse
  refine tokensFrom?_complete ?_ ?_ hrest
  · show (NumberLiteral.parse? _).map _ = _
    rw [hread]
    rfl
  · intro d hd _
    show (if isNumberChar d then _ else _) = _
    rw [if_neg (by rw [hd]; decide), hread]
    rcases Json.begin? d with _ | p <;> rfl

theorem cutApart_constant {word : List Char} {w : Token} (hw : constant? word = some w)
    (hne : word ≠ []) (hlower : word.all Char.isLower = true)
    (hbegin : ∀ c ∈ word.head?, begin? c = some ([], .word [c])) : CutApart word [w] := by
  intro rest hrest
  obtain ⟨c, cs, rfl⟩ := List.exists_cons_of_ne_nil hne
  have hfirst : Cutting.between.step? c = some ([], .word [c]) := hbegin c rfl
  rw [List.cons_append, tokensFrom?_of_step _ hfirst,
    tokensFrom?_lowerChars fun d hd => List.all_eq_true.mp hlower d (List.mem_cons_of_mem _ hd)]
  have hread : constant? (cs.reverse ++ [c]).reverse = some w := by
    rw [List.reverse_append, List.reverse_reverse]
    exact hw
  refine tokensFrom?_complete ?_ ?_ hrest
  · show (constant? _).map _ = _
    rw [hread]
    rfl
  · intro d _ hd
    show (if d.isLower then _ else _) = _
    rw [if_neg (by rw [hd]; decide), hread]
    rcases Json.begin? d with _ | p <;> rfl

theorem cutApart_null : CutApart "null".toList [.null] :=
  cutApart_constant rfl nofun rfl (by intro c hc; cases hc; rfl)

theorem cutApart_bool (b : Bool) :
    CutApart (if b then "true" else "false").toList [.bool b] := by
  cases b <;> exact cutApart_constant rfl nofun rfl (by intro c hc; cases hc; rfl)

end SqlSession.Json
