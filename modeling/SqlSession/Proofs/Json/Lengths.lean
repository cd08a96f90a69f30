/-
What a JSON text has room for.

Each word is cut out of characters of its own, so a text is read only from a longer one, its quotes
added, and an integer only from one with as many digits: `length_of_parse?_text` and
`natAbs_of_parse?_int`.  `Within` follows a word from the characters it is made of, over the words,
to the tree.  It says something of texts and numbers only, since nothing is asked of the others,
and nothing of arrays and objects, so that of a whole tree only a single word is measured.
-/
import Mathlib.Data.List.TakeWhile
import SqlSession.Proofs.Json.Numbers

namespace SqlSession.Json

open DecimalLiteral (natOfDigits)

variable {c : Char} {cs : List Char} {s : String} {bound : Nat}

/-! ### Words -/

/-- As many characters hold the digits of a number before its point, or a text with quotes. -/
def Token.Within (bound : Nat) : Token → Prop
  | .number n => natOfDigits n.whole < 10 ^ bound
  | .text pieces => pieces.length + 2 ≤ bound
  | _ => True

theorem Token.Within.mono {more : Nat} {w : Token} (h : w.Within bound) (hle : bound ≤ more) :
    w.Within more := by
  cases w with
  | number n => exact Nat.lt_of_lt_of_le h (Nat.pow_le_pow_right (by decide) hle)
  | text pieces => exact Nat.le_trans h hle
  | _ => trivial

/-- The characters read of a word that is not complete. -/
def Cutting.size : Cutting → Nat
  | .between => 0
  | .number read | .word read => read.length
  | .quoted read | .escape read | .hex read _ _ => read.length + 1

/-- The digits before the point are digits of the text. -/
theorem within_of_ofBody? {negative : Bool} {n : NumberLiteral}
    (h : NumberLiteral.ofBody? negative cs = some n) : (Token.number n).Within cs.length := by
  have hwhole := NumberLiteral.whole_of_ofBody? h
  have hlength : n.whole.length ≤ cs.length := by
    rw [hwhole]
    exact (List.takeWhile_prefix _).length_le
  have hdigits : ∀ c ∈ n.whole, c.isDigit = true := by
    rw [hwhole]
    exact fun c => List.mem_takeWhile_imp
  exact Nat.lt_of_lt_of_le (Text.natOfDigits_lt hdigits) (Nat.pow_le_pow_right (by decide) hlength)

theorem within_of_numberParse? {n : NumberLiteral} (h : NumberLiteral.parse? cs = some n) :
    (Token.number n).Within cs.length := by
  by_cases hminus : cs.head? = some '-'
  · obtain ⟨body, rfl⟩ := List.head?_eq_some_iff.mp hminus
    rw [NumberLiteral.parse?_minus] at h
    exact (within_of_ofBody? h).mono (Nat.le_succ _)
  · rw [NumberLiteral.parse?_of_head hminus] at h
    exact within_of_ofBody? h

theorem within_of_constant? {word : List Char} {w : Token} (h : constant? word = some w) :
    w.Within bound := by
  unfold constant? at h
  repeat' split at h
  all_goals cases h
  all_goals trivial

theorem within_of_begin? {words : List Token} {next : Cutting}
    (h : begin? c = some (words, next)) : (∀ w ∈ words, w.Within bound) ∧ next.size ≤ 1 := by
  unfold begin? at h
  repeat' split at h
  all_goals cases h
  all_goals exact ⟨by simp [Token.Within], by simp [Cutting.size]⟩

/-- One more character makes no word longer by more than itself. -/
theorem within_of_step? {state next : Cutting} {words : List Token}
    (h : state.step? c = some (words, next)) :
    (∀ w ∈ words, w.Within (state.size + 1)) ∧ next.size ≤ state.size + 1 := by
  cases state with
  | between => exact within_of_begin? h
  | number read =>
      rw [Cutting.step?] at h
      split at h
      · cases h
        exact ⟨nofun, Nat.le_refl _⟩
      · split at h
        next n words' next' hn hbegin =>
          cases h
          obtain ⟨hwords, hnext⟩ := within_of_begin? hbegin
          have hnumber := within_of_numberParse? hn
          rw [List.length_reverse] at hnumber
          refine ⟨fun w hw => ?_, Nat.le_trans hnext (Nat.le_add_left _ _)⟩
          rcases List.mem_cons.mp hw with rfl | hw
          · exact hnumber.mono (Nat.le_succ _)
          · exact hwords w hw
        next => cases h
  | word read =>
      rw [Cutting.step?] at h
      split at h
      · cases h
        exact ⟨nofun, Nat.le_refl _⟩
      · split at h
        next w' words' next' hconstant hbegin =>
          cases h
          obtain ⟨hwords, hnext⟩ := within_of_begin? hbegin
          refine ⟨fun w hw => ?_, Nat.le_trans hnext (Nat.le_add_left _ _)⟩
          rcases List.mem_cons.mp hw with rfl | hw
          · exact within_of_constant? hconstant
          · exact hwords w hw
        next => cases h
  | quoted read =>
      rw [Cutting.step?] at h
      repeat' split at h
      all_goals cases h
      all_goals simp [Token.Within, Cutting.size]
  | escape read =>
      rw [Cutting.step?] at h
      split at h
      · cases h
        exact ⟨nofun, Nat.le_succ _⟩
      · obtain ⟨e, -, he⟩ := Option.map_eq_some_iff.mp h
        cases he
        exact ⟨nofun, Nat.le_refl _⟩
  | hex read digits code =>
      rw [Cutting.step?] at h
      obtain ⟨v, -, hv⟩ := Option.map_eq_some_iff.mp h
      split at hv
      · cases hv
        exact ⟨nofun, Nat.le_refl _⟩
      · cases hv
        exact ⟨nofun, Nat.le_succ _⟩

/-- No word is longer than what it is cut out of. -/
theorem within_of_tokensFrom? {state : Cutting} {words : List Token}
    (h : tokensFrom? state cs = some words) : ∀ w ∈ words, w.Within (state.size + cs.length) := by
  induction cs generalizing state words with
  | nil =>
      intro w hw
      rw [tokensFrom?] at h
      cases state with
      | between => cases h; cases hw
      | number read =>
          obtain ⟨n, hn, rfl⟩ := Option.map_eq_some_iff.mp h
          have hnumber := within_of_numberParse? hn
          rw [List.length_reverse] at hnumber
          rw [List.mem_singleton.mp hw]
          exact hnumber
      | word read =>
          obtain ⟨w', hw', rfl⟩ := Option.map_eq_some_iff.mp h
          rw [List.mem_singleton.mp hw]
          exact within_of_constant? hw'
      | quoted | escape | hex => cases h
  | cons c cs ih =>
      intro w hw
      rw [tokensFrom?] at h
      obtain ⟨⟨first, next⟩, hstep, hlater⟩ := Option.bind_eq_some_iff.mp h
      obtain ⟨later, hrest, rfl⟩ := Option.map_eq_some_iff.mp hlater
      obtain ⟨hfirst, hnext⟩ := within_of_step? hstep
      rw [List.length_cons]
      rcases List.mem_append.mp hw with hw | hw
      · exact (hfirst w hw).mono (by omega)
      · exact (ih hrest w hw).mono (by omega)

/-! ### Trees -/

/-- As many characters hold the tree, if it is a single word. -/
def Document.Within (bound : Nat) : Document → Prop
  | .number n => (Token.number n).Within bound
  | .text pieces => (Token.text pieces).Within bound
  | _ => True

theorem within_of_atom? {w : Token} {d : Document} (hw : w.Within bound)
    (h : Document.atom? w = some d) : d.Within bound := by
  cases w <;> cases h <;> exact hw

/-- As many characters hold the value that a state is about to give away. -/
def Document.Expecting.Within (bound : Nat) : Document.Expecting → Prop
  | .separator d => d.Within bound
  | _ => True

theorem within_of_documentStep? {state next : Document.Expecting}
    {stack stack' : List Document.Frame} {w : Token} (hw : w.Within bound)
    (h : Document.step? state stack w = some (next, stack')) : next.Within bound := by
  have hatom {frames : List Document.Frame}
      (ha : (Document.atom? w).map (fun d => (Document.Expecting.separator d, frames))
        = some (next, stack')) : next.Within bound := by
    obtain ⟨d, hd, hnext⟩ := Option.map_eq_some_iff.mp ha
    cases hnext
    exact within_of_atom? hw hd
  unfold Document.step? at h
  repeat' split at h
  all_goals first
    | exact hatom h
    | cases h; trivial
    | cases h

theorem within_of_ofTokensFrom? {state : Document.Expecting} {stack : List Document.Frame}
    {words : List Token} {d : Document} (hwords : ∀ w ∈ words, w.Within bound)
    (hstate : state.Within bound) (h : Document.ofTokensFrom? state stack words = some d) :
    d.Within bound := by
  induction words generalizing state stack with
  | nil =>
      unfold Document.ofTokensFrom? at h
      split at h
      · cases h
        exact hstate
      · cases h
  | cons w words ih =>
      rw [Document.ofTokensFrom?] at h
      obtain ⟨⟨next, stack'⟩, hstep, hrest⟩ := Option.bind_eq_some_iff.mp h
      exact ih (fun w hw => hwords w (List.mem_cons_of_mem _ hw))
        (within_of_documentStep? (hwords w (List.mem_cons_self ..)) hstep) hrest

/-- A text that is one word is no shorter than the word. -/
theorem Document.within_of_parse? {d : Document} (h : Document.parse? s = some d) :
    d.Within s.toList.length := by
  obtain ⟨words, hwords, htree⟩ := Option.bind_eq_some_iff.mp h
  have hfit := within_of_tokensFrom? hwords
  rw [Cutting.size, Nat.zero_add] at hfit
  have hstart : Document.Expecting.Within s.toList.length .value := trivial
  exact within_of_ofTokensFrom? hfit hstart htree

/-! ### Values -/

/-- One more character takes at least one more piece. -/
theorem length_of_map_cons {rest : Option (List Char)}
    (hrest : ∀ {ds : List Char}, rest = some ds → ds.length ≤ bound)
    (h : rest.map (c :: ·) = some cs) : cs.length ≤ bound + 1 := by
  obtain ⟨ds, hds, rfl⟩ := Option.map_eq_some_iff.mp h
  exact Nat.succ_le_succ (hrest hds)

theorem length_of_charsOfPieces? {pieces : List Piece} (h : charsOfPieces? pieces = some cs) :
    cs.length ≤ pieces.length := by
  fun_induction charsOfPieces? pieces generalizing cs
  case case1 => cases h; exact Nat.le_refl 0
  case case2 ih => exact length_of_map_cons ih h
  case case3 ih => exact Nat.le_succ_of_le (length_of_map_cons ih h)
  case case4 => cases h
  case case5 => cases h
  case case6 ih => exact length_of_map_cons ih h
  case case7 => cases h
  case case8 ih => exact length_of_map_cons ih h

theorem text_of_ofDocument? {k : Nat} {d : Document} {t : String}
    (h : ofDocument? k d = some (.text t)) :
    ∃ pieces, d = .text pieces ∧ textOfPieces? pieces = some t := by
  cases d with
  | text pieces =>
      rw [ofDocument?] at h
      obtain ⟨t', ht', heq⟩ := Option.map_eq_some_iff.mp h
      cases heq
      exact ⟨pieces, rfl, ht'⟩
  | _ => cases k <;> simp [ofDocument?] at h

theorem number_of_ofDocument? {k : Nat} {d : Document} {n : JsonNumber}
    (h : ofDocument? k d = some (.number n)) :
    ∃ literal, d = .number literal ∧ literal.toNumber? = some n := by
  cases d with
  | number literal =>
      rw [ofDocument?] at h
      obtain ⟨n', hn', heq⟩ := Option.map_eq_some_iff.mp h
      cases heq
      exact ⟨literal, rfl, hn'⟩
  | _ => cases k <;> simp [ofDocument?] at h

/-- A text is read from one that is longer by its quotes. -/
theorem length_of_parse?_text {t : String} (h : Json.parse? s = some (.text t)) :
    t.toList.length + 2 ≤ s.toList.length := by
  obtain ⟨d, hd, hvalue⟩ := Option.bind_eq_some_iff.mp h
  obtain ⟨pieces, rfl, ht⟩ := text_of_ofDocument? hvalue
  obtain ⟨cs, hcs, rfl⟩ := Option.map_eq_some_iff.mp ht
  rw [String.toList_ofList]
  exact Nat.le_trans (Nat.add_le_add_right (length_of_charsOfPieces? hcs) 2)
    (Document.within_of_parse? hd)

/-- An integer is what its digits say. -/
theorem natAbs_of_toNumber?_int {literal : NumberLiteral} {n : Int}
    {hle : -0x8000000000000000 ≤ n} {hlt : n < 0x10000000000000000}
    (h : literal.toNumber? = some (.int n hle hlt)) : n.natAbs = natOfDigits literal.whole := by
  have hofInt {m : Int} (hm : JsonNumber.ofInt? m = some (.int n hle hlt)) : n = m := by
    unfold JsonNumber.ofInt? at hm
    split at hm
    · cases hm
      rfl
    · cases hm
  unfold NumberLiteral.toNumber? at h
  dsimp only at h
  split at h
  · rw [hofInt h, Int.natAbs_natCast]
  · split at h
    · rw [hofInt h, Int.natAbs_neg, Int.natAbs_natCast]
    · obtain ⟨x, -, hx⟩ := Option.bind_eq_some_iff.mp h
      unfold JsonNumber.ofBinary64? at hx
      split at hx <;> cases hx

/-- An integer is read from as many digits as it has. -/
theorem natAbs_of_parse?_int {n : Int} {hle : -0x8000000000000000 ≤ n}
    {hlt : n < 0x10000000000000000} (h : Json.parse? s = some (.number (.int n hle hlt))) :
    n.natAbs < 10 ^ s.toList.length := by
  obtain ⟨d, hd, hvalue⟩ := Option.bind_eq_some_iff.mp h
  obtain ⟨literal, rfl, hnumber⟩ := number_of_ofDocument? hvalue
  rw [natAbs_of_toNumber?_int hnumber]
  exact Document.within_of_parse? hd

end SqlSession.Json
