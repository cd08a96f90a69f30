/-
The text of a JSON number.

A number literal is its parts: a sign, the digits in front of the point and behind it, and an
exponent.  `NumberLiteral.chars` puts the parts together again, and where they are such as the
grammar allows, reading the text gives the same parts back: `NumberLiteral.parse?_chars`.

`JsonNumber.literal` names the parts that a number is written with, in each of the layouts that
there are for an integer and for a double.  They are always such as the grammar allows, so a
number that is written is always read as its own literal, and `toNumber?_literal_int` says that
this is the same number again where it is an integer.  For a double that is not so: the literal
is always good, but its value is computed with an error.
-/
import Mathlib.Data.List.Basic
import SqlSession.Json.Printing
import SqlSession.Json.Reading
import SqlSession.Proofs.Text.Digits

namespace SqlSession

open Text

namespace Json

variable {cs ds rest : List Char} {c : Char} {n : NumberLiteral}

/-! ### Literals and their text -/

/-- The text of an exponent. -/
def exponentChars : Option (Bool × List Char) → List Char
  | none => []
  | some (negative, digits) => 'e' :: (if negative then '-' else '+') :: digits

/-- The text of what stands behind the point. -/
def fractionChars : Option (List Char) → List Char
  | none => []
  | some digits => '.' :: digits

/-- The text of a literal. -/
def NumberLiteral.chars (n : NumberLiteral) : List Char :=
  (if n.negative then ['-'] else []) ++
    (n.whole ++ (fractionChars n.fraction ++ exponentChars n.exponent))

/-- The parts of the literal are such as the grammar allows. -/
structure NumberLiteral.Canonical (n : NumberLiteral) : Prop where
  whole : IsDigits n.whole
  /-- A zero in front stands alone. -/
  zero : n.whole.head? = some '0' → n.whole.length = 1
  fraction : ∀ ds ∈ n.fraction, IsDigits ds
  exponent : ∀ e ∈ n.exponent, IsDigits e.2

theorem undigited_exponentChars (e : Option (Bool × List Char)) :
    Undigited (exponentChars e) := by
  intro c hc
  rcases e with _ | ⟨negative, digits⟩
  · cases hc
  · cases hc
    rfl

theorem undigited_fractionChars (f : Option (List Char)) (e : Option (Bool × List Char)) :
    Undigited (fractionChars f ++ exponentChars e) := by
  rcases f with _ | digits
  · exact undigited_exponentChars e
  · intro c hc
    cases hc
    rfl

theorem exponentOf?_exponentChars {e : Option (Bool × List Char)} (h : ∀ p ∈ e, IsDigits p.2) :
    exponentOf? (exponentChars e) = some e := by
  rcases e with _ | ⟨negative, digits⟩
  · rfl
  · obtain ⟨hne, hall⟩ := h _ rfl
    have hdigits : !digits.isEmpty ∧ digits.all Char.isDigit := by
      simpa [List.isEmpty_iff] using ⟨hne, hall⟩
    cases negative <;> simp [exponentChars, exponentOf?, hdigits.2, hne]

/-- Reading on behind the sign. -/
def NumberLiteral.ofBody? (negative : Bool) (body : List Char) : Option NumberLiteral :=
  let whole := body.takeWhile Char.isDigit
  let rest := body.dropWhile Char.isDigit
  if whole.isEmpty ∨ (whole.head? = some '0' ∧ whole.length ≠ 1) then none
  else
    match rest with
    | '.' :: tail =>
      let fraction := tail.takeWhile Char.isDigit
      if fraction.isEmpty then none
      else
        (exponentOf? (tail.dropWhile Char.isDigit)).map fun exponent =>
          ⟨negative, whole, some fraction, exponent⟩
    | _ => (exponentOf? rest).map fun exponent => ⟨negative, whole, none, exponent⟩

theorem NumberLiteral.whole_of_ofBody? {negative : Bool}
    (h : NumberLiteral.ofBody? negative cs = some n) : n.whole = cs.takeWhile Char.isDigit := by
  unfold NumberLiteral.ofBody? at h
  dsimp only at h
  split at h
  · cases h
  · split at h
    · split at h
      · cases h
      · obtain ⟨e, -, rfl⟩ := Option.map_eq_some_iff.mp h
        rfl
    · obtain ⟨e, -, rfl⟩ := Option.map_eq_some_iff.mp h
      rfl

theorem NumberLiteral.parse?_minus (cs : List Char) :
    NumberLiteral.parse? ('-' :: cs) = NumberLiteral.ofBody? true cs :=
  rfl

theorem NumberLiteral.parse?_of_head (h : cs.head? ≠ some '-') :
    NumberLiteral.parse? cs = NumberLiteral.ofBody? false cs := by
  unfold NumberLiteral.parse?
  split
  next negative body hsplit =>
    split at hsplit
    · exact absurd rfl h
    · cases hsplit
      rfl

theorem NumberLiteral.ofBody?_chars (h : n.Canonical) :
    NumberLiteral.ofBody? n.negative
      (n.whole ++ (fractionChars n.fraction ++ exponentChars n.exponent)) = some n := by
  obtain ⟨negative, whole, fraction, exponent⟩ := n
  obtain ⟨⟨hne, hall⟩, hzero, hfraction, hexponent⟩ := h
  have hwhole : ¬(whole.isEmpty = true ∨ (whole.head? = some '0' ∧ whole.length ≠ 1)) := by
    intro hbad
    rcases hbad with hempty | ⟨hhead, hlength⟩
    · exact hne (List.isEmpty_iff.mp hempty)
    · exact hlength (hzero hhead)
  unfold NumberLiteral.ofBody?
  rw [takeWhile_isDigit hall (undigited_fractionChars fraction exponent),
    dropWhile_isDigit hall (undigited_fractionChars fraction exponent)]
  show (if _ then none else _) = _
  rw [if_neg hwhole]
  have hexp : exponentOf? (exponentChars exponent) = some exponent :=
    exponentOf?_exponentChars hexponent
  cases fraction with
  | none =>
      show (match exponentChars exponent with | '.' :: tail => _ | _ => _) = _
      split
      next tail hdot =>
        -- an exponent does not begin with a point
        rcases exponent with _ | ⟨sign, digits⟩ <;> cases hdot
      next =>
        show (exponentOf? (exponentChars exponent)).map _ = _
        rw [hexp]
        rfl
  | some digits =>
      obtain ⟨hne', hall'⟩ := hfraction digits rfl
      show (if ((digits ++ exponentChars exponent).takeWhile Char.isDigit).isEmpty = true then none
        else (exponentOf? ((digits ++ exponentChars exponent).dropWhile Char.isDigit)).map fun e =>
          (⟨negative, whole, some ((digits ++ exponentChars exponent).takeWhile Char.isDigit), e⟩
            : NumberLiteral)) = _
      rw [takeWhile_isDigit hall' (undigited_exponentChars exponent),
        dropWhile_isDigit hall' (undigited_exponentChars exponent),
        if_neg (fun hempty => hne' (List.isEmpty_iff.mp hempty)), hexp]
      rfl

/-- A literal is read back from its text. -/
theorem NumberLiteral.parse?_chars (h : n.Canonical) :
    NumberLiteral.parse? n.chars = some n := by
  have hbody := NumberLiteral.ofBody?_chars h
  unfold NumberLiteral.chars
  cases hsign : n.negative with
  | true =>
      rw [hsign] at hbody
      exact hbody
  | false =>
      rw [hsign] at hbody
      have hhead : (n.whole ++ (fractionChars n.fraction ++ exponentChars n.exponent)).head? ≠
          some '-' := by
        rcases hw : n.whole with _ | ⟨c, whole⟩
        · exact absurd hw h.whole.1
        · intro hc
          cases hc
          exact absurd (h.whole.2 '-' (hw ▸ List.mem_cons_self ..)) (by decide)
      rw [if_neg Bool.false_ne_true, List.nil_append, NumberLiteral.parse?_of_head hhead, hbody]

end Json

open Json (NumberLiteral)

/-! ### The literal of a number -/

/-- The parts that a double is written with, given its shortest digits: all digits with a point
among, in front of or behind them, or one digit, the others and an exponent. -/
def DecimalLiteral.jsonLiteral (negative : Bool) (d : DecimalLiteral) : NumberLiteral :=
  let digits := natDigits d.digits
  let point : Int := digits.length + d.exponent
  if d.digits = 0 then ⟨negative, ['0'], some ['0'], none⟩
  else if -5 < point ∧ point ≤ 16 then
    if 0 ≤ d.exponent then
      ⟨negative, digits ++ List.replicate d.exponent.toNat '0', some ['0'], none⟩
    else if 0 < point then
      ⟨negative, digits.take point.toNat, some (digits.drop point.toNat), none⟩
    else ⟨negative, ['0'], some (List.replicate (-point).toNat '0' ++ digits), none⟩
  else
    ⟨negative, digits.take 1, if digits.length = 1 then none else some (digits.drop 1),
      some (decide (point - 1 < 0), natDigits (point - 1).natAbs)⟩

/-- The parts that a number is written with. -/
def JsonNumber.literal : JsonNumber → NumberLiteral
  | .int n _ _ => ⟨decide (n < 0), natDigits n.natAbs, none, none⟩
  | .double x _ => (x.shortest .even).jsonLiteral x.isNegative

theorem canonical_integer (negative : Bool) (k : Nat) :
    NumberLiteral.Canonical ⟨negative, natDigits k, none, none⟩ where
  whole := isDigits_natDigits k
  zero := by
    intro h
    rw [head?_natDigits h]
    rfl
  fraction := by
    intro ds hds
    cases hds
  exponent := by
    intro e he
    cases he

theorem canonical_point {negative : Bool} {whole fraction : List Char} (hwhole : IsDigits whole)
    (hzero : whole.head? = some '0' → whole.length = 1) (hfraction : IsDigits fraction) :
    NumberLiteral.Canonical ⟨negative, whole, some fraction, none⟩ where
  whole := hwhole
  zero := hzero
  fraction := by
    intro ds hds
    cases hds
    exact hfraction
  exponent := by
    intro e he
    cases he

/-- One digit stands in front of the exponent, with the others behind a point if there are any. -/
theorem canonical_exponent (negative below : Bool) (e : Nat) {digits : List Char}
    (hdigits : IsDigits digits) :
    NumberLiteral.Canonical ⟨negative, digits.take 1,
      if digits.length = 1 then none else some (digits.drop 1), some (below, natDigits e)⟩ where
  whole := hdigits.take Nat.one_pos
  zero := by
    intro _
    have := List.length_pos_iff.mpr hdigits.1
    rw [List.length_take]
    omega
  fraction := by
    intro ds hds
    have := List.length_pos_iff.mpr hdigits.1
    by_cases hone : digits.length = 1
    · rw [if_pos hone] at hds
      cases hds
    · rw [if_neg hone] at hds
      cases hds
      exact hdigits.drop (by omega)
  exponent := by
    intro e he
    cases he
    exact isDigits_natDigits _

theorem DecimalLiteral.canonical_jsonLiteral (negative : Bool) (d : DecimalLiteral) :
    (d.jsonLiteral negative).Canonical := by
  have hdigits := isDigits_natDigits d.digits
  unfold DecimalLiteral.jsonLiteral
  dsimp only
  by_cases hzero : d.digits = 0
  · rw [if_pos hzero]
    exact canonical_point isDigits_zero (fun _ => rfl) isDigits_zero
  rw [if_neg hzero]
  have hhead := head?_natDigits_ne hzero
  split
  · split
    · refine canonical_point (hdigits.append_right fun c => isDigit_of_mem_replicate) ?_ isDigits_zero
      intro h
      rw [List.head?_append_of_ne_nil _ hdigits.1] at h
      exact absurd h hhead
    · split
      · refine canonical_point (hdigits.take (by omega)) ?_ (hdigits.drop (by omega))
        intro h
        rw [List.head?_take, if_neg (by omega)] at h
        exact absurd h hhead
      · exact canonical_point isDigits_zero (fun _ => rfl)
          (hdigits.append_left fun c => isDigit_of_mem_replicate)
  · exact canonical_exponent _ _ _ hdigits

theorem JsonNumber.canonical_literal (n : JsonNumber) : n.literal.Canonical := by
  cases n with
  | int n hle hlt => exact canonical_integer _ _
  | double x hx => exact DecimalLiteral.canonical_jsonLiteral _ _

theorem toList_intText (n : Int) :
    (intText n).toList = (if n < 0 then ['-'] else []) ++ natDigits n.natAbs := by
  unfold intText
  split <;> simp

/-- The text of a double is made of the parts of its literal. -/
theorem Binary64.toList_jsonText (x : Binary64) :
    x.jsonText.toList = ((x.shortest .even).jsonLiteral x.isNegative).chars := by
  have hpos : 0 < (natDigits (x.shortest .even).digits).length :=
    List.length_pos_iff.mpr (natDigits_ne_nil _)
  have hsign : (if x.isNegative = true then "-" else "").toList =
      if x.isNegative = true then ['-'] else [] := by
    split <;> rfl
  unfold Binary64.jsonText DecimalLiteral.jsonLiteral
  dsimp only
  generalize x.shortest .even = d at hpos ⊢
  by_cases hzero : d.digits = 0
  · rw [if_pos hzero, if_pos hzero, String.toList_append, hsign]
    rfl
  rw [if_neg hzero, if_neg hzero]
  by_cases hpoint : -5 < ((natDigits d.digits).length : Int) + d.exponent ∧
      ((natDigits d.digits).length : Int) + d.exponent ≤ 16
  · rw [if_pos hpoint, if_pos hpoint, String.toList_append, String.toList_append, hsign,
      String.toList_ofList]
    unfold Binary64.positional
    dsimp only
    by_cases hexp : 0 ≤ d.exponent
    · rw [if_pos hexp, if_pos hexp, if_pos hexp, List.append_assoc]
      rfl
    · rw [if_neg hexp, if_neg hexp, if_neg hexp]
      by_cases hinside : 0 < ((natDigits d.digits).length : Int) + d.exponent
      · have hcut : (natDigits d.digits).length - (-d.exponent).toNat =
            (((natDigits d.digits).length : Int) + d.exponent).toNat := by omega
        rw [if_pos (show (-d.exponent).toNat < (natDigits d.digits).length by omega), if_pos hinside,
          hcut]
        simp [NumberLiteral.chars, Json.fractionChars, Json.exponentChars]
      · have hzeros : (-d.exponent).toNat - (natDigits d.digits).length =
            (-(((natDigits d.digits).length : Int) + d.exponent)).toNat := by omega
        rw [if_neg (show ¬(-d.exponent).toNat < (natDigits d.digits).length by omega),
          if_neg hinside, hzeros]
        simp [NumberLiteral.chars, Json.fractionChars, Json.exponentChars]
  · rw [if_neg hpoint, if_neg hpoint]
    generalize ((natDigits d.digits).length : Int) + d.exponent - 1 = e
    obtain ⟨c, rest, hc⟩ := List.exists_cons_of_ne_nil (natDigits_ne_nil d.digits)
    rw [hc]
    have hmark : (if e < 0 then "-" else "+").toList = [if e < 0 then '-' else '+'] := by
      split <;> rfl
    rcases rest with _ | ⟨c', rest⟩
    · simp [NumberLiteral.chars, Json.fractionChars, Json.exponentChars, hsign, hmark]
    · simp [NumberLiteral.chars, Json.fractionChars, Json.exponentChars, hsign, hmark]

theorem JsonNumber.toList_text (n : JsonNumber) : n.text.toList = n.literal.chars := by
  cases n with
  | int n hle hlt =>
      show (intText n).toList = _
      rw [toList_intText]
      simp [NumberLiteral.chars, JsonNumber.literal, Json.fractionChars, Json.exponentChars]
  | double x hx => exact Binary64.toList_jsonText x

/-- A number that is written is read as its literal. -/
theorem JsonNumber.parse?_text (n : JsonNumber) :
    NumberLiteral.parse? n.text.toList = some n.literal := by
  rw [n.toList_text, NumberLiteral.parse?_chars n.canonical_literal]

/-- The literal of an integer stands for the integer. -/
theorem JsonNumber.toNumber?_literal_int {n : Int} (hle : -0x8000000000000000 ≤ n)
    (hlt : n < 0x10000000000000000) :
    (JsonNumber.int n hle hlt).literal.toNumber? = some (.int n hle hlt) := by
  have hint : ∀ m : Int, m = n → JsonNumber.ofInt? m = some (.int n hle hlt) := by
    intro m hm
    subst hm
    exact dif_pos ⟨hle, hlt⟩
  unfold NumberLiteral.toNumber? JsonNumber.literal
  simp only [natOfDigits_natDigits, Option.isNone_none, Bool.and_self, Bool.true_and,
    Bool.and_eq_true, decide_eq_true_eq]
  by_cases hneg : n < 0
  · rw [if_neg (by simp [hneg]), if_pos (by simp [hneg]; omega)]
    exact hint _ (by omega)
  · rw [if_pos (by simp [hneg]; omega)]
    exact hint _ (by omega)

end SqlSession
