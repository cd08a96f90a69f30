/-
Numbers written without an exponent.

A `PlainNumber` is a number as people write it: a sign, digits, and a point among or around them.
The reader of decimals and the reader of doubles both take such a text whole, and they take the
same number from it: the decimal is the number that is written, `Decimal.parse?_chars`, and the
double is that number rounded once, `Binary64.exists_parse?_chars`.

The bounds, 96 bits in all the digits and 28 places, are those within which a decimal cuts nothing
off.
-/
import SqlSession.Number.Decimal.Reading
import SqlSession.Proofs.Number.DecimalValue
import SqlSession.Proofs.Text.Digits

namespace SqlSession

open DecimalLiteral (natOfDigits)
open Text (IsDigits)

/-- A number as it is written: a sign, the digits in front of the point, and those behind it.
Without a point nothing is behind it. -/
structure PlainNumber where
  sign : List Char
  whole : List Char
  point : Bool
  fraction : List Char
  sign_mem : sign ∈ [[], ['-'], ['+']]
  isDigits : IsDigits (whole ++ fraction)
  fraction_nil : point = false → fraction = []

namespace PlainNumber

variable (p : PlainNumber)

/-- What stands behind the sign. -/
def body : List Char :=
  p.whole ++ if p.point then '.' :: p.fraction else []

def chars : List Char :=
  p.sign ++ p.body

def negative : Bool :=
  p.sign == ['-']

/-- The number that the digits are without the point. -/
def mantissa : Nat :=
  natOfDigits (p.whole ++ p.fraction)

/-- How many digits stand behind the point. -/
def places : Nat :=
  p.fraction.length

/-- A decimal has room for all the digits. -/
def Fits : Prop :=
  p.mantissa < Decimal.mantissaLimit ∧ p.places ≤ 28

/-- The decimal that is written; zero has no sign. -/
def toDecimal (h : p.Fits) : Decimal :=
  ⟨p.negative && p.mantissa != 0, p.mantissa, p.places, h.1, h.2⟩

theorem isDigit_whole : ∀ c ∈ p.whole, c.isDigit = true :=
  fun c hc => p.isDigits.2 c (List.mem_append_left _ hc)

theorem isDigit_fraction : ∀ c ∈ p.fraction, c.isDigit = true :=
  fun c hc => p.isDigits.2 c (List.mem_append_right _ hc)

theorem head?_body : ∃ c, p.body.head? = some c ∧ (c.isDigit = true ∨ c = '.') := by
  unfold body
  rcases hwhole : p.whole with _ | ⟨c, whole⟩
  · by_cases hpoint : p.point = true
    · exact ⟨'.', by rw [if_pos hpoint]; rfl, .inr rfl⟩
    · have hnone := p.isDigits.1
      rw [hwhole, p.fraction_nil (by simpa using hpoint)] at hnone
      exact absurd rfl hnone
  · exact ⟨c, rfl, .inl (p.isDigit_whole c (by rw [hwhole]; exact List.mem_cons_self ..))⟩

/-- Readers of a sign see the body behind it. -/
theorem body_ne_cons {c : Char} (hc : c.isDigit = false) (hc' : c ≠ '.') (rest : List Char) :
    p.body ≠ c :: rest := by
  intro h
  obtain ⟨c', hhead, hdigit⟩ := p.head?_body
  rw [h, List.head?_cons, Option.some.injEq] at hhead
  subst hhead
  rcases hdigit with hdigit | hdot
  · exact Bool.noConfusion (hc.symm.trans hdigit)
  · exact hc' hdot

end PlainNumber

/-! ### Read as a decimal -/

namespace Decimal

/-- Digits that find room are read one after the other, in front of the point and behind it. -/
theorem readPlain_digits (negative point seen : Bool) (rest : List Char) {ds : List Char}
    (hds : ∀ c ∈ ds, c.isDigit = true) (mantissa scale : Nat)
    (hroom : mantissa * 10 ^ ds.length + natOfDigits ds < mantissaLimit)
    (hpoint : point = true → scale + ds.length ≤ 28) (hwhole : point = false → scale = 0) :
    readPlain negative point seen mantissa scale (ds ++ rest)
      = readPlain negative point (seen || !ds.isEmpty) (mantissa * 10 ^ ds.length + natOfDigits ds)
          (if point then scale + ds.length else 0) rest := by
  induction ds generalizing seen mantissa scale with
  | nil => cases point <;> simp_all [natOfDigits]
  | cons c ds ih =>
      have hc : c.isDigit = true := hds c (List.mem_cons_self ..)
      rw [Text.behind_cons] at hroom ⊢
      have hnext : mantissa * 10 + (c.toNat - 48) < mantissaLimit :=
        Nat.lt_of_le_of_lt (Text.le_behind _ ds) hroom
      have hplaces : ¬(point = true ∧ 28 ≤ scale) := by
        rintro ⟨hp, hfull⟩
        have := hpoint hp
        rw [List.length_cons] at this
        omega
      rw [List.cons_append, readPlain, Text.digitValue?, if_pos hc]
      show (if _ then _ else _) = _
      rw [if_pos ⟨hnext, hplaces⟩,
        ih _ (fun c' hc' => hds c' (List.mem_cons_of_mem _ hc')) _ _ hroom]
      · cases point
        · simp
        · simp only [if_true, List.length_cons, List.isEmpty_cons, Bool.not_false, Bool.or_true,
            Bool.true_or]
          congr 1
          omega
      · intro hp
        have := hpoint hp
        rw [List.length_cons] at this
        rw [if_pos hp]
        omega
      · intro hp
        rw [hp, if_neg Bool.false_ne_true]

variable (p : PlainNumber)

/-- The end of the text is reached with the digits in hand. -/
theorem readPlain_end (negative point : Bool) {mantissa scale : Nat}
    (hm : mantissa < mantissaLimit) (hs : scale ≤ 28) :
    readPlain negative point true mantissa scale []
      = some ⟨negative && mantissa != 0, mantissa, scale, hm, hs⟩ := by
  have hparts : ofParts? (negative && mantissa != 0) mantissa scale
      = some ⟨negative && mantissa != 0, mantissa, scale, hm, hs⟩ := dif_pos ⟨hm, hs⟩
  exact hparts

theorem readPlain_body (negative : Bool) (h : p.Fits) :
    readPlain negative false false 0 0 p.body
      = some ⟨negative && p.mantissa != 0, p.mantissa, p.places, h.1, h.2⟩ := by
  have hsplit : p.mantissa = natOfDigits p.whole * 10 ^ p.places + natOfDigits p.fraction :=
    Text.natOfDigits_append p.whole p.fraction
  have hroom := h.1
  rw [hsplit] at hroom
  have hwhole : natOfDigits p.whole < mantissaLimit :=
    Nat.lt_of_le_of_lt (Text.le_behind _ p.fraction) hroom
  have hread := readPlain_digits negative false false (if p.point then '.' :: p.fraction else [])
    p.isDigit_whole 0 0 (by simpa using hwhole)
    (fun h => absurd h (by decide)) (fun _ => rfl)
  rw [Nat.zero_mul, Nat.zero_add, if_neg Bool.false_ne_true] at hread
  rw [PlainNumber.body, hread]
  have hsome := p.isDigits.1
  by_cases hpoint : p.point = true
  · have hread' := readPlain_digits negative true (false || !p.whole.isEmpty) []
      p.isDigit_fraction (natOfDigits p.whole) 0 hroom
      (fun _ => by have := h.2; unfold PlainNumber.places at this; omega)
      (fun h => absurd h (by decide))
    have hseen : (false || !p.whole.isEmpty || !p.fraction.isEmpty) = true := by
      rcases hw : p.whole with _ | ⟨c, whole⟩
      · rw [hw] at hsome
        simpa using hsome
      · rfl
    rw [List.append_nil, hseen, if_pos rfl, Nat.zero_add, ← PlainNumber.places, ← hsplit] at hread'
    rw [if_pos hpoint]
    exact hread'.trans (readPlain_end ..)
  · have hnone := p.fraction_nil (by simpa using hpoint)
    have hseen : (false || !p.whole.isEmpty) = true := by
      rw [hnone, List.append_nil] at hsome
      simpa using hsome
    have hmantissa : natOfDigits p.whole = p.mantissa := by
      rw [PlainNumber.mantissa, hnone, List.append_nil]
    have hplaces : p.places = 0 := by
      rw [PlainNumber.places, hnone, List.length_nil]
    simp only [if_neg hpoint, hseen, hmantissa, hplaces]
    exact readPlain_end ..

theorem parse?_chars (h : p.Fits) :
    Decimal.parse? (String.ofList p.chars) = some (p.toDecimal h) := by
  have hbody := readPlain_body p p.negative h
  have hplain : parsePlain? p.chars = some (p.toDecimal h) := by
    rw [PlainNumber.toDecimal, ← hbody]
    unfold PlainNumber.chars PlainNumber.negative
    rcases List.mem_cons.mp p.sign_mem with hsign | hmem
    · rw [hsign, List.nil_append]
      unfold parsePlain?
      split
      next rest hminus => exact absurd hminus (p.body_ne_cons (by decide) (by decide) rest)
      next rest hplus => exact absurd hplus (p.body_ne_cons (by decide) (by decide) rest)
      next => rfl
    rcases List.mem_cons.mp hmem with hsign | hmem
    · rw [hsign]
      rfl
    · rw [List.mem_singleton.mp hmem]
      rfl
  unfold Decimal.parse?
  rw [String.toList_ofList, hplain]

end Decimal

/-! ### Read as a double -/

namespace Binary64

variable (p : PlainNumber)

theorem parse?_body : DecimalLiteral.parse? p.body = some ⟨p.mantissa, -p.places⟩ := by
  have hsome := p.isDigits.1
  have hend : Text.Undigited [] := by
    intro c hc
    cases hc
  unfold PlainNumber.body PlainNumber.mantissa PlainNumber.places DecimalLiteral.parse?
  by_cases hpoint : p.point = true
  · have hdot : Text.Undigited ('.' :: p.fraction) := by
      intro c hc
      cases hc
      rfl
    have htake := Text.takeWhile_isDigit p.isDigit_fraction hend
    have hdrop := Text.dropWhile_isDigit p.isDigit_fraction hend
    rw [List.append_nil] at htake hdrop
    rw [if_pos hpoint, Text.takeWhile_isDigit p.isDigit_whole hdot,
      Text.dropWhile_isDigit p.isDigit_whole hdot]
    simp only [htake, hdrop]
    rw [if_neg (by simpa using hsome)]
    simp [DecimalLiteral.exponentOf?]
  · have hnone := p.fraction_nil (by simpa using hpoint)
    rw [hnone, List.append_nil] at hsome
    rw [if_neg hpoint, Text.takeWhile_isDigit p.isDigit_whole hend,
      Text.dropWhile_isDigit p.isDigit_whole hend, hnone]
    simp [hsome, DecimalLiteral.exponentOf?]

/-- What is written is no word. -/
theorem asciiLower_body_ne {c : Char} (hc : c.isDigit = false) (hc' : c ≠ '.') (rest : List Char) :
    Text.asciiLower p.body ≠ c :: rest := by
  intro h
  obtain ⟨c', hhead, hdigit⟩ := p.head?_body
  have hlower : c'.toLower = c' := by
    rcases hdigit with hdigit | rfl
    · exact Text.toLower_of_isDigit hdigit
    · rfl
  have hsame : c' = c := by
    have hfirst := congrArg List.head? h
    rw [Text.asciiLower, List.head?_map, hhead, Option.map_some, hlower] at hfirst
    exact Option.some.inj hfirst
  subst hsame
  rcases hdigit with hdigit | hdot
  · exact Bool.noConfusion (hc.symm.trans hdigit)
  · exact hc' hdot

/-- Reading on behind the sign. -/
def ofBody? (negative : Bool) (body : List Char) : Option Binary64 :=
  let word := Text.asciiLower body
  if word = "inf".toList ∨ word = "infinity".toList then some (infinity negative)
  else if word = "nan".toList then some (notANumber negative)
  else (DecimalLiteral.parse? body).map (DecimalLiteral.toBinary64 negative)

theorem parse?_eq_ofBody? :
    Binary64.parse? (String.ofList p.chars) = ofBody? p.negative p.body := by
  unfold Binary64.parse? PlainNumber.chars PlainNumber.negative
  rw [String.toList_ofList]
  rcases List.mem_cons.mp p.sign_mem with hsign | hmem
  · rw [hsign, List.nil_append]
    split
    next negative body hsplit =>
      split at hsplit
      next rest hminus => exact absurd hminus (p.body_ne_cons (by decide) (by decide) rest)
      next rest hplus => exact absurd hplus (p.body_ne_cons (by decide) (by decide) rest)
      next =>
        cases hsplit
        rfl
  rcases List.mem_cons.mp hmem with hsign | hmem
  · rw [hsign]
    rfl
  · rw [List.mem_singleton.mp hmem]
    rfl

/-- The number that is written is read as the double nearest to it. -/
theorem parse?_chars :
    Binary64.parse? (String.ofList p.chars)
      = some (DecimalLiteral.toBinary64 p.negative ⟨p.mantissa, -p.places⟩) := by
  have hinf : ¬(Text.asciiLower p.body = "inf".toList ∨
      Text.asciiLower p.body = "infinity".toList) := by
    rintro (h | h)
    · exact asciiLower_body_ne p (by decide) (by decide) _ h
    · exact asciiLower_body_ne p (by decide) (by decide) _ h
  have hnan : ¬Text.asciiLower p.body = "nan".toList :=
    asciiLower_body_ne p (by decide) (by decide) _
  rw [parse?_eq_ofBody?]
  unfold ofBody?
  dsimp only
  rw [if_neg hinf, if_neg hnan, parse?_body, Option.map_some]

/-- Within the room of a decimal the double is the nearest to the digits over their places. -/
theorem toBinary64_of_fits (h : p.Fits) :
    DecimalLiteral.toBinary64 p.negative ⟨p.mantissa, -p.places⟩
      = ofRatio p.negative p.mantissa (10 ^ p.places) := by
  obtain ⟨hroom, hplaces⟩ := h
  have hlength : (Text.natDigits p.mantissa).length ≤ 29 :=
    (Text.length_natDigits_le_iff (by decide)).mpr (hroom.trans (by decide))
  unfold DecimalLiteral.toBinary64
  dsimp only
  by_cases hzero : p.mantissa = 0
  · rw [if_pos (.inl hzero), hzero]
    rfl
  · have hpower : (-(-(p.places : Int))).toNat = p.places := by omega
    have hnone : (-(p.places : Int)).toNat = 0 := by omega
    rw [if_neg (by omega), if_neg (by omega), hpower, hnone]
    simp [Nat.pow_eq]

/-- **Both readers take the same number** from a text: the double is the decimal, rounded once. -/
theorem exists_parse?_chars (h : p.Fits) :
    ∃ x, Binary64.parse? (String.ofList p.chars) = some x ∧ x.IsRounded (p.toDecimal h).value := by
  refine ⟨_, parse?_chars p, ?_⟩
  rw [toBinary64_of_fits p h]
  refine Decimal.isRounded_ofRatio (p.toDecimal h) ?_
  rcases Nat.eq_zero_or_pos p.mantissa with hzero | hpos
  · exact .inl hzero
  · refine .inr ?_
    show p.negative = (p.negative && p.mantissa != 0)
    rw [bne_iff_ne.mpr hpos.ne', Bool.and_true]

end Binary64

end SqlSession
