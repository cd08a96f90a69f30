/-
The integer that a value reads as.

A number is cut toward zero, and a text has to be an integer already.  The view is right for every
value that it says something about, with one exception: a double whose integer has no room in a
signed word, or that is no number at all, reads as the end of the range on its side, or as 0.
`integer_view_iff` says that there is no other, and follows the view to the places that it is used
in.  A count and an out parameter are what the view says.  An integer column gets what the view
says and can hold, and a value that has no such view is sent to it as the bytes of its own type,
which the server takes for an integer where they are as many as the column has.
-/
import SqlSession.Proofs.Number.IntegerText
import SqlSession.Proofs.Terminal
import SqlSession.Proofs.Wire.Acceptance
import SqlSession.Session.Procedure

namespace SqlSession

open Wire (FitsBytes ServerType decode? encode fitsBytes_toInt int? ownBytes)

variable {v : Value} {k : Int64} {q : ℚ} {s : String}

/-- A point is written where there is one. -/
theorem PlainNumber.mem_chars_iff (p : PlainNumber) : '.' ∈ p.chars ↔ p.point = true := by
  have hsign : '.' ∉ p.sign := by
    have h := p.sign_mem
    simp only [List.mem_cons, List.not_mem_nil, or_false] at h
    rcases h with h | h | h <;> simp [h]
  have hwhole : '.' ∉ p.whole := fun h => absurd (p.isDigit_whole _ h) (by decide)
  unfold chars body
  rw [List.mem_append, or_iff_right hsign, List.mem_append, or_iff_right hwhole]
  cases p.point <;> simp

namespace Value

/-- The value is the number.  A text is the number that is written in it, with blanks around it
left out. -/
def Denotes : Value → ℚ → Prop
  | .bool b, q => q = if b then 1 else 0
  | .int n, q => q = n.toInt
  | .float x, q => x.isFinite = true ∧ q = x.value
  | .decimal d, q => q = d.value
  | .text s, q | .clob s, q => ∃ p : PlainNumber, Text.trim s.toList = p.chars ∧ q = p.value
  | _, _ => False

/-- A text with a point. -/
def HasPoint : Value → Prop
  | .text s | .clob s => '.' ∈ Text.trim s.toList
  | _ => False

/-- The integer is what is left of the number that the value is. -/
def Truncates (v : Value) (k : Int64) : Prop :=
  ∃ q, v.Denotes q ∧ towardZero q = k.toInt

/-- The integer stands for a double that has none in a signed word. -/
def Saturates (v : Value) (k : Int64) : Prop :=
  ∃ x, v = .float x ∧ x.IsOutside ∧ k = x.clamped

/-! ### The view -/

theorem truncates_iff_of_denotes (h : ∀ q', v.Denotes q' ↔ q' = q) :
    v.Truncates k ↔ towardZero q = k.toInt :=
  ⟨fun ⟨_, hq, hk⟩ => (h _).mp hq ▸ hk, fun hk => ⟨q, (h q).mpr rfl, hk⟩⟩

/-- A double outside the range has no integer to be cut to. -/
theorem not_truncates_of_saturates {k' : Int64} (h : v.Saturates k) : ¬v.Truncates k' := by
  obtain ⟨x, rfl, hout, -⟩ := h
  rintro ⟨q, ⟨hfinite, rfl⟩, hk⟩
  exact hout hfinite (hk ▸ fitsWord_toInt k')

theorem not_saturates (hfloat : ∀ x, v ≠ .float x) : ¬v.Saturates k := by
  rintro ⟨x, hx, -⟩
  exact hfloat x hx

/-- Only a text has a point to trip over, and only a double is brought into range. -/
theorem truncates_alone (hpoint : ¬v.HasPoint) (hfloat : ∀ x, v ≠ .float x) :
    v.Truncates k ∧ ¬v.HasPoint ∨ v.Saturates k ↔ v.Truncates k := by
  rw [or_iff_left (not_saturates hfloat), and_iff_left hpoint]

theorem asInt?_float_iff {x : Binary64} :
    (Value.float x).asInt? = some k ↔
      (Value.float x).Truncates k ∨ (Value.float x).Saturates k := by
  show some x.toInt64 = some k ↔ _
  rw [Option.some_inj]
  by_cases hout : x.IsOutside
  · have hsaturates : (Value.float x).Saturates k ↔ x.clamped = k :=
      ⟨fun ⟨_, hx, _, hk⟩ => by cases hx; exact hk.symm, fun hk => ⟨x, rfl, hout, hk.symm⟩⟩
    have hnone : ¬(Value.float x).Truncates k :=
      not_truncates_of_saturates ⟨x, rfl, hout, rfl⟩
    rw [Binary64.toInt64_of_outside hout, or_iff_right hnone, hsaturates]
  · have hnone : ¬(Value.float x).Saturates k := by
      rintro ⟨_, hx, hout', -⟩
      cases hx
      exact hout hout'
    obtain ⟨hfinite, hfits⟩ : x.isFinite = true ∧ FitsWord (towardZero x.value) := by
      unfold Binary64.IsOutside at hout
      push Not at hout
      exact hout
    have hdenotes : ∀ q, (Value.float x).Denotes q ↔ q = x.value := fun _ =>
      and_iff_right hfinite
    rw [or_iff_left hnone, truncates_iff_of_denotes hdenotes, ← Int64.toInt_inj,
      Binary64.toInt_toInt64 hfinite hfits]

/-- A text reads as the integer that it is, if that is written without a point. -/
theorem readInt64_trimmed_iff :
    (Text.readInt64 (Text.trimmed s)).toOption = some k ↔
      (Value.text s).Truncates k ∧ ¬(Value.text s).HasPoint := by
  have hok : (Text.readInt64 (Text.trimmed s)).toOption = some k ↔
      Text.readInt64 (Text.trimmed s) = .ok k := by
    cases Text.readInt64 (Text.trimmed s) <;> simp [Except.toOption]
  have hpoint {p : PlainNumber} (hp : Text.trim s.toList = p.chars) :
      (Value.text s).HasPoint ↔ p.point = true := by
    rw [← p.mem_chars_iff, ← hp]
    rfl
  rw [hok, Text.readInt64_eq_ok_iff, Text.trimmed, String.toList_ofList]
  constructor
  · rintro ⟨p, hp, hfalse, hk⟩
    refine ⟨⟨p.value, ⟨p, hp, rfl⟩, by rw [hk, towardZero_intCast]⟩, ?_⟩
    rw [hpoint hp, hfalse]
    exact Bool.false_ne_true
  · rintro ⟨⟨q, ⟨p, hp, rfl⟩, hk⟩, hdot⟩
    rw [hpoint hp, Bool.not_eq_true] at hdot
    refine ⟨p, hp, hdot, ?_⟩
    rw [PlainNumber.value_of_point_false hdot, towardZero_intCast] at hk
    rw [PlainNumber.value_of_point_false hdot, hk]

/-- The view is right but for the doubles outside its range. -/
theorem asInt?_eq_some_iff :
    v.asInt? = some k ↔ v.Truncates k ∧ ¬v.HasPoint ∨ v.Saturates k := by
  cases v with
  | bool b =>
      have hdenotes : ∀ q, (Value.bool b).Denotes q ↔ q = (if b then 1 else 0 : Int64).toInt := by
        cases b <;> exact fun _ => Iff.rfl
      rw [truncates_alone id fun _ => Value.noConfusion, truncates_iff_of_denotes hdenotes,
        towardZero_intCast, Int64.toInt_inj]
      exact Option.some_inj
  | int n =>
      rw [truncates_alone id fun _ => Value.noConfusion,
        truncates_iff_of_denotes fun _ => Iff.rfl, towardZero_intCast, Int64.toInt_inj]
      exact Option.some_inj
  | float x =>
      have hpoint : ¬(Value.float x).HasPoint := id
      rw [and_iff_left hpoint]
      exact asInt?_float_iff
  | decimal d =>
      rw [truncates_alone id fun _ => Value.noConfusion,
        truncates_iff_of_denotes fun _ => Iff.rfl]
      exact Decimal.toInt64?_eq_some_iff
  | text s | clob s =>
      rw [or_iff_left (not_saturates fun _ => Value.noConfusion), asInt?]
      exact readInt64_trimmed_iff
  | _ =>
      rw [truncates_alone id fun _ => Value.noConfusion]
      simp [asInt?, Truncates, Denotes]

theorem isNull_iff : v.isNull = true ↔ v = .null := by
  cases v <;> simp [isNull]

end Value

/-! ### Counts and out parameters -/

/-- A count is what the view says of the first cell; without a row, and for NULL, it is 0. -/
theorem ResultSet.count_eq_ok_iff {rs : ResultSet} :
    rs.count = .ok k ↔
      k = 0 ∧ (rs.rest = [] ∨ ∃ row rows, rs.rest = (.null :: row) :: rows)
        ∨ ∃ v row rows, rs.rest = (v :: row) :: rows ∧ v.asInt? = some k := by
  unfold count
  rcases rs.rest with _ | ⟨_ | ⟨v, row⟩, rows⟩
  · simp [eq_comm]
  · simp
  · dsimp only
    cases hnull : v.isNull with
    | true =>
        rw [Value.isNull_iff.mp hnull, if_pos rfl]
        simp [Value.asInt?, eq_comm]
    | false =>
        have hv : v ≠ .null := fun hv => by rw [hv] at hnull; cases hnull
        rw [if_neg Bool.false_ne_true]
        cases hk : v.asInt? <;> simp [hv, hk]

namespace Session

variable {σ : Type} [Backend σ] {s : Session σ}

theorem queryCount_eq_ok_iff :
    (queryCount s).1 = .ok k ↔
      s.operation = .select
        ∧ ∃ rs labels, (runSelect s).1 = .ok (rs, labels) ∧ rs.count = .ok k := by
  unfold queryCount
  by_cases hs : s.operation = .select
  · rw [select?_of_select _ _ hs, and_iff_right hs]
    cases (runSelect s).1 with
    | error e => simp [Except.bind]
    | ok answer =>
        obtain ⟨rs, labels⟩ := answer
        constructor
        · intro h
          exact ⟨rs, labels, rfl, h⟩
        · rintro ⟨_, _, hanswer, h⟩
          cases hanswer
          exact h
  · rw [select?_of_ne _ _ hs]
    exact iff_of_false nofun fun h => hs h.1

theorem outView_eq_ok_some_iff {α : Type} {f : Value → Option α} {position : Nat} {a : α} :
    s.outView f position = .ok (some a) ↔
      ∃ v, s.outValue position = .ok (some v) ∧ f v = some a := by
  unfold outView
  rcases s.outValue position with e | _ | v <;> simp [Except.map]

end Session

/-! ### Integer columns -/

namespace Wire

variable {t : ServerType} {width : Nat} {b : Bytes}

/-- The value is written to a column of the type, and read from it as the integer. -/
def StoredAs (t : ServerType) (v : Value) (k : Int64) : Prop :=
  ∃ b, encode t v = .ok (some b) ∧ decode? t b = some (.int k)

theorem decode?_eq_int_iff (ht : t.intWidth? = some width) :
    decode? t b = some (.int k) ↔ int? width b = some k.toInt := by
  rw [decode?_of_intWidth ht]
  cases hn : int? width b with
  | none => exact iff_of_false nofun nofun
  | some n =>
      have hfits := fitsBytes_of_int? (intWidth_pos ht) hn
      rw [Option.map_some, Option.some_inj, Option.some_inj, Value.int.injEq, ← Int64.toInt_inj,
        toInt_ofInt_of_fits (intWidth_le ht) hfits]

/-- A value without an integer view is sent to an integer column in its own encoding. -/
theorem encode_of_not_hasIntView (ht : t.intWidth? = some width) (hnull : v.isNull = false)
    (hview : v.hasIntView = false) : encode t v = .ok (some (ownBytes v)) := by
  cases v <;> first | cases hview; done | cases hnull; done | (cases t <;> cases ht <;> rfl)

theorem storedAs_of_not_hasIntView (ht : t.intWidth? = some width) (hnull : v.isNull = false)
    (hview : v.hasIntView = false) : StoredAs t v k ↔ int? width (ownBytes v) = some k.toInt := by
  unfold StoredAs
  rw [encode_of_not_hasIntView ht hnull hview]
  simp [decode?_eq_int_iff ht]

theorem storedAs_of_hasIntView (ht : t.intWidth? = some width) (hview : v.hasIntView = true) :
    StoredAs t v k ↔ v.asInt? = some k ∧ FitsBytes width k.toInt := by
  unfold StoredAs
  simp only [decode?_eq_int_iff ht]
  constructor
  · rintro ⟨b, hb, hread⟩
    cases hn : v.asInt? with
    | none =>
        have hrefused := encode_of_asInt?_none ht hview hn
        rw [hb] at hrefused
        cases hrefused
    | some n =>
        rw [encode_of_asInt? ht hview hn, encodeInt_of_intWidth ht] at hb
        split at hb
        next hfits =>
          rw [← Option.some.inj (Except.ok.inj hb), int?_signedBytes (intWidth_pos ht) hfits,
            Option.some_inj, Int64.toInt_inj] at hread
          exact ⟨congrArg some hread, hread ▸ hfits⟩
        next => cases hb
  · rintro ⟨hk, hfits⟩
    refine ⟨signedBytes width k.toInt, ?_, int?_signedBytes (intWidth_pos ht) hfits⟩
    rw [encode_of_asInt? ht hview hk, encodeInt_of_intWidth ht, if_pos hfits]

/-- What an integer column stores is the integer that the value reads as, or what the bytes of
another value happen to say. -/
theorem storedAs_iff (ht : t.intWidth? = some width) :
    StoredAs t v k ↔
      v.asInt? = some k ∧ FitsBytes width k.toInt
        ∨ v.isNull = false ∧ v.hasIntView = false ∧ int? width (ownBytes v) = some k.toInt := by
  cases hview : v.hasIntView with
  | true =>
      rw [storedAs_of_hasIntView ht hview]
      simp
  | false =>
      have hnone : v.asInt? = none := by cases v <;> first | cases hview; done | rfl
      cases hnull : v.isNull with
      | true =>
          rw [Value.isNull_iff.mp hnull, StoredAs]
          simp [encode, Value.asInt?]
      | false =>
          rw [storedAs_of_not_hasIntView ht hnull hview, hnone]
          simp

end Wire

/-! ### Everywhere -/

open Session (queryCount runSelect) in
/-- **The integer view**: a value reads as the integer that is left of its number, or stands for a
double outside the range.  A count and an out parameter are what the view says, and an integer
column stores what it says and can hold, or what the bytes of another value happen to say. -/
theorem Value.integer_view_iff {σ : Type} [Backend σ] :
    (∀ (v : Value) k, v.asInt? = some k ↔ v.Truncates k ∧ ¬v.HasPoint ∨ v.Saturates k)
      ∧ (∀ (v : Value) k, v.Saturates k → ∀ k', ¬v.Truncates k')
      ∧ (∀ (s : Session σ) k, (queryCount s).1 = .ok k ↔
          s.operation = .select ∧ ∃ rs labels, (runSelect s).1 = .ok (rs, labels)
            ∧ (k = 0 ∧ (rs.rest = [] ∨ ∃ row rows, rs.rest = (.null :: row) :: rows)
              ∨ ∃ v row rows, rs.rest = (v :: row) :: rows ∧ v.asInt? = some k))
      ∧ (∀ (s : Session σ) position k, s.outView Value.asInt? position = .ok (some k) ↔
          ∃ v, s.outValue position = .ok (some v) ∧ v.asInt? = some k)
      ∧ ∀ (t : ServerType) width v k, t.intWidth? = some width →
          (Wire.StoredAs t v k ↔
            v.asInt? = some k ∧ FitsBytes width k.toInt
              ∨ v.isNull = false ∧ v.hasIntView = false
                ∧ int? width (ownBytes v) = some k.toInt) := by
  refine ⟨fun _ _ => asInt?_eq_some_iff, fun _ _ h _ => not_truncates_of_saturates h,
    fun s k => ?_, fun _ _ _ => Session.outView_eq_ok_some_iff,
    fun _ _ _ _ => Wire.storedAs_iff⟩
  simp only [Session.queryCount_eq_ok_iff, ResultSet.count_eq_ok_iff]

/-- The double 10^19 reads as the greatest integer and is stored as it, what is no number reads as
0, and the day 2020-08-14 is stored in four bytes as 7531. -/
theorem Value.integers_out_of_nothing :
    (∃ x : Binary64, x.value = 10 ^ 19 ∧ (Value.float x).asInt? = some 9223372036854775807
        ∧ (∀ k, ¬(Value.float x).Truncates k)
        ∧ Wire.StoredAs .int8 (.float x) 9223372036854775807)
      ∧ (∃ x : Binary64, x.isNaN = true ∧ (Value.float x).asInt? = some 0)
      ∧ ∃ d : Date, d.text = "2020-08-14" ∧ Wire.StoredAs .int4 (.date d) 7531 := by
  refine ⟨⟨⟨0x43E158E460913D00⟩, ?_⟩, ⟨⟨0x7FF8000000000000⟩, ?_⟩,
    ⟨⟨2020, 8, 14, by decide, by decide, by decide, by decide, by decide, by decide⟩, ?_⟩⟩
  · have hnumerator : Binary64.numerator ⟨0x43E158E460913D00⟩ = 10 ^ 19 := by decide +kernel
    have hdenominator : Binary64.denominator ⟨0x43E158E460913D00⟩ = 1 := by decide +kernel
    have hvalue : Binary64.value ⟨0x43E158E460913D00⟩ = 10 ^ 19 := by
      rw [Binary64.value, ← Binary64.numerator_div_denominator, hnumerator, hdenominator,
        if_neg (by decide)]
      norm_num
    have hout : Binary64.IsOutside ⟨0x43E158E460913D00⟩ := fun _ => by
      rw [← Binary64.truncate_eq]
      decide +kernel
    have hint : (Value.float ⟨0x43E158E460913D00⟩).asInt? = some 9223372036854775807 := by
      decide +kernel
    exact ⟨hvalue, hint, fun _ => not_truncates_of_saturates ⟨_, rfl, hout, rfl⟩,
      (Wire.storedAs_iff rfl).mpr (.inl ⟨hint, fitsBytes_toInt _⟩)⟩
  · exact ⟨by decide +kernel, by decide +kernel⟩
  · exact ⟨by decide +kernel, (Wire.storedAs_iff rfl).mpr (.inr ⟨rfl, rfl, by decide +kernel⟩)⟩

end SqlSession
