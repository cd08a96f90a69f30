/-
Text and large text.

The two hold the same characters, and most of what is done with a value does not tell them apart.
But large text has no truth value, no date, no time of day and no point in time, so where a text is
read as one of these, large text with the same characters is not.  `large_text_iff` says that there
is no other difference: two views tell them apart, and conversion under the type codes of the four
kinds does, exactly where the text can be read.
-/
import SqlSession.Proofs.Value.Conversion
import SqlSession.Wire.Encoding

namespace SqlSession.Value

variable {s : String} {kind : ValueKind} {code : TypeCode}

/-- The text is a word for a truth value, blanks and case aside. -/
def IsTruthWord (s : String) : Prop :=
  String.ofList (Text.asciiLower (Text.trim s.toList)) ∈
    ["t", "true", "1", "y", "yes", "f", "false", "0", "n", "no"]

/-- The characters are read as a value of the kind, but only where they are text. -/
def OnlyAsText (s : String) : ValueKind → Prop
  | .bool => IsTruthWord s
  | .date => (Timestamp.parse? s).isSome ∨ (Date.parse? (Text.trim s.toList)).isSome
  | .time => (Clock.parse? (Text.trim s.toList)).isSome
  | .timestamp => (Timestamp.parse? s).isSome
  | .int | .float | .decimal | .text | .clob => False

/-- The same value, or both still the text. -/
def SameButForSize (s : String) (v w : Value) : Prop :=
  v = w ∨ v = .text s ∧ w = .clob s

/-! ### The two views -/

theorem asBool?_text_eq_none_iff : (Value.text s).asBool? = none ↔ ¬IsTruthWord s := by
  show truthOfWord? (String.ofList (Text.asciiLower (Text.trim s.toList))) = none ↔ _
  unfold truthOfWord? IsTruthWord
  generalize String.ofList (Text.asciiLower (Text.trim s.toList)) = word
  have hwords : word ∈ ["t", "true", "1", "y", "yes", "f", "false", "0", "n", "no"] ↔
      word ∈ ["t", "true", "1", "y", "yes"] ∨ word ∈ ["f", "false", "0", "n", "no"] :=
    List.mem_append (s := ["t", "true", "1", "y", "yes"])
  rw [hwords]
  split
  next htrue => exact iff_of_false nofun fun h => h (.inl htrue)
  next htrue =>
    rw [or_iff_right htrue]
    split
    next hfalse => exact iff_of_false nofun fun h => h hfalse
    next hfalse => exact iff_of_true rfl hfalse

theorem asDate?_text_eq_none_iff : (Value.text s).asDate? = none ↔ ¬OnlyAsText s .date := by
  unfold OnlyAsText asDate?
  cases h : Timestamp.parse? s <;> simp [h]

/-! ### Conversion -/

/-- Text and large text convert alike where the characters are no value of the kind. -/
theorem ofKind?_text_eq_iff :
    ofKind? kind (.text s) = ofKind? kind (.clob s) ↔ ¬OnlyAsText s kind := by
  cases kind with
  | bool =>
      show ((Value.text s).asBool?.map Value.bool) = none ↔ _
      rw [Option.map_eq_none_iff]
      exact asBool?_text_eq_none_iff
  | date =>
      show ((Value.text s).asDate?.map Value.date) = none ↔ _
      rw [Option.map_eq_none_iff]
      exact asDate?_text_eq_none_iff
  | time =>
      show ((Clock.parse? (Text.trim s.toList)).map Value.time) = none ↔ _
      rw [Option.map_eq_none_iff]
      exact Option.not_isSome_iff_eq_none.symm
  | timestamp =>
      show ((Timestamp.parse? s).map Value.timestamp) = none ↔ _
      rw [Option.map_eq_none_iff]
      exact Option.not_isSome_iff_eq_none.symm
  | int | float | decimal | text | clob => exact iff_of_true rfl id

/-- What becomes a value as text stays large text, and the value is neither text nor large text. -/
theorem exists_ofKind?_of_onlyAsText (h : OnlyAsText s kind) :
    ofKind? kind (.clob s) = none
      ∧ ∃ w, ofKind? kind (.text s) = some w ∧ w ≠ .text s ∧ w ≠ .clob s := by
  have hnone : ofKind? kind (.clob s) = none := by
    cases kind with
    | bool | date | time | timestamp => rfl
    | int | float | decimal | text | clob => exact h.elim
  obtain ⟨w, hw⟩ : ∃ w, ofKind? kind (.text s) = some w := by
    refine Option.ne_none_iff_exists'.mp fun htext => ?_
    exact ofKind?_text_eq_iff.mp (htext.trans hnone.symm) h
  have hkind := kind?_of_ofKind? hw
  refine ⟨hnone, w, hw, ?_, ?_⟩
  · rintro rfl
    cases hkind
    exact h
  · rintro rfl
    cases hkind
    exact h

theorem sameButForSize_convertTo_iff :
    SameButForSize s ((Value.text s).convertTo code) ((Value.clob s).convertTo code) ↔
      ∀ kind, code.kind? = some kind → ¬OnlyAsText s kind := by
  unfold convertTo
  cases code.kind? with
  | none => exact iff_of_true (.inr ⟨rfl, rfl⟩) nofun
  | some kind =>
      simp only [isNull, Option.some_inj, forall_eq']
      constructor
      · intro hsame honly
        obtain ⟨hclob, w, htext, hne, hne'⟩ := exists_ofKind?_of_onlyAsText honly
        rw [hclob, htext] at hsame
        rcases hsame with h | ⟨h, -⟩
        · exact hne' h
        · exact hne h
      · intro honly
        rw [ofKind?_text_eq_iff.mpr honly]
        cases ofKind? kind (.clob s) with
        | none => exact .inr ⟨rfl, rfl⟩
        | some w => exact .inl rfl

/-! ### Every use -/

/-- **Text and large text** are told apart by the views as a truth value and as a date, and by
conversion to a kind that text can be read as, exactly where it is read so; by nothing else. -/
theorem large_text_iff (s : String) :
    (Value.text s).asString? = (Value.clob s).asString?
      ∧ (Value.text s).asInt? = (Value.clob s).asInt?
      ∧ (Value.text s).asFloat? = (Value.clob s).asFloat?
      ∧ ((Value.text s).asBool? = (Value.clob s).asBool? ↔ ¬IsTruthWord s)
      ∧ ((Value.text s).asDate? = (Value.clob s).asDate? ↔ ¬OnlyAsText s .date)
      ∧ (Value.text s).toText? = (Value.clob s).toText?
      ∧ (Value.text s).display = (Value.clob s).display
      ∧ (Value.text s).normalize = (Value.clob s).normalize
      ∧ (∀ t, Wire.encode t (.text s) = Wire.encode t (.clob s))
      ∧ ∀ code : TypeCode,
          SameButForSize s ((Value.text s).convertTo code) ((Value.clob s).convertTo code) ↔
            ∀ kind, code.kind? = some kind → ¬OnlyAsText s kind :=
  ⟨rfl, rfl, rfl, asBool?_text_eq_none_iff, asDate?_text_eq_none_iff, rfl, rfl, rfl,
    fun _ => rfl, fun _ => sameButForSize_convertTo_iff⟩

/-- Under the code of truth values `yes` becomes one as text, and not as large text. -/
theorem large_yes_stays_text :
    (Value.text "yes").asBool? = some true ∧ (Value.clob "yes").asBool? = none
      ∧ (Value.text "yes").convertTo .boolean = .bool true
      ∧ (Value.clob "yes").convertTo .boolean = .clob "yes" := by
  decide +kernel

end SqlSession.Value
