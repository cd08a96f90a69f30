/-
Conversion settles at once.

A type code describes one kind of value at most.  A value becomes one of that kind, or stays as it
is, and there is nothing left to convert in either: what is of the kind already stays
(`convertTo_of_kind?`), and what did not convert does not convert the second time.
-/
import SqlSession.Value.Conversion

namespace SqlSession.Value

variable {code : TypeCode} {kind : ValueKind} {v w : Value}

/-- The kind of the value among those that a conversion can aim at. -/
def kind? : Value → Option ValueKind
  | .bool _ => some .bool
  | .int _ => some .int
  | .float _ => some .float
  | .decimal _ => some .decimal
  | .text _ => some .text
  | .clob _ => some .clob
  | .date _ => some .date
  | .time _ => some .time
  | .timestamp _ => some .timestamp
  | .null | .timestampTz _ | .bytes _ | .json _ => none

/-- What converts is of the wanted kind. -/
theorem kind?_of_ofKind? (h : ofKind? kind v = some w) : w.kind? = some kind := by
  cases kind <;> (obtain ⟨_, -, rfl⟩ := Option.map_eq_some_iff.mp h; rfl)

/-- What is of the wanted kind already does not change. -/
theorem getD_ofKind?_of_kind? (h : v.kind? = some kind) : (ofKind? kind v).getD v = v := by
  cases v <;> cases h <;> rfl

theorem convertTo_of_kind? (hcode : code.kind? = some kind) (h : v.kind? = some kind) :
    v.convertTo code = v := by
  unfold convertTo
  rw [hcode]
  split
  · rfl
  · exact getD_ofKind?_of_kind? h

theorem convertTo_null (code : TypeCode) : Value.null.convertTo code = .null := rfl

/-- A value stays as it is or becomes one of the kind that the code describes. -/
theorem convertTo_eq_or_kind? (code : TypeCode) (v : Value) :
    v.convertTo code = v
      ∨ ∃ kind, code.kind? = some kind ∧ (v.convertTo code).kind? = some kind := by
  unfold convertTo
  split
  · exact .inl rfl
  cases hcode : code.kind? with
  | none => exact .inl rfl
  | some kind =>
      dsimp only
      cases hw : ofKind? kind v with
      | none => exact .inl rfl
      | some w => exact .inr ⟨kind, rfl, kind?_of_ofKind? hw⟩

/-- **Conversion settles**: converting twice is converting once, NULL stays NULL, and what is not
left as it is becomes a value of the one kind that the code describes. -/
theorem convertTo_settles (code : TypeCode) (v : Value) :
    (v.convertTo code).convertTo code = v.convertTo code
      ∧ Value.null.convertTo code = .null
      ∧ (v.convertTo code = v
        ∨ ∃ kind, code.kind? = some kind ∧ (v.convertTo code).kind? = some kind) := by
  refine ⟨?_, convertTo_null code, convertTo_eq_or_kind? code v⟩
  rcases convertTo_eq_or_kind? code v with hsame | ⟨kind, hcode, hkind⟩
  · rw [hsame, hsame]
  · exact convertTo_of_kind? hcode hkind

end SqlSession.Value
