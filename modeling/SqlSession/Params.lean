/-
Positional parameters.

Positions count from 1.  Writing beyond the end of the list fills the gap with NULL, so
the list is as long as the highest position written.
-/
import SqlSession.Error
import SqlSession.Value.Basic

namespace SqlSession.Params

/-- The list with `v` at the 0-based place `i`. -/
def put : List Value → Nat → Value → List Value
  | [], 0, v => [v]
  | [], i + 1, v => .null :: put [] i v
  | _ :: rest, 0, v => v :: rest
  | w :: rest, i + 1, v => w :: put rest i v

/-- Bind a value at a position. -/
def bindAt (params : List Value) (position : Nat) (v : Value) : Except DbError (List Value) :=
  match position with
  | 0 => .error (.other "parameter indexes are 1-based")
  | i + 1 => .ok (put params i v)

@[simp] theorem length_put (params : List Value) (i : Nat) (v : Value) :
    (put params i v).length = max params.length (i + 1) := by
  induction params generalizing i with
  | nil =>
    induction i with
    | zero => rfl
    | succ i ih => simp only [put, List.length_cons, ih, List.length_nil]; omega
  | cons w rest ih =>
    cases i with
    | zero => simp only [put, List.length_cons]; omega
    | succ i => simp only [put, List.length_cons, ih]; omega

/-- The place written holds the value written. -/
theorem getElem?_put_self (params : List Value) (i : Nat) (v : Value) :
    (put params i v)[i]? = some v := by
  induction params generalizing i with
  | nil =>
    induction i with
    | zero => rfl
    | succ i ih => simpa [put] using ih
  | cons w rest ih =>
    cases i with
    | zero => rfl
    | succ i => simpa [put] using ih i

/-- The other places that were there keep their values. -/
theorem getElem?_put_of_ne (params : List Value) {i j : Nat} (v : Value) (h : i ≠ j)
    (hj : j < params.length) : (put params i v)[j]? = params[j]? := by
  induction params generalizing i j with
  | nil => simp at hj
  | cons w rest ih =>
    cases i with
    | zero =>
      cases j with
      | zero => exact absurd rfl h
      | succ j => rfl
    | succ i =>
      cases j with
      | zero => rfl
      | succ j => simpa [put] using ih (by omega) (by simpa using hj)

end SqlSession.Params
