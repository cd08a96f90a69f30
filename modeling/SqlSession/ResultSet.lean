/-
Result sets.

A result set is the rows of an answer with a cursor, which begins before the first row.  A
column is read by its position, counted from 1, or by its label: a column with exactly that
label wins over the first whose label differs in the case of ASCII letters only.
-/
import SqlSession.Error
import SqlSession.Value.Basic

namespace SqlSession

/-- The rows of an answer with a cursor. -/
structure ResultSet where
  columns : List String := []
  rows : List (List Value) := []
  /-- How many rows the cursor has entered; beyond the number of rows once it has passed
  the last. -/
  position : Nat := 0
  deriving DecidableEq, Repr, Inhabited

namespace ResultSet

/-- No columns and no rows. -/
def empty : ResultSet := {}

/-- The cursor stands before the first of at least one row. -/
def isBeforeFirst (rs : ResultSet) : Bool :=
  rs.position == 0 && !rs.rows.isEmpty

/-- Go to the next row; the answer tells whether there is one. -/
def next (rs : ResultSet) : Bool × ResultSet :=
  if rs.position < rs.rows.length then (true, { rs with position := rs.position + 1 })
  else (false, { rs with position := rs.rows.length + 1 })

/-- Where a label is found among the columns, counted from 0. -/
def indexOf? (columns : List String) (label : String) : Option Nat :=
  match columns.findIdx? (· == label) with
  | some i => some i
  | none => columns.findIdx? fun c => Text.asciiCaseEq c label

/-- The index of a column, counted from 0. -/
def findColumn (rs : ResultSet) (label : String) : Option Nat :=
  indexOf? rs.columns label

/-- The row that the cursor is on. -/
def current (rs : ResultSet) : Except DbError (List Value) :=
  match rs.position with
  | 0 => .error (.noData "The result set has no current row")
  | i + 1 =>
    match rs.rows[i]? with
    | some row => .ok row
    | none => .error (.noData "The result set has no current row")

/-- The cell of a row under a label. -/
def cell (columns : List String) (row : List Value) (label : String) : Except DbError Value :=
  match (indexOf? columns label).bind fun i => row[i]? with
  | some v => .ok v
  | none => .error (.decode label "column not found")

/-- The cell of a row under a label as text; NULL has none. -/
def cellText (columns : List String) (row : List Value) (label : String) :
    Except DbError (Option String) :=
  (cell columns row label).map Value.toText?

/-- The cell of a row under a label as an integer; NULL is none. -/
def cellInt (columns : List String) (row : List Value) (label : String) :
    Except DbError (Option Int64) :=
  match cell columns row label with
  | .error e => .error e
  | .ok v =>
    if v.isNull then .ok none
    else
      match v.asInt? with
      | some n => .ok (some n)
      | none => .error (.decode label ("not an integer: " ++ v.display))

/-- The value at a position of the current row. -/
def getAt (rs : ResultSet) (position : Nat) : Except DbError Value :=
  match rs.current with
  | .error e => .error e
  | .ok row =>
    match (if position = 0 then none else row[position - 1]?) with
    | some v => .ok v
    | none => .error (.decode (Text.intText position) "column index out of range")

/-- The value under a label of the current row. -/
def get (rs : ResultSet) (label : String) : Except DbError Value :=
  match rs.current with
  | .error e => .error e
  | .ok row => cell rs.columns row label

/-- The value under a label as text; NULL has none. -/
def getText (rs : ResultSet) (label : String) : Except DbError (Option String) :=
  match rs.current with
  | .error e => .error e
  | .ok row => cellText rs.columns row label

/-- The value under a label as an integer; NULL is none. -/
def getInt (rs : ResultSet) (label : String) : Except DbError (Option Int64) :=
  match rs.current with
  | .error e => .error e
  | .ok row => cellInt rs.columns row label

/-- The rows that the cursor has not entered. -/
def rest (rs : ResultSet) : List (List Value) :=
  rs.rows.drop rs.position

/-- A row by its number, counted from 0, wherever the cursor stands. -/
def row? (rs : ResultSet) (i : Nat) : Option (List Value) :=
  rs.rows[i]?

end ResultSet

end SqlSession
