/-
Records.

A row becomes a record: under each label the normal form of the cell that the label finds.
A label that occurs twice keeps its first place.
-/
import SqlSession.ResultSet
import SqlSession.Sql.Projection
import SqlSession.Value.Normal

namespace SqlSession

namespace Record

/-- The cells of a row put under labels, one label after the other. -/
def addCells (columns : List String) (row : List Value) :
    List String → Record → Except DbError Record
  | [], record => .ok record
  | label :: rest, record =>
    match ResultSet.cell columns row label with
    | .ok v => addCells columns row rest (Members.insert record label v.normalize)
    | .error e => .error e

/-- The record of a row. -/
def ofRow (columns labels : List String) (row : List Value) : Except DbError Record :=
  addCells columns row labels []

/-- The value of a field: under its full text, or else under what follows its first dot. -/
def value? (record : Record) (field : String) : Option Json :=
  match Members.get? record field with
  | some v => some v
  | none =>
    match field.toList.dropWhile (· != '.') with
    | _ :: column => Members.get? record (String.ofList column)
    | [] => none

/-- The record as JSON text. -/
def text (record : Record) : String :=
  (Json.object record).compact

end Record

namespace ResultSet

/-- The labels to read: those given, or else the columns. -/
def readLabels (rs : ResultSet) (labels : Option (List String)) : List String :=
  labels.getD rs.columns

/-- A record for each of the rows. -/
def recordsOfRows (columns labels : List String) :
    List (List Value) → Except DbError (List Record)
  | [] => .ok []
  | row :: rest =>
    match Record.ofRow columns labels row with
    | .error e => .error e
    | .ok record =>
      match recordsOfRows columns labels rest with
      | .error e => .error e
      | .ok records => .ok (record :: records)

/-- A record for each row that the cursor has not entered. -/
def records (rs : ResultSet) (labels : Option (List String)) : Except DbError (List Record) :=
  recordsOfRows rs.columns (rs.readLabels labels) rs.rest

/-- The record of the next row; without one it is empty. -/
def firstRecord (rs : ResultSet) (labels : Option (List String)) : Except DbError Record :=
  match rs.rest with
  | [] => .ok []
  | row :: _ => Record.ofRow rs.columns (rs.readLabels labels) row

/-- The first cell of the next row as a count; without a row, and for NULL, it is 0. -/
def count (rs : ResultSet) : Except DbError Int64 :=
  match rs.rest with
  | [] => .ok 0
  | [] :: _ => .error (.decode "1" "column index out of range")
  | (v :: _) :: _ =>
    if v.isNull then .ok 0
    else
      match v.asInt? with
      | some n => .ok n
      | none => .error (.decode "1" ("count is not an integer: " ++ v.display))

end ResultSet

/-- The labels under which a projection is read; none means the labels of the cursor. -/
def Sql.readLabels (d : Dialect) (fields : List String) (aliases : Option (List String)) :
    Except DbError (Option (List String)) :=
  if fields.isEmpty then .ok aliases
  else (Sql.resolveAliases d fields aliases).map some

end SqlSession
