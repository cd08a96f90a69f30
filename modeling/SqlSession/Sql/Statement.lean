/-
Statement texts.

Pure functions from the parts of a statement to its SQL in one dialect.  The parts are
checked first, and the first that is missing is the error reported; table names, fields
and predicates go into the text as they are.
-/
import SqlSession.Sql.Predicate
import SqlSession.Sql.Projection

namespace SqlSession.Sql

/-- The parts of a SELECT. -/
structure SelectParts where
  fields : List String := []
  /-- Explicit aliases; without them they come from the fields. -/
  aliases : Option (List String) := none
  source : String := ""
  condition : String := ""
  order : String := ""
  /-- At most this many rows; 0 means all of them. -/
  limit : Nat := 0
  schema : String := ""
  deriving DecidableEq, Repr

/-- The schema, quoted and followed by a dot, if there is one. -/
def schemaQualifier (d : Dialect) (schema : String) : String :=
  if schema.isEmpty then "" else d.quote schema ++ "."

/-- The row limit where it stands before the fields. -/
def leadingLimit (d : Dialect) (limit : Nat) : String :=
  if limit = 0 then ""
  else
    match d.rowLimit with
    | .top => "top " ++ Text.intText limit ++ " "
    | .first => "first " ++ Text.intText limit ++ " "
    | _ => ""

/-- The row limit where it stands at the end. -/
def trailingLimit (d : Dialect) (limit : Nat) : String :=
  if limit ≠ 0 ∧ d.rowLimit = .limit then " limit " ++ Text.intText limit else ""

/-- The filter of a SELECT: its predicate, with a `where` or the row-number bound added as
the dialect and the predicate demand. -/
def selectFilter (d : Dialect) (limit : Nat) (condition : String) : String :=
  let predicate := Text.trim condition.toList
  if limit ≠ 0 ∧ d.rowLimit = .rowNumber then
    " " ++ String.ofList (boundedPredicate limit predicate)
  else if predicate.isEmpty then ""
  else if needsWhere predicate then " where " ++ String.ofList predicate
  else " " ++ String.ofList predicate

/-- A clause that is left out where its body is blank, and whose body is trimmed. -/
def optionalClause (keyword body : String) : String :=
  let body := Text.trimmed body
  if body.isEmpty then "" else keyword ++ body

/-- The text of a SELECT. -/
def compileSelect (d : Dialect) (parts : SelectParts) : Except DbError String :=
  if parts.fields.isEmpty then .error (.missingFields .select)
  else
    match resolveAliases d parts.fields parts.aliases with
    | .error e => .error e
    | .ok aliases =>
      if Text.isBlankText parts.source then .error .missingSource
      else
        let projection := ", ".intercalate (List.zipWith (projected d) parts.fields aliases)
        .ok <| "select " ++ leadingLimit d parts.limit ++ projection
          ++ " from " ++ schemaQualifier d parts.schema ++ Text.trimmed parts.source
          ++ selectFilter d parts.limit parts.condition
          ++ optionalClause " order by " parts.order
          ++ trailingLimit d parts.limit
          ++ (if d.nolockHint then " with (nolock)" else "")

/-- The text of an INSERT with one placeholder for each field. -/
def compileInsert (d : Dialect) (schema table : String) (fields : List String) :
    Except DbError String :=
  if Text.isBlankText table then .error .missingTableName
  else if fields.isEmpty then .error (.missingFields .insert)
  else
    .ok <| "insert into " ++ schemaQualifier d schema ++ table
      ++ " (" ++ ",".intercalate (fields.map unqualified) ++ ") values ("
      ++ ",".intercalate (fields.map fun _ => "?") ++ ")"

/-- The text of an UPDATE that sets each field to a placeholder. -/
def compileUpdate (d : Dialect) (schema table : String) (fields : List String)
    (condition : String) : Except DbError String :=
  if Text.isBlankText table then .error .missingTableName
  else if fields.isEmpty then .error (.missingFields .update)
  else
    .ok <| "update " ++ schemaQualifier d schema ++ table
      ++ " set " ++ ", ".intercalate (fields.map fun f => unqualified f ++ "=?")
      ++ optionalClause " where " condition

/-- The text of a DELETE. -/
def compileDelete (d : Dialect) (schema table condition : String) : Except DbError String :=
  if Text.isBlankText table then .error .missingTableName
  else
    .ok <| "delete from " ++ schemaQualifier d schema ++ table
      ++ optionalClause " where " condition

end SqlSession.Sql
