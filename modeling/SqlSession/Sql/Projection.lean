/-
Fields and aliases.

A SELECT projects one alias for each field.  Explicit aliases have to be as many as the
fields; without them every field is its own alias, with underscores for its dots where
the dialect cannot look up dotted labels.
-/
import SqlSession.Sql.Dialect

namespace SqlSession.Sql

/-- The entries of a comma-separated list, trimmed, the empty ones left out. -/
def splitList (list : String) : List String :=
  ((list.toList.splitOnP (· == ',')).map Text.trim).filterMap fun entry =>
    if entry.isEmpty then none else some (String.ofList entry)

/-- Fields or aliases as a caller gives them. -/
inductive FieldList where
  /-- One text with commas between the entries. -/
  | text (joined : String)
  /-- The entries, taken as they are. -/
  | list (names : List String)
  deriving DecidableEq, Repr

/-- The entries that the caller means. -/
def FieldList.entries : FieldList → List String
  | .text joined => splitList joined
  | .list names => names

/-- The alias of a field that has no explicit one. -/
def defaultAlias (d : Dialect) (field : String) : String :=
  if d.dottedLabels then field
  else String.ofList (field.toList.map fun c => if c = '.' then '_' else c)

/-- The aliases of fields that have no explicit ones. -/
def defaultAliases (d : Dialect) (fields : List String) : List String :=
  fields.map (defaultAlias d)

/-- The aliases that a SELECT projects. -/
def resolveAliases (d : Dialect) (fields : List String) (aliases : Option (List String)) :
    Except DbError (List String) :=
  match aliases with
  | none => .ok (defaultAliases d fields)
  | some aliases =>
    if aliases.length = fields.length then .ok aliases
    else .error (.aliasCountMismatch fields.length aliases.length)

/-- A field followed by its quoted alias. -/
def projected (d : Dialect) (field label : String) : String :=
  match d.aliasStyle with
  | .as => field ++ " as " ++ d.quote label
  | .bare => field ++ " " ++ d.quote label

/-- What stands behind the first dot of a name, unless the dot is its first character. -/
def unqualified (field : String) : String :=
  match field.toList with
  | [] => field
  | c :: rest =>
    match rest.dropWhile (· != '.') with
    | _ :: column => if c = '.' then field else String.ofList column
    | [] => field

end SqlSession.Sql
