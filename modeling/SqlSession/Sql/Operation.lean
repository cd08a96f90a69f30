/-
What a statement does.

A session builds one statement at a time; the operation says of which kind it is.
-/

namespace SqlSession

/-- The kind of statement that is being built, or none. -/
inductive Operation where
  | none
  | select
  | insert
  | update
  | delete
  | create
  | procedure
  deriving DecidableEq, Repr, Inhabited

namespace Operation

/-- The operation's name, as error messages show it. -/
def name : Operation → String
  | .none => "None"
  | .select => "Select"
  | .insert => "Insert"
  | .update => "Update"
  | .delete => "Delete"
  | .create => "Create"
  | .procedure => "Procedure"

/-- The operation that a keyword in lower case starts, if it is one of the five that do. -/
def ofKeyword? (word : List Char) : Option Operation :=
  if word = "select".toList then some .select
  else if word = "insert".toList then some .insert
  else if word = "update".toList then some .update
  else if word = "delete".toList then some .delete
  else if word = "create".toList then some .create
  else Option.none

end Operation

end SqlSession
