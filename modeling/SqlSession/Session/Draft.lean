/-
Drafts.

A draft is a statement in the making: its parts, and its text once that is settled.  The
text is put together at most once; from then on the draft stands for that text, and parts
that are set later no longer reach it.
-/
import SqlSession.Sql.Statement

namespace SqlSession

namespace Sql

/-- The parts of an INSERT. -/
structure InsertParts where
  table : String := ""
  fields : List String := []
  deriving DecidableEq, Repr

/-- The parts of an UPDATE. -/
structure UpdateParts where
  table : String := ""
  fields : List String := []
  condition : String := ""
  deriving DecidableEq, Repr

/-- The parts of a DELETE. -/
structure DeleteParts where
  table : String := ""
  condition : String := ""
  deriving DecidableEq, Repr

end Sql

/-- A statement in the making. -/
structure Draft (Parts : Type) where
  parts : Parts
  text : Option String := none
  deriving DecidableEq, Repr

namespace Draft

variable {Parts : Type}

/-- The text of a draft: the one that is settled, or else the one compiled from its parts. -/
def compiled (compile : Parts → Except DbError String) (d : Draft Parts) : Except DbError String :=
  match d.text with
  | some text => .ok text
  | none => compile d.parts

/-- The draft with its text settled. -/
def settle (text : String) (d : Draft Parts) : Draft Parts :=
  { d with text := some text }

@[simp] theorem compiled_settle (compile : Parts → Except DbError String) (text : String)
    (d : Draft Parts) : (d.settle text).compiled compile = .ok text := rfl

end Draft

end SqlSession
