/-
Comments, and what a raw statement does.

A line comment runs from `--` to the end of the line and a block comment from `/*` to
the first `*/` behind it.  For finding out what a statement does, a comment counts as
one blank wherever its opening marker stands, inside quotes too.
-/
import SqlSession.Sql.Operation
import SqlSession.Text.Alphanumeric
import SqlSession.Text.Case

namespace SqlSession.Sql

/-- Where a reader of SQL stands with respect to comments. -/
inductive CommentState where
  /-- Outside comments. -/
  | code
  /-- In a line comment. -/
  | line
  /-- In a block comment, possibly behind a star. -/
  | block (afterStar : Bool)
  deriving DecidableEq

/-- The text with every comment replaced by one blank.  A comment that is never closed
takes the rest of the text with it. -/
def withoutComments : CommentState → List Char → List Char
  | .code, '-' :: '-' :: rest => ' ' :: withoutComments .line rest
  | .code, '/' :: '*' :: rest => ' ' :: withoutComments (.block false) rest
  | .code, c :: rest => c :: withoutComments .code rest
  | .line, c :: rest => withoutComments (if c = '\n' then .code else .line) rest
  | .block afterStar, c :: rest =>
    withoutComments (if afterStar ∧ c = '/' then .code else .block (c == '*')) rest
  | _, [] => []

/-- The maximal runs of word characters, with the empty ones between two separators. -/
def words (cs : List Char) : List (List Char) :=
  cs.splitOnP fun c => !Text.isWordChar c

/-- What a raw statement does: the first of its words, comments left out, that starts an
operation decides. -/
def classify (sql : String) : Operation :=
  let code := withoutComments .code sql.toList
  ((words code).findSome? fun word => Operation.ofKeyword? (Text.asciiLower word)).getD .none

end SqlSession.Sql
