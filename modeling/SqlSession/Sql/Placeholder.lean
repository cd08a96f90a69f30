/-
Numbered placeholders.

A question mark that stands in code is a placeholder, and each gets its number in order,
`$1` first.  Question marks in quoted runs and in comments stay.  A quoted run ends at the
next quote of its kind, a line comment at the end of the line, and the star that opens a
block comment may be the one that closes it.
-/
import SqlSession.Text.Integer

namespace SqlSession.Sql

/-- Where a reader of SQL stands with respect to quotes and comments. -/
inductive Region where
  /-- Outside quotes and comments. -/
  | code
  /-- In a run between two quotes of this kind. -/
  | quoted (quote : Char)
  /-- In a line comment. -/
  | line
  /-- In a block comment, possibly behind a star. -/
  | block (afterStar : Bool)
  deriving DecidableEq, Repr

/-- The region behind a character that is followed by `next`. -/
def Region.after (r : Region) (c : Char) (next : Option Char) : Region :=
  match r with
  | .code =>
    if c = '\'' ∨ c = '"' then .quoted c
    else if c = '-' ∧ next = some '-' then .line
    else if c = '/' ∧ next = some '*' then .block false
    else .code
  | .quoted q => if c = q then .code else .quoted q
  | .line => if c = '\n' then .code else .line
  | .block afterStar => if afterStar ∧ c = '/' then .code else .block (c == '*')

/-- The text with its placeholders numbered, when `count` of them have been passed. -/
def numberFrom (r : Region) (count : Nat) : List Char → List Char
  | [] => []
  | c :: rest =>
    if r = .code ∧ c = '?' then
      '$' :: (Text.natDigits (count + 1) ++ numberFrom .code (count + 1) rest)
    else c :: numberFrom (r.after c rest.head?) count rest

/-- The text with its placeholders numbered. -/
def numberPlaceholders (sql : String) : String :=
  String.ofList (numberFrom .code 0 sql.toList)

end SqlSession.Sql
