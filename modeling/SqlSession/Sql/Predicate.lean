/-
Predicates and the row-number bound.

A predicate may bring its own clause keyword (`join`, `inner`, `where`, `group`), or it
is a bare condition that needs a `where` in front.  Where the dialect limits rows by row
number, the bound becomes part of the predicate: an existing condition goes into
parentheses, and the bound stands behind any join and before any `group by`.
-/
import SqlSession.Text.Alphanumeric
import SqlSession.Text.Blank
import SqlSession.Text.Case
import SqlSession.Text.Integer

namespace SqlSession.Sql

/-! ### What leads a predicate -/

/-- Where a reader stands in the blanks, comments and parentheses that lead a text. -/
inductive Lead where
  /-- Before the text proper. -/
  | code
  /-- In a line comment. -/
  | line
  /-- In a block comment, possibly behind a star. -/
  | block (afterStar : Bool)
  deriving DecidableEq

/-- The text without the blanks, comments and opening parentheses that lead it.  The star
that opens a block comment may be the one that closes it, and nothing is left of a text
whose leading comment is never closed. -/
def withoutLead : Lead → List Char → List Char
  | _, [] => []
  | .code, '-' :: '-' :: rest => withoutLead .line rest
  | .code, '/' :: '*' :: rest => withoutLead (.block true) rest
  | .code, '(' :: rest => withoutLead .code rest
  | .code, c :: rest => if Text.isBlank c then withoutLead .code rest else c :: rest
  | .line, c :: rest => withoutLead (if c = '\n' then .code else .line) rest
  | .block afterStar, c :: rest =>
    withoutLead (if afterStar ∧ c = '/' then .code else .block (c == '*')) rest

/-! ### Keywords -/

/-- The text begins with the keyword, the case of ASCII letters ignored, and the word ends
there. -/
def startsWithKeyword (keyword : List Char) (cs : List Char) : Bool :=
  Text.asciiLower (cs.take keyword.length) == keyword
    && !((cs.drop keyword.length).head?.any Text.isWordChar)

/-- A bare condition, which needs a `where` in front. -/
def needsWhere (predicate : List Char) : Bool :=
  let p := withoutLead .code predicate
  !(["join", "inner", "group", "where"].any fun keyword => startsWithKeyword keyword.toList p)

/-- The state of a search through text with quotes and parentheses. -/
structure Nesting where
  /-- How many parentheses are open; a closing one too many is ignored. -/
  depth : Nat := 0
  /-- The quote that the search is inside of. -/
  quote : Option Char := none
  /-- The character just passed continues a word. -/
  inWord : Bool := false

/-- The state behind one more character. -/
def Nesting.after (n : Nesting) (c : Char) : Nesting :=
  match n.quote with
  | some q => { n with quote := if c = q then none else some q, inWord := false }
  | none =>
    let inWord := Text.isWordChar c
    if c = '\'' ∨ c = '"' then { n with quote := some c, inWord }
    else if c = '(' then { n with depth := n.depth + 1, inWord }
    else if c = ')' then { n with depth := n.depth - 1, inWord }
    else { n with inWord }

/-- A keyword may begin here: outside quotes and parentheses, at the start of a word, and
at no quote or parenthesis itself. -/
def Nesting.admits (n : Nesting) (c : Char) : Bool :=
  n.quote.isNone && n.depth == 0 && !n.inWord && c != '\'' && c != '"' && c != '(' && c != ')'

/-- Search on from a state; `i` characters have been passed. -/
def findKeywordFrom (keyword : List Char) : Nesting → Nat → List Char → Option Nat
  | _, _, [] => none
  | n, i, c :: rest =>
    if n.admits c && startsWithKeyword keyword (c :: rest) then some i
    else findKeywordFrom keyword (n.after c) (i + 1) rest

/-- How many characters stand before the first whole-word `keyword` that lies outside
quotes and parentheses. -/
def findKeyword (keyword : List Char) (cs : List Char) : Option Nat :=
  findKeywordFrom keyword {} 0 cs

/-! ### The row-number bound -/

/-- The bound in the words of the dialect. -/
def rowNumberBound (limit : Nat) : List Char :=
  "rownum <= ".toList ++ Text.natDigits limit

/-- A condition, or the join with its condition, with the bound added. -/
def boundedCondition (limit : Nat) (head : List Char) : List Char :=
  match findKeyword "where".toList head with
  | some i =>
    head.take i ++ "where (".toList ++ Text.trim (head.drop (i + 5)) ++ ") and ".toList
      ++ rowNumberBound limit
  | none =>
    if head.isEmpty then "where ".toList ++ rowNumberBound limit
    else if needsWhere head then "where (".toList ++ head ++ ") and ".toList ++ rowNumberBound limit
    else head ++ " where ".toList ++ rowNumberBound limit

/-- A predicate with the bound added before its `group`, if it has one. -/
def boundedPredicate (limit : Nat) (predicate : List Char) : List Char :=
  match findKeyword "group".toList predicate with
  | some i =>
    boundedCondition limit (Text.trimEnd (predicate.take i)) ++ ' ' :: predicate.drop i
  | none => boundedCondition limit predicate

end SqlSession.Sql
