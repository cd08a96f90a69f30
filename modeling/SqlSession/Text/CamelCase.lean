/-
Camel case.

A name is first cut into words.  A word ends at every character that is neither a
letter nor a digit, between a lower-case and an upper-case character, and before the
last of a run of capitals when a lower-case character follows it, so that `HTTPServer`
is `HTTP` and `Server`.  Characters without case, digits among them, never end a run.

The words are then written one after the other, each with a capital first character
and the rest in lower case; in the lower camel form the first word has no capital.
A capital sigma that ends a word becomes the final small sigma.
-/
import SqlSession.Text.Alphanumeric
import SqlSession.Text.Case

namespace SqlSession.Text.CamelCase

/-- The case of the characters read so far in the current word. -/
inductive Trend where
  | unknown
  | lower
  | upper
  deriving DecidableEq

/-- The trend once `c` has been read; a character without case changes nothing. -/
def Trend.after (t : Trend) (c : Char) : Trend :=
  if isLowercase c then .lower else if isUppercase c then .upper else t

/-- Cut a run of alphanumeric characters into words.  `word` holds the current word,
last character first. -/
def humps : Trend → List Char → List Char → List (List Char)
  | _, _, [] => []
  | _, word, [c] => [(c :: word).reverse]
  | t, word, c :: next :: rest =>
    if t.after c = .lower ∧ isUppercase next then
      (c :: word).reverse :: humps .unknown [] (next :: rest)
    else if t = .upper ∧ isUppercase c ∧ isLowercase next then
      word.reverse :: humps .unknown [c] (next :: rest)
    else
      humps (t.after c) (c :: word) (next :: rest)

/-- The words of a name, in order. -/
def words (name : List Char) : List (List Char) :=
  (name.splitOnP fun c => !isAlphanumeric c).flatMap (humps .unknown [])

/-- A word in lower case; a capital sigma at its end becomes the final form. -/
def lowered : List Char → List Char
  | [] => []
  | ['Σ'] => ['ς']
  | c :: rest => lowercaseForm c ++ lowered rest

/-- A word with its first character in upper case and the rest in lower case. -/
def capitalized : List Char → List Char
  | [] => []
  | c :: rest => uppercaseForm c ++ lowered rest

/-- The name with every word capitalized. -/
def upper (name : String) : String :=
  String.ofList ((words name.toList).flatMap capitalized)

/-- The name with every word but the first capitalized. -/
def lower (name : String) : String :=
  String.ofList <|
    match words name.toList with
    | [] => []
    | first :: rest => lowered first ++ rest.flatMap capitalized

end SqlSession.Text.CamelCase
