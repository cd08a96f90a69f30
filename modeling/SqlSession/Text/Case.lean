/-
Upper and lower case of every script.

The case maps are the unconditional ones of Unicode, so a character may have an
upper-case form of two or three characters.  No map here looks at the neighbours of
a character.
-/
import SqlSession.Text.Case.Table

namespace SqlSession.Text

open Case

/-- Unicode Lowercase. -/
def isLowercase (c : Char) : Bool :=
  if c.toNat < 0x80 then c.isLower else lowercaseRuns.any (·.contains c.toNat)

/-- Unicode Uppercase. -/
def isUppercase (c : Char) : Bool :=
  if c.toNat < 0x80 then c.isUpper else uppercaseRuns.any (·.contains c.toNat)

/-- Look a character up in a case map: first among the long forms, then in the runs. -/
private def mapCase (long : List (Nat × List Nat)) (runs : List (Run × Int)) (c : Char) :
    List Char :=
  match long.lookup c.toNat with
  | some form => form.map Char.ofNat
  | none =>
    match runs.find? (·.1.contains c.toNat) with
    | some (_, distance) => [Char.ofNat (c.toNat + distance).toNat]
    | none => [c]

/-- The lower-case form of a character. -/
def lowercaseForm (c : Char) : List Char :=
  if c.toNat < 0x80 then [c.toLower] else mapCase toLowerLong toLowerRuns c

/-- The upper-case form of a character. -/
def uppercaseForm (c : Char) : List Char :=
  if c.toNat < 0x80 then [c.toUpper] else mapCase toUpperLong toUpperRuns c

/-- The text with its ASCII letters in lower case. -/
def asciiLower (cs : List Char) : List Char :=
  cs.map Char.toLower

/-- Equality that ignores the case of ASCII letters. -/
def asciiCaseEq (s t : String) : Bool :=
  asciiLower s.toList == asciiLower t.toList

end SqlSession.Text
