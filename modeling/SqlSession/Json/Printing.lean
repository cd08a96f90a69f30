/-
The text of a JSON value.

Two layouts: the compact one has no blanks, and the indented one has a line for each
element and member, two blanks deeper than the brackets around it.  In a text only the
quote, the backslash and the control characters are escaped, with the short escapes where
there are any.
-/
import SqlSession.Json.Value
import SqlSession.Number.Binary64.Shortest

namespace SqlSession

namespace JsonNumber

/-- The number in digits. -/
def text : JsonNumber → String
  | .int n _ _ => Text.intText n
  | .double x _ => x.jsonText

end JsonNumber

namespace Json

def hexDigit (n : Nat) : Char :=
  if n < 10 then Char.ofNat (48 + n) else Char.ofNat (87 + n)

/-- One character inside quotes. -/
def escaped (c : Char) : List Char :=
  if c = '"' then ['\\', '"']
  else if c = '\\' then ['\\', '\\']
  else if c.toNat = 8 then ['\\', 'b']
  else if c.toNat = 12 then ['\\', 'f']
  else if c = '\n' then ['\\', 'n']
  else if c = '\r' then ['\\', 'r']
  else if c = '\t' then ['\\', 't']
  else if c.toNat < 32 then
    ['\\', 'u', '0', '0', hexDigit (c.toNat / 16), hexDigit (c.toNat % 16)]
  else [c]

/-- A text between quotes. -/
def quoted (s : String) : List Char :=
  '"' :: (s.toList.flatMap escaped ++ ['"'])

/-! ### The compact layout -/

mutual

def compactChars : Json → List Char
  | .null => "null".toList
  | .bool b => (if b then "true" else "false").toList
  | .number n => n.text.toList
  | .text s => quoted s
  | .array elements => '[' :: (compactElements elements ++ [']'])
  | .object members => '\x7b' :: (compactMembers members ++ ['\x7d'])

def compactElements : List Json → List Char
  | [] => []
  | [e] => compactChars e
  | e :: rest => compactChars e ++ ',' :: compactElements rest

def compactMembers : List (String × Json) → List Char
  | [] => []
  | [(k, v)] => quoted k ++ ':' :: compactChars v
  | (k, v) :: rest => quoted k ++ ':' :: (compactChars v ++ ',' :: compactMembers rest)

end

/-- The value without blanks. -/
def compact (j : Json) : String :=
  String.ofList j.compactChars

/-! ### The indented layout -/

/-- A new line, `depth` levels deep. -/
def newLine (depth : Nat) : List Char :=
  '\n' :: List.replicate (2 * depth) ' '

mutual

def indentedChars (depth : Nat) : Json → List Char
  | .array (e :: rest) =>
    '[' :: (indentedElements (depth + 1) (e :: rest) ++ newLine depth ++ [']'])
  | .object (m :: rest) =>
    '\x7b' :: (indentedMembers (depth + 1) (m :: rest) ++ newLine depth ++ ['\x7d'])
  | .null => "null".toList
  | .bool b => (if b then "true" else "false").toList
  | .number n => n.text.toList
  | .text s => quoted s
  | .array [] => ['[', ']']
  | .object [] => ['\x7b', '\x7d']

def indentedElements (depth : Nat) : List Json → List Char
  | [] => []
  | [e] => newLine depth ++ indentedChars depth e
  | e :: rest => newLine depth ++ indentedChars depth e ++ ',' :: indentedElements depth rest

def indentedMembers (depth : Nat) : List (String × Json) → List Char
  | [] => []
  | [(k, v)] => newLine depth ++ quoted k ++ ':' :: ' ' :: indentedChars depth v
  | (k, v) :: rest =>
    newLine depth ++ quoted k ++ ':' :: ' ' :: (indentedChars depth v
      ++ ',' :: indentedMembers depth rest)

end

/-- The value with a line for each element and member. -/
def indented (j : Json) : String :=
  String.ofList (j.indentedChars 0)

end Json

end SqlSession
