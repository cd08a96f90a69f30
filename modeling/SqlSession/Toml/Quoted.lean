/-
Quoted texts of TOML.

A basic text stands between double quotes and knows escapes; a literal text stands between
single quotes and is taken as it is.  Three quotes open a text of several lines: a line
break right behind them is not part of it, and up to two quotes may stand before the three
that close it.  Control characters, other than the tab and the breaks of such a text, are
refused.
-/
import SqlSession.Json.Token

namespace SqlSession.Toml

/-- A character that may stand in comments and in texts of one line. -/
def isPlain (c : Char) : Bool :=
  c == '\t' || (' ' ≤ c && c != '\x7f')

def isBlank (c : Char) : Bool :=
  c == ' ' || c == '\t'

/-- What a text is cut into: its characters and what stands behind it. -/
abbrev Cut := Option (List Char × List Char)

/-- Put a character in front of a text. -/
def Cut.cons (c : Char) (cut : Cut) : Cut :=
  cut.map fun (read, rest) => (c :: read, rest)

/-! ### Escapes -/

/-- What an escape of one character stands for. -/
def shortEscape? (c : Char) : Option Char :=
  if c = '"' ∨ c = '\\' then some c
  else if c = 'b' then some '\x08'
  else if c = 'e' then some '\x1b'
  else if c = 'f' then some '\x0c'
  else if c = 'n' then some '\n'
  else if c = 'r' then some '\r'
  else if c = 't' then some '\t'
  else none

/-- How many hexadecimal digits an escape is followed by. -/
def hexLength? (c : Char) : Option Nat :=
  if c = 'x' then some 2
  else if c = 'u' then some 4
  else if c = 'U' then some 8
  else none

/-- The character of a code point. -/
def charOf? (code : Nat) : Option Char :=
  if h : code.isValidChar then some (Char.ofNatAux code h) else none

/-- Where the reading of a basic text stands. -/
inductive Reading where
  | plain
  /-- Behind a backslash. -/
  | escape
  /-- In the digits of an escape. -/
  | hex (missing code : Nat)
  /-- In the blanks and line breaks that a backslash leaves out; whether there has been a
  break. -/
  | gap (broken : Bool)

/-- Another digit of an escape: its character, if it is the last. -/
def hexStep? (missing code : Nat) (c : Char) : Option (Option Char × Reading) :=
  (Json.hexValue? c).bind fun v =>
    if missing ≤ 1 then (charOf? (code * 16 + v)).map fun d => (some d, .plain)
    else some (none, .hex (missing - 1) (code * 16 + v))

/-- The character behind a backslash: what it stands for, or the digits to come. -/
def escapeStep? (c : Char) : Option (Option Char × Reading) :=
  match hexLength? c with
  | some n => some (none, .hex n 0)
  | none => (shortEscape? c).map fun d => (some d, .plain)

/-- Put the character that a step has read, if any, in front of a text. -/
def Cut.consOption (c : Option Char) (cut : Cut) : Cut :=
  match c with
  | some c => cut.cons c
  | none => cut

/-! ### Basic texts -/

/-- The rest of a basic text of one line. -/
def basicFrom? (state : Reading) : List Char → Cut
  | [] => none
  | c :: rest =>
    match state with
    | .plain =>
      if c = '"' then some ([], rest)
      else if c = '\\' then basicFrom? .escape rest
      else if isPlain c then (basicFrom? .plain rest).cons c
      else none
    | .escape =>
      (escapeStep? c).bind fun (read, next) => (basicFrom? next rest).consOption read
    | .hex missing code =>
      (hexStep? missing code c).bind fun (read, next) => (basicFrom? next rest).consOption read
    | .gap _ => none

/-- Whether a text begins with a blank or a line break. -/
def startsWithSpace : List Char → Bool
  | '\r' :: '\n' :: _ => true
  | c :: _ => isBlank c || c == '\n'
  | [] => false

/-- A line break of two characters continues here. -/
def isBreakStart (c : Char) (rest : List Char) : Bool :=
  c == '\r' && rest.head? == some '\n'

/-- The rest of a basic text of several lines. -/
def multilineBasicFrom? (state : Reading) : List Char → Cut
  | [] => none
  | c :: rest =>
    match state with
    | .plain =>
      match c, rest with
      | '"', '"' :: '"' :: '"' :: '"' :: rest => some (['"', '"'], rest)
      | '"', '"' :: '"' :: '"' :: rest => some (['"'], rest)
      | '"', '"' :: '"' :: rest => some ([], rest)
      | '\\', rest =>
        multilineBasicFrom? (if startsWithSpace rest then .gap false else .escape) rest
      | c, rest =>
        if isPlain c ∨ c = '\n' ∨ isBreakStart c rest then
          (multilineBasicFrom? .plain rest).cons c
        else none
    | .escape =>
      (escapeStep? c).bind fun (read, next) => (multilineBasicFrom? next rest).consOption read
    | .hex missing code =>
      (hexStep? missing code c).bind fun (read, next) =>
        (multilineBasicFrom? next rest).consOption read
    | .gap broken =>
      let broken := broken || c == '\n'
      if c = '\r' ∨ startsWithSpace rest then multilineBasicFrom? (.gap broken) rest
      else if broken then multilineBasicFrom? .plain rest
      else none

/-! ### Literal texts -/

/-- The rest of a literal text of one line. -/
def literalFrom? : List Char → Cut
  | [] => none
  | c :: rest =>
    if c = '\'' then some ([], rest)
    else if isPlain c then (literalFrom? rest).cons c
    else none

/-- The rest of a literal text of several lines. -/
def multilineLiteralFrom? : List Char → Cut
  | [] => none
  | '\'' :: '\'' :: '\'' :: '\'' :: '\'' :: rest => some (['\'', '\''], rest)
  | '\'' :: '\'' :: '\'' :: '\'' :: rest => some (['\''], rest)
  | '\'' :: '\'' :: '\'' :: rest => some ([], rest)
  | c :: rest =>
    if isPlain c ∨ c = '\n' ∨ isBreakStart c rest then (multilineLiteralFrom? rest).cons c
    else none

/-- The text without the line break that it begins with. -/
def withoutFirstBreak : List Char → List Char
  | '\n' :: rest => rest
  | '\r' :: '\n' :: rest => rest
  | cs => cs

/-- A quoted text at the start of what is to be read. -/
def quoted? : List Char → Cut
  | '"' :: '"' :: '"' :: rest => multilineBasicFrom? .plain (withoutFirstBreak rest)
  | '"' :: rest => basicFrom? .plain rest
  | '\'' :: '\'' :: '\'' :: rest => multilineLiteralFrom? (withoutFirstBreak rest)
  | '\'' :: rest => literalFrom? rest
  | _ => none

/-- A quoted text of one line at the start of what is to be read. -/
def quotedLine? : List Char → Cut
  | '"' :: rest => basicFrom? .plain rest
  | '\'' :: rest => literalFrom? rest
  | _ => none

end SqlSession.Toml
