/-
The words of a JSON text.

Reading a JSON text starts with cutting it into brackets, punctuation, constants, numbers
and quoted texts.  A number is kept as the digits it is written with, and a quoted text as
its characters and escapes, because not every reader of the text looks at them: a half of
a surrogate pair, say, is an error only in a text that is used.
-/
import SqlSession.Number.Binary64.Reading

namespace SqlSession.Json

/-- One element of a quoted text. -/
inductive Piece where
  | char (c : Char)
  /-- An escape of four hexadecimal digits. -/
  | unit (code : Nat)
  deriving DecidableEq, Repr

/-- A number as it is written. -/
structure NumberLiteral where
  negative : Bool
  /-- The digits before the point. -/
  whole : List Char
  /-- The digits behind the point, if there is one. -/
  fraction : Option (List Char)
  /-- The exponent's sign and digits, if there is one. -/
  exponent : Option (Bool × List Char)
  deriving DecidableEq, Repr

/-- A word of a JSON text. -/
inductive Token where
  | beginArray
  | endArray
  | beginObject
  | endObject
  | comma
  | colon
  | null
  | bool (b : Bool)
  | number (n : NumberLiteral)
  | text (pieces : List Piece)
  deriving DecidableEq, Repr

/-! ### Numbers -/

/-- An exponent: a mark, an optional sign, and digits; or nothing. -/
def exponentOf? : List Char → Option (Option (Bool × List Char))
  | [] => some none
  | mark :: rest =>
    let (negative, digits) :=
      match rest with
      | '-' :: digits => (true, digits)
      | '+' :: digits => (false, digits)
      | digits => (false, digits)
    if (mark = 'e' ∨ mark = 'E') ∧ !digits.isEmpty ∧ digits.all Char.isDigit then
      some (some (negative, digits))
    else none

/-- A number that fills the whole text: no leading zeros, and digits on both sides of a
point. -/
def NumberLiteral.parse? (cs : List Char) : Option NumberLiteral :=
  let (negative, body) :=
    match cs with
    | '-' :: body => (true, body)
    | _ => (false, cs)
  let whole := body.takeWhile Char.isDigit
  let rest := body.dropWhile Char.isDigit
  if whole.isEmpty ∨ (whole.head? = some '0' ∧ whole.length ≠ 1) then none
  else
    match rest with
    | '.' :: tail =>
      let fraction := tail.takeWhile Char.isDigit
      if fraction.isEmpty then none
      else
        (exponentOf? (tail.dropWhile Char.isDigit)).map fun exponent =>
          ⟨negative, whole, some fraction, exponent⟩
    | _ => (exponentOf? rest).map fun exponent => ⟨negative, whole, none, exponent⟩

/-! ### Cutting -/

def hexValue? (c : Char) : Option Nat :=
  if c.isDigit then some (c.toNat - 48)
  else if 'a' ≤ c ∧ c ≤ 'f' then some (c.toNat - 87)
  else if 'A' ≤ c ∧ c ≤ 'F' then some (c.toNat - 55)
  else none

/-- What an escape of one character stands for. -/
def shortEscape? (c : Char) : Option Char :=
  if c = '"' ∨ c = '\\' ∨ c = '/' then some c
  else if c = 'b' then some '\x08'
  else if c = 'f' then some '\x0c'
  else if c = 'n' then some '\n'
  else if c = 'r' then some '\r'
  else if c = 't' then some '\t'
  else none

def isSpace (c : Char) : Bool :=
  c == ' ' || c == '\n' || c == '\t' || c == '\r'

/-- A character of numbers, wherever in a number it may stand. -/
def isNumberChar (c : Char) : Bool :=
  c.isDigit || c == '-' || c == '+' || c == '.' || c == 'e' || c == 'E'

/-- The constants. -/
def constant? (word : List Char) : Option Token :=
  if word = "null".toList then some .null
  else if word = "true".toList then some (.bool true)
  else if word = "false".toList then some (.bool false)
  else none

/-- Where the cutting stands; what has been read of a word is held last character first. -/
inductive Cutting where
  | between
  | number (read : List Char)
  | word (read : List Char)
  | quoted (read : List Piece)
  | escape (read : List Piece)
  | hex (read : List Piece) (digits code : Nat)

/-- What a character between two words begins: a word of its own, a longer word, or
nothing. -/
def begin? (c : Char) : Option (List Token × Cutting) :=
  if isSpace c then some ([], .between)
  else if c = '[' then some ([.beginArray], .between)
  else if c = ']' then some ([.endArray], .between)
  else if c = '\x7b' then some ([.beginObject], .between)
  else if c = '\x7d' then some ([.endObject], .between)
  else if c = ',' then some ([.comma], .between)
  else if c = ':' then some ([.colon], .between)
  else if c = '"' then some ([], .quoted [])
  else if c = '-' ∨ c.isDigit then some ([], .number [c])
  else if c.isLower then some ([], .word [c])
  else none

/-- The words that one more character completes, and where the cutting then stands. -/
def Cutting.step? (state : Cutting) (c : Char) : Option (List Token × Cutting) :=
  match state with
  | .between => begin? c
  | .number read =>
    if isNumberChar c then some ([], .number (c :: read))
    else
      match NumberLiteral.parse? read.reverse, begin? c with
      | some n, some (tokens, next) => some (.number n :: tokens, next)
      | _, _ => none
  | .word read =>
    if c.isLower then some ([], .word (c :: read))
    else
      match constant? read.reverse, begin? c with
      | some t, some (tokens, next) => some (t :: tokens, next)
      | _, _ => none
  | .quoted read =>
    if c = '"' then some ([.text read.reverse], .between)
    else if c = '\\' then some ([], .escape read)
    else if c.toNat < 32 then none
    else some ([], .quoted (.char c :: read))
  | .escape read =>
    if c = 'u' then some ([], .hex read 0 0)
    else (shortEscape? c).map fun e => ([], .quoted (.char e :: read))
  | .hex read digits code =>
    (hexValue? c).map fun v =>
      if digits = 3 then ([], .quoted (.unit (code * 16 + v) :: read))
      else ([], .hex read (digits + 1) (code * 16 + v))

/-- The word that the end of the text completes. -/
def Cutting.finish? : Cutting → Option (List Token)
  | .between => some []
  | .number read => (NumberLiteral.parse? read.reverse).map fun n => [.number n]
  | .word read => (constant? read.reverse).map fun t => [t]
  | .quoted _ | .escape _ | .hex .. => none

/-- The words of a text, from a state on. -/
def tokensFrom? (state : Cutting) : List Char → Option (List Token)
  | [] => state.finish?
  | c :: rest =>
    (state.step? c).bind fun (tokens, next) =>
      (tokensFrom? next rest).map fun later => tokens ++ later

/-- The words of a text. -/
def tokens? (s : String) : Option (List Token) :=
  tokensFrom? .between s.toList

/-! ### Quoted texts -/

/-- The characters that pieces stand for; a pair of surrogate halves is one character, and
a half without its other half is an error. -/
def charsOfPieces? : List Piece → Option (List Char)
  | [] => some []
  | .char c :: rest => (charsOfPieces? rest).map (c :: ·)
  | .unit high :: .unit low :: rest =>
    if 0xD800 ≤ high ∧ high ≤ 0xDBFF then
      if 0xDC00 ≤ low ∧ low ≤ 0xDFFF then
        let code := 0x10000 + (high - 0xD800) * 0x400 + (low - 0xDC00)
        (charsOfPieces? rest).map (Char.ofNat code :: ·)
      else none
    else if 0xDC00 ≤ high ∧ high ≤ 0xDFFF then none
    else (charsOfPieces? (.unit low :: rest)).map (Char.ofNat high :: ·)
  | .unit code :: rest =>
    if 0xD800 ≤ code ∧ code ≤ 0xDFFF then none
    else (charsOfPieces? rest).map (Char.ofNat code :: ·)

/-- The text that pieces stand for. -/
def textOfPieces? (pieces : List Piece) : Option String :=
  (charsOfPieces? pieces).map String.ofList

end SqlSession.Json
