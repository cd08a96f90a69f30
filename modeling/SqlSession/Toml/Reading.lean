/-
Reading TOML.

A text is lines of keys with their values under headers.  Values that hold others are read
with fuel, one unit for each value and each element, of which the length of the text is
enough; they may be nested 80 levels deep.
-/
import SqlSession.Toml.Quoted
import SqlSession.Toml.Table

namespace SqlSession.Toml

/-! ### Between values -/

def skipBlanks (cs : List Char) : List Char :=
  cs.dropWhile isBlank

/-- What stands behind a comment, from its number sign to the end of its line. -/
def skipComment? : List Char → Option (List Char)
  | '#' :: rest =>
    match rest.dropWhile isPlain with
    | [] => some []
    | '\n' :: rest => some ('\n' :: rest)
    | '\r' :: '\n' :: rest => some ('\r' :: '\n' :: rest)
    | _ => none
  | cs => some cs

/-- What stands behind blanks, line breaks and comments; `inComment` says that a comment
has begun. -/
def skipLines? (inComment : Bool) : List Char → Option (List Char)
  | [] => some []
  | '\n' :: rest => skipLines? false rest
  | '\r' :: '\n' :: rest => skipLines? false rest
  | c :: rest =>
    if inComment then (if isPlain c then skipLines? true rest else none)
    else if isBlank c then skipLines? false rest
    else if c = '#' then skipLines? true rest
    else some (c :: rest)

/-- What stands behind the end of a line, which may hold a comment. -/
def endLine? (cs : List Char) : Option (List Char) :=
  (skipComment? (skipBlanks cs)).bind fun rest =>
    match rest with
    | [] => some []
    | '\n' :: rest => some rest
    | '\r' :: '\n' :: rest => some rest
    | _ => none

/-! ### Keys -/

def isBareKeyChar (c : Char) : Bool :=
  c.isAlphanum || c == '_' || c == '-'

/-- A key without dots. -/
def simpleKey? (cs : List Char) : Option (String × List Char) :=
  match quotedLine? cs with
  | some (key, rest) => some (String.ofList key, rest)
  | none =>
    let key := cs.takeWhile isBareKeyChar
    if key.isEmpty then none else some (String.ofList key, cs.dropWhile isBareKeyChar)

/-- A key with dots: the keys that lead to it and the last one. -/
def dottedKey? : Nat → List Char → Option ((List String × String) × List Char)
  | 0, _ => none
  | fuel + 1, cs =>
    (simpleKey? (skipBlanks cs)).bind fun (key, rest) =>
      match skipBlanks rest with
      | '.' :: rest =>
        (dottedKey? fuel rest).map fun ((path, last), rest) => ((key :: path, last), rest)
      | rest => some (([], key), rest)

/-! ### Values -/

/-- How deep values may be nested. -/
def depthLimit : Nat := 80

mutual

/-- A value at the start of what is to be read; `depth` more levels may open in it. -/
def value? (fuel depth : Nat) (cs : List Char) : Option (Node × List Char) :=
  match fuel with
  | 0 => none
  | fuel + 1 =>
    match cs with
    | '[' :: rest =>
      if depth = 0 then none
      else (elements? fuel (depth - 1) rest).map fun (es, rest) => (.array es, rest)
    | '\x7b' :: rest =>
      if depth = 0 then none
      else (inline? fuel (depth - 1) [] rest).map fun (ms, rest) => (.table .inline ms, rest)
    | '"' :: _ | '\'' :: _ =>
      (quoted? cs).map fun (s, rest) => (.scalar (.text (String.ofList s)), rest)
    | _ =>
      match takeAtom cs with
      | (atom, rest) => (scalarOf? atom).map fun s => (.scalar s, rest)

/-- The rest of an array, up to its end. -/
def elements? (fuel depth : Nat) (cs : List Char) : Option (List Node × List Char) :=
  match fuel with
  | 0 => none
  | fuel + 1 =>
    (skipLines? false cs).bind fun cs =>
      match cs with
      | ']' :: rest => some ([], rest)
      | _ =>
        (value? fuel depth cs).bind fun (node, rest) =>
          (skipLines? false rest).bind fun rest =>
            match rest with
            | ',' :: rest => (elements? fuel depth rest).map fun (es, rest) => (node :: es, rest)
            | ']' :: rest => some ([node], rest)
            | _ => none

/-- The rest of an inline table, up to its end, with the members that it has already. -/
def inline? (fuel depth : Nat) (members : Members) (cs : List Char) :
    Option (Members × List Char) :=
  match fuel with
  | 0 => none
  | fuel + 1 =>
    (skipLines? false cs).bind fun cs =>
      match cs with
      | '\x7d' :: rest => some (members, rest)
      | _ =>
        (dottedKey? cs.length cs).bind fun ((path, key), rest) =>
          match rest with
          | '=' :: rest =>
            (value? fuel depth (skipBlanks rest)).bind fun (node, rest) =>
              (members.insert path key node .inline).bind fun (_, members) =>
                (skipLines? false rest).bind fun rest =>
                  match rest with
                  | ',' :: rest => inline? fuel depth members rest
                  | '\x7d' :: rest => some (members, rest)
                  | _ => none
          | _ => none

end

/-! ### Texts -/

/-- A header: whether it begins an element of an array, and its key. -/
def header? (cs : List Char) : Option ((Bool × List String × String) × List Char) :=
  match cs with
  | '[' :: '[' :: rest =>
    (dottedKey? rest.length rest).bind fun ((path, key), rest) =>
      match rest with
      | ']' :: ']' :: rest => some ((true, path, key), rest)
      | _ => none
  | '[' :: rest =>
    (dottedKey? rest.length rest).bind fun ((path, key), rest) =>
      match rest with
      | ']' :: rest => some ((false, path, key), rest)
      | _ => none
  | _ => none

/-- The members of a text, read on under a header. -/
def lines? (fuel : Nat) (section' : List String) (root : Members) (cs : List Char) :
    Option Members :=
  match fuel with
  | 0 => none
  | fuel + 1 =>
    (skipLines? false cs).bind fun cs =>
      match cs with
      | [] => some root
      | '[' :: _ =>
        (header? cs).bind fun ((isElement, path, key), rest) =>
          let change := if isElement then Members.openElement key else Members.openTable key
          (Members.update false change path .header root).bind fun (_, root) =>
            (endLine? rest).bind (lines? fuel (path ++ [key]) root)
      | _ =>
        (dottedKey? cs.length cs).bind fun ((path, key), rest) =>
          match rest with
          | '=' :: rest =>
            (value? (2 * rest.length + 2) depthLimit (skipBlanks rest)).bind fun (node, rest) =>
              (Members.update false (Members.insert path key node) section' .header root).bind
                fun (_, root) => (endLine? rest).bind (lines? fuel section' root)
          | _ => none

/-- The members of a text.  A byte order mark in front of it is passed over. -/
def parse? (s : String) : Option Members :=
  let cs :=
    match s.toList with
    | '\uFEFF' :: rest => rest
    | cs => cs
  lines? (cs.length + 1) [] [] cs

end SqlSession.Toml
