/-
The structure of a JSON text.

A document is the tree that the brackets of a text form, with numbers and quoted texts
still as they are written.  It is built from the words of the text with a stack of the
arrays and objects that are open: a finished value goes to the innermost of them, and when
none is open the text has to end.
-/
import SqlSession.Json.Token

namespace SqlSession.Json

/-- A JSON text as a tree. -/
inductive Document where
  | null
  | bool (b : Bool)
  | number (n : NumberLiteral)
  | text (pieces : List Piece)
  | array (elements : List Document)
  | object (members : List (List Piece × Document))
  deriving Repr, Inhabited

namespace Document

/-- An array or object that is open; what it holds already, last first. -/
inductive Frame where
  | array (done : List Document)
  | object (done : List (List Piece × Document)) (key : List Piece)

/-- What may come next. -/
inductive Expecting where
  /-- A value. -/
  | value
  /-- The first element of an array, or its end. -/
  | firstElement
  /-- The first name of an object, or its end. -/
  | firstKey (done : List (List Piece × Document))
  /-- A name. -/
  | key (done : List (List Piece × Document))
  /-- The colon behind a name. -/
  | colon (done : List (List Piece × Document)) (key : List Piece)
  /-- A comma or the end of what is open, behind this value. -/
  | separator (value : Document)

/-- A value that is one word. -/
def atom? : Token → Option Document
  | .null => some .null
  | .bool b => some (.bool b)
  | .number n => some (.number n)
  | .text pieces => some (.text pieces)
  | _ => none

/-- One more word: what is open behind it, and what is expected then. -/
def step? (state : Expecting) (stack : List Frame) (t : Token) : Option (Expecting × List Frame) :=
  match state with
  | .value =>
    match t with
    | .beginArray => some (.firstElement, stack)
    | .beginObject => some (.firstKey [], stack)
    | t => (atom? t).map fun v => (.separator v, stack)
  | .firstElement =>
    match t with
    | .endArray => some (.separator (.array []), stack)
    | .beginArray => some (.firstElement, .array [] :: stack)
    | .beginObject => some (.firstKey [], .array [] :: stack)
    | t => (atom? t).map fun v => (.separator v, .array [] :: stack)
  | .firstKey done =>
    match t with
    | .endObject => some (.separator (.object done.reverse), stack)
    | .text key => some (.colon done key, stack)
    | _ => none
  | .key done =>
    match t with
    | .text key => some (.colon done key, stack)
    | _ => none
  | .colon done key =>
    match t with
    | .colon => some (.value, .object done key :: stack)
    | _ => none
  | .separator v =>
    match stack, t with
    | .array done :: stack, .comma => some (.value, .array (v :: done) :: stack)
    | .array done :: stack, .endArray => some (.separator (.array (v :: done).reverse), stack)
    | .object done key :: stack, .comma => some (.key ((key, v) :: done), stack)
    | .object done key :: stack, .endObject =>
      some (.separator (.object ((key, v) :: done).reverse), stack)
    | _, _ => none

/-- The document that the words complete, from a state on. -/
def ofTokensFrom? (state : Expecting) (stack : List Frame) : List Token → Option Document
  | [] =>
    match state, stack with
    | .separator v, [] => some v
    | _, _ => none
  | t :: rest => (step? state stack t).bind fun (state, stack) => ofTokensFrom? state stack rest

/-- The document of a text. -/
def parse? (s : String) : Option Document :=
  (tokens? s).bind (ofTokensFrom? .value [])

end Document

end SqlSession.Json
