/-
Reading records of fixed members.

A record is written as an object, or as an array with its members in a fixed order.  In an
object a member may stand once, and members of other names are passed over without a look
at their values.  In an array the last members may be missing.
-/
import SqlSession.Json.Reading

namespace SqlSession.Json.Document

/-- The members of a record that are there, under their names. -/
def fields? (names : List String) : Document → Option (List (String × Document))
  | .object members => do
    let named ← members.mapM fun (key, value) => (textOfPieces? key).map fun k => (k, value)
    let known := named.filter fun member => names.contains member.1
    if (known.map Prod.fst).Nodup then some known else none
  | .array elements =>
    if elements.length ≤ names.length then some (names.zip elements) else none
  | _ => none

/-- The value of a member, read if it is there. -/
def read? {α : Type} (read : Document → Option α) (fields : List (String × Document))
    (name : String) (default : α) : Option α :=
  match fields.lookup name with
  | none => some default
  | some d => read d

/-! ### Values of members -/

def textOf? : Document → Option String
  | .text pieces => textOfPieces? pieces
  | _ => none

def boolOf? : Document → Option Bool
  | .bool b => some b
  | _ => none

/-- An integer of 64 bits, written without point and exponent. -/
def int64Of? : Document → Option Int64
  | .number n => n.toNumber?.bind JsonNumber.toInt64?
  | _ => none

/-- A value that may be missing; `null` says so. -/
def optionOf? {α : Type} (read : Document → Option α) : Document → Option (Option α)
  | .null => some none
  | d => (read d).map some

def listOf? {α : Type} (read : Document → Option α) : Document → Option (List α)
  | .array elements => elements.mapM read
  | _ => none

end SqlSession.Json.Document
