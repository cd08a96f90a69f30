/-
JSON values.

An object is its members in order.  Putting a member under a name that is there already
replaces the value and keeps the place, so that names stay distinct and the first
occurrence decides the order.  A number is an integer of 64 bits, signed or unsigned, or
a finite double, and the integer 5 is not the double 5.0.
-/
import SqlSession.Number.Binary64

namespace SqlSession

/-- A number of JSON. -/
inductive JsonNumber where
  | int (n : Int) (le : -0x8000000000000000 ≤ n) (lt : n < 0x10000000000000000)
  | double (x : Binary64) (finite : x.isFinite = true)
  deriving DecidableEq, Repr

/-- A value of JSON. -/
inductive Json where
  | null
  | bool (b : Bool)
  | number (n : JsonNumber)
  | text (s : String)
  | array (elements : List Json)
  | object (members : List (String × Json))
  deriving Repr, Inhabited

namespace JsonNumber

/-- The integer as a number, if it lies in range. -/
def ofInt? (n : Int) : Option JsonNumber :=
  if h : -0x8000000000000000 ≤ n ∧ n < 0x10000000000000000 then some (.int n h.1 h.2) else none

/-- The double as a number, if it is finite. -/
def ofBinary64? (x : Binary64) : Option JsonNumber :=
  if h : x.isFinite = true then some (.double x h) else none

/-- A 64-bit integer as a number. -/
def ofInt64 (n : Int64) : JsonNumber :=
  .int n.toInt n.le_toInt (by have := n.toInt_lt; omega)

/-- The number as a signed 64-bit integer, if it is one. -/
def toInt64? : JsonNumber → Option Int64
  | .int n _ _ => if n < 0x8000000000000000 then some (Int64.ofInt n) else none
  | .double .. => none

/-- The number as a double, rounded where it is an integer. -/
def toBinary64 : JsonNumber → Binary64
  | .int n _ _ => Binary64.ofInt n
  | .double x _ => x

end JsonNumber

namespace Json

/-! ### Equality is decidable -/

mutual

def decEq : (a b : Json) → Decidable (a = b)
  | .null, .null => isTrue rfl
  | .bool a, .bool b => decidable_of_iff (a = b) (by simp)
  | .number a, .number b => decidable_of_iff (a = b) (by simp)
  | .text a, .text b => decidable_of_iff (a = b) (by simp)
  | .array a, .array b =>
    match decEqList a b with
    | isTrue h => isTrue (h ▸ rfl)
    | isFalse h => isFalse fun e => h (by cases e; rfl)
  | .object a, .object b =>
    match decEqMembers a b with
    | isTrue h => isTrue (h ▸ rfl)
    | isFalse h => isFalse fun e => h (by cases e; rfl)
  | .null, .bool _ | .null, .number _ | .null, .text _ | .null, .array _ | .null, .object _
  | .bool _, .null | .bool _, .number _ | .bool _, .text _ | .bool _, .array _ | .bool _, .object _
  | .number _, .null | .number _, .bool _ | .number _, .text _ | .number _, .array _
  | .number _, .object _
  | .text _, .null | .text _, .bool _ | .text _, .number _ | .text _, .array _ | .text _, .object _
  | .array _, .null | .array _, .bool _ | .array _, .number _ | .array _, .text _
  | .array _, .object _
  | .object _, .null | .object _, .bool _ | .object _, .number _ | .object _, .text _
  | .object _, .array _ => isFalse nofun

def decEqList : (a b : List Json) → Decidable (a = b)
  | [], [] => isTrue rfl
  | [], _ :: _ | _ :: _, [] => isFalse nofun
  | a :: as, b :: bs =>
    match decEq a b, decEqList as bs with
    | isTrue h, isTrue hs => isTrue (h ▸ hs ▸ rfl)
    | isFalse h, _ => isFalse fun e => h (by cases e; rfl)
    | _, isFalse hs => isFalse fun e => hs (by cases e; rfl)

def decEqMembers : (a b : List (String × Json)) → Decidable (a = b)
  | [], [] => isTrue rfl
  | [], _ :: _ | _ :: _, [] => isFalse nofun
  | (k, a) :: as, (l, b) :: bs =>
    match decEq a b, decEqMembers as bs with
    | isTrue h, isTrue hs => decidable_of_iff (k = l) (by subst h hs; simp)
    | isFalse h, _ => isFalse fun e => h (by cases e; rfl)
    | _, isFalse hs => isFalse fun e => hs (by cases e; rfl)

end

instance : DecidableEq Json := decEq

end Json

/-! ### Members in order -/

namespace Members

/-- Put a value under a name: in its place if the name is there, else at the end. -/
def insert (members : List (String × Json)) (name : String) (value : Json) :
    List (String × Json) :=
  match members with
  | [] => [(name, value)]
  | (k, v) :: rest => if k = name then (k, value) :: rest else (k, v) :: insert rest name value

/-- The members put in one after the other. -/
def ofList (entries : List (String × Json)) : List (String × Json) :=
  entries.foldl (fun members e => insert members e.1 e.2) []

/-- The value under a name. -/
def get? (members : List (String × Json)) (name : String) : Option Json :=
  members.lookup name

end Members

/-- One row of a result or one row to insert: a value for each label, in order. -/
abbrev Record := List (String × Json)

end SqlSession
