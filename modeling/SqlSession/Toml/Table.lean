/-
Tables of TOML, as a text builds them up.

A table can be named by a header of its own, come to be because a header or a dotted key
leads through it, or be written inline.  A header may name a table once, and one that has
only been led through still counts as unnamed.  Dotted keys extend only what dotted keys
have made, and nothing extends an inline table.
-/
import SqlSession.Toml.Scalar

namespace SqlSession.Toml

/-- How a table has come to be. -/
inductive Origin where
  /-- Named by a header, or the table of the whole text. -/
  | header
  /-- Led through by headers only. -/
  | path
  /-- Made by a dotted key. -/
  | dotted
  /-- Written inline. -/
  | inline
  deriving DecidableEq, Repr

/-- A value of TOML. -/
inductive Node where
  | scalar (s : Scalar)
  | array (elements : List Node)
  /-- An array of tables, each named by a header. -/
  | tables (elements : List (List (String × Node)))
  | table (origin : Origin) (members : List (String × Node))
  deriving Repr, Inhabited

/-- The members of a table in the order of their keys' first appearance. -/
abbrev Members := List (String × Node)

namespace Members

/-- Replace the value of a key that is there. -/
def replace (members : Members) (key : String) (node : Node) : Members :=
  members.map fun (k, n) => if k = key then (k, node) else (k, n)

/-- A change to the table that a path leads to. -/
abbrev Change := Origin → Members → Option (Origin × Members)

/-- Change the table that a path leads to from a table of this origin.  The path makes the
tables that are missing and goes to the last table of an array; a path of dotted keys does
not enter tables that a header has named. -/
def update (byDots : Bool) (change : Change) :
    List String → Origin → Members → Option (Origin × Members)
  | [], origin, members => change origin members
  | key :: path, origin, members =>
    match members.lookup key with
    | none =>
      (update byDots change path (if byDots then .dotted else .path) []).map fun (o, ms) =>
        (origin, members ++ [(key, .table o ms)])
    | some (.table inner ms) =>
      if inner = .inline ∨ (byDots ∧ inner = .header) then none
      else
        (update byDots change path inner ms).map fun (o, ms) =>
          (origin, members.replace key (.table o ms))
    | some (.tables elements) =>
      match elements.reverse with
      | [] => none
      | last :: before =>
        (update byDots change path .header last).map fun (_, ms) =>
          (origin, members.replace key (.tables (before.reverse ++ [ms])))
    | some _ => none

/-- Give a key its value.  The table has to be one made by dotted keys exactly when dots
have led to it, and the key has to be new. -/
def define (byDots : Bool) (key : String) (node : Node) : Change :=
  fun origin members =>
    if (origin == .dotted) != byDots ∨ (members.lookup key).isSome then none
    else some (origin, members ++ [(key, node)])

/-- Give a dotted key its value in a table of this origin. -/
def insert (keys : List String) (key : String) (node : Node) (origin : Origin) (members : Members) :
    Option (Origin × Members) :=
  update (!keys.isEmpty) (define (!keys.isEmpty) key node) keys origin members

/-- Name a table by a header. -/
def openTable (key : String) : Change :=
  fun origin members =>
    match members.lookup key with
    | none => some (origin, members ++ [(key, .table .header [])])
    | some (.table .path ms) => some (origin, members.replace key (.table .header ms))
    | some _ => none

/-- Begin another table of an array by a header. -/
def openElement (key : String) : Change :=
  fun origin members =>
    match members.lookup key with
    | none => some (origin, members ++ [(key, .tables [[]])])
    | some (.tables elements) => some (origin, members.replace key (.tables (elements ++ [[]])))
    | some _ => none

end Members

end SqlSession.Toml
