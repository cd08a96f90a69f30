/-
Numeric host addresses.

An address of version 4 is four decimal numbers below 256 without leading zeros, with dots
between.  One of version 6 is eight groups of up to four hexadecimal digits with colons
between; the last two groups may be written as an address of version 4, and one run of
groups that are zero may be left out between two colons.
-/
import SqlSession.Json.Token

namespace SqlSession.Postgres

/-- A decimal number below 256 without leading zeros. -/
def isOctet (cs : List Char) : Bool :=
  !cs.isEmpty && cs.length ≤ 3 && cs.all Char.isDigit && (cs.length == 1 || cs.head? != some '0')
    && DecimalLiteral.natOfDigits cs < 256

def isVersion4 (cs : List Char) : Bool :=
  let parts := cs.splitOnP (· == '.')
  parts.length == 4 && parts.all isOctet

def isGroup (cs : List Char) : Bool :=
  !cs.isEmpty && cs.length ≤ 4 && cs.all fun c => (Json.hexValue? c).isSome

/-- How many groups a run of them has; the last may be an address of version 4 and then
counts for two. -/
def groupCount? (mayEndInVersion4 : Bool) : List (List Char) → Option Nat
  | [] => some 0
  | [last] =>
    if isGroup last then some 1
    else if mayEndInVersion4 ∧ isVersion4 last then some 2
    else none
  | part :: rest => if isGroup part then (groupCount? mayEndInVersion4 rest).map (· + 1) else none

/-- The groups of a run, which may be empty. -/
def groupsOf (cs : List Char) : List (List Char) :=
  if cs.isEmpty then [] else cs.splitOnP (· == ':')

/-- The texts around the first two colons in a row, if there are such. -/
def splitGap? : List Char → Option (List Char × List Char)
  | ':' :: ':' :: rest => some ([], rest)
  | c :: rest => (splitGap? rest).map fun (before, after) => (c :: before, after)
  | [] => none

def isVersion6 (cs : List Char) : Bool :=
  match splitGap? cs with
  | none => groupCount? true (groupsOf cs) == some 8
  | some (before, after) =>
    match groupCount? false (groupsOf before), groupCount? true (groupsOf after) with
    | some m, some n => m + n < 8
    | _, _ => false

/-- A numeric address of a host. -/
def isHostAddress (s : String) : Bool :=
  isVersion4 s.toList || isVersion6 s.toList

end SqlSession.Postgres
