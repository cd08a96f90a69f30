/-
Settings in a file.

The file is TOML with a key for each setting.  What is not there keeps its default, keys
that are no settings are passed over, and a value of the wrong kind is refused.  What is
wrong with a text that is refused is told in the words of the reader of TOML, which are a
parameter here.
-/
import SqlSession.Config.Environment
import SqlSession.Toml.Reading

namespace SqlSession.Config

open Toml

/-! ### Values of keys -/

def textOf? : Node → Option String
  | .scalar (.text s) => some s
  | _ => none

def natOf? (limit : Nat) : Node → Option Nat
  | .scalar (.int n) => if 0 ≤ n ∧ n ≤ limit then some n.toNat else none
  | _ => none

/-- A product is named by its identifier, or by a table with the identifier as its only key
and nothing in it. -/
def productOf? : Node → Option Product
  | .scalar (.text s) => Product.ofId? s
  | .table _ [(id, .table _ [])] | .table _ [(id, .array [])] => Product.ofId? id
  | _ => none

/-- The value of a key, read if it is there. -/
def read? {α : Type} (read : Node → Option α) (members : Members) (key : String) (default : α) :
    Option α :=
  match members.lookup key with
  | none => some default
  | some node => read node

/-- The settings that the members of a text describe. -/
def ofMembers? (members : Members) : Option Config := do
  return {
    product := ← read? productOf? members "kind" .postgreSql
    server := ← read? textOf? members "server" "localhost"
    port := ←
      read? (fun n => (natOf? 65535 n).map fun p => some (UInt16.ofNat p)) members "port" none
    directory := ← read? textOf? members "directory" ""
    database := ← read? textOf? members "database" ""
    instanceName := ← read? (fun n => (textOf? n).map some) members "instance" none
    user := ← read? textOf? members "user" ""
    password := ← read? textOf? members "password" ""
    loginTimeout := ←
      read? (fun n => (natOf? 18446744073709551615 n).map UInt64.ofNat) members
        "login_timeout_secs" 15
    url := ← read? (fun n => (textOf? n).map some) members "url" none }

/-- The settings of a text, with references to the environment expanded; `diagnosis` says
what is wrong with a text. -/
def ofToml (env : Environment) (diagnosis : String → String) (text : String) :
    Except DbError Config :=
  match (Toml.parse? text).bind ofMembers? with
  | some c => c.expand env
  | none => .error (.config ("failed to parse connection config: " ++ diagnosis text))

/-- The settings of a file, from its content or the reason why it cannot be read. -/
def load (env : Environment) (diagnosis : String → String) (path : String)
    (content : Except String String) : Except DbError Config :=
  match content with
  | .ok text => ofToml env diagnosis text
  | .error reason => .error (.config ("failed to read config file " ++ path ++ ": " ++ reason))

end SqlSession.Config
