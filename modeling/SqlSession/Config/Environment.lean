/-
The environment.

Settings may refer to variables of the environment, or come from variables altogether.
A reference is `${` up to the next `}` with the name between; the value of the variable
takes its place and is not looked at again.
-/
import SqlSession.Config

namespace SqlSession

/-- The variables of the environment. -/
abbrev Environment := List (String × String)

namespace Environment

/-- Expand references.  The name that is being read, if any, is held last character first,
and `whole` is the text for the error message. -/
def expandFrom (env : Environment) (whole : String) (name : Option (List Char)) :
    List Char → Except DbError (List Char)
  | [] =>
    match name with
    | none => .ok []
    | some _ => .error (.config ("unterminated $\x7b...\x7d in '" ++ whole ++ "'"))
  | c :: rest =>
    match name, c, rest with
    | none, '$', '\x7b' :: rest => expandFrom env whole (some []) rest
    | none, c, rest => (expandFrom env whole none rest).map (c :: ·)
    | some read, '\x7d', rest =>
      let variableName := String.ofList read.reverse
      match env.lookup variableName with
      | none => .error (.config ("environment variable '" ++ variableName ++ "' is not set"))
      | some value => (expandFrom env whole none rest).map (value.toList ++ ·)
    | some read, c, rest => expandFrom env whole (some (c :: read)) rest

/-- The text with each reference replaced by the value of its variable. -/
def expand (env : Environment) (text : String) : Except DbError String :=
  (expandFrom env text none text.toList).map String.ofList

/-- The value of a variable; an empty one counts as not set. -/
def value? (env : Environment) (name : String) : Option String :=
  (env.lookup name).filter fun v => !v.isEmpty

/-- The value of a variable that has to be an integer up to a limit. -/
def number? (env : Environment) (name : String) (limit : Nat) : Except DbError (Option Nat) :=
  match env.value? name with
  | none => .ok none
  | some v =>
    match Text.readUnsigned limit v with
    | .ok n => .ok (some n)
    | .error e => .error (.config (name ++ ": " ++ e.message))

/-- The settings that the variables of the program describe. -/
def config (env : Environment) : Except DbError Config := do
  let product ←
    match env.value? "FLUENTDB_KIND" with
    | some name => Product.parse name
    | none => .ok .postgreSql
  let port ← env.number? "FLUENTDB_PORT" 65535
  let loginTimeout ← env.number? "FLUENTDB_LOGIN_TIMEOUT" 18446744073709551615
  let plain (name : String) : String := (env.value? name).getD ""
  let c : Config :=
    { product
      server := (env.value? "FLUENTDB_SERVER").getD "localhost"
      port := port.map UInt16.ofNat
      directory := plain "FLUENTDB_DIR"
      database := plain "FLUENTDB_DATABASE"
      instanceName := env.value? "FLUENTDB_INSTANCE"
      user := plain "FLUENTDB_USER"
      password := plain "FLUENTDB_PASSWORD"
      loginTimeout := UInt64.ofNat (loginTimeout.getD 15)
      url := env.value? "FLUENTDB_URL" }
  if c.url.isNone ∧ c.database.isEmpty then
    .error (.config "neither FLUENTDB_URL nor FLUENTDB_DATABASE is set")
  else .ok c

end Environment

/-- The settings with the references in every text expanded; the product's name holds
none. -/
def Config.expand (env : Environment) (c : Config) : Except DbError Config := do
  let server ← env.expand c.server
  let directory ← env.expand c.directory
  let database ← env.expand c.database
  let user ← env.expand c.user
  let password ← env.expand c.password
  let instanceName ← c.instanceName.mapM env.expand
  let url ← c.url.mapM env.expand
  return { c with server, directory, database, user, password, instanceName, url }

end SqlSession
