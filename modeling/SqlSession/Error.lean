/-
What can go wrong.

Each constructor is one class of failure, and `DbError.message` is the only place
where it is put into words.  Configuration errors are those found while a statement
is put together, before anything is sent; "no data" is the narrow class of errors
that a query for a single row forgives.
-/
import SqlSession.Sql.Operation
import SqlSession.Text.Integer

namespace SqlSession

/-- A failure of statement building or of database access. -/
inductive DbError where
  /-- An INSERT, UPDATE or DELETE names no table. -/
  | missingTableName
  /-- A SELECT has no FROM clause. -/
  | missingSource
  /-- A statement that needs a field list has none. -/
  | missingFields (operation : Operation)
  /-- The explicit aliases are not as many as the selected fields. -/
  | aliasCountMismatch (fields aliases : Nat)
  /-- The active operation does not support the requested action. -/
  | invalidOperation (action : String) (operation : Operation)
  /-- The server, or the client that talks to it, refused. -/
  | query (cause : String)
  /-- There is no usable connection. -/
  | connection (cause : String)
  /-- The cursor has no data or no current row. -/
  | noData (cause : String)
  /-- The value of a column cannot be read. -/
  | decode (column cause : String)
  /-- A record of a batch cannot be bound; `record` is its JSON text. -/
  | batch (cause record : String)
  /-- Logging in took longer than the limit, in milliseconds. -/
  | timeout (milliseconds : Nat)
  /-- The configuration is not usable. -/
  | config (cause : String)
  /-- The backend does not offer what is asked for. -/
  | unsupported (cause : String)
  /-- Anything else, in the words of whoever found it. -/
  | other (text : String)
  deriving DecidableEq, Repr, Inhabited

/-! ### Wording -/

/-- A span of time: seconds with the fraction they need, or whole milliseconds below
one second; no time at all is shown in nanoseconds. -/
def spanText (milliseconds : Nat) : String :=
  let seconds := milliseconds / 1000
  let rest := milliseconds % 1000
  let fraction := ((Text.paddedDigits 3 rest).reverse.dropWhile (· == '0')).reverse
  if milliseconds = 0 then "0ns"
  else if seconds = 0 then Text.intText rest ++ "ms"
  else if rest = 0 then Text.intText seconds ++ "s"
  else Text.intText seconds ++ "." ++ String.ofList fraction ++ "s"

namespace DbError

/-- The error in words. -/
def message : DbError → String
  | .missingTableName => "Table name not informed"
  | .missingSource => "FROM clause not informed for SELECT"
  | .missingFields operation => "No fields informed for " ++ operation.name
  | .aliasCountMismatch fields aliases =>
    "Number of fields (" ++ Text.intText fields ++ ") differs from number of SQL aliases ("
      ++ Text.intText aliases ++ ")"
  | .invalidOperation action operation =>
    "Invalid operation for " ++ action ++ ": " ++ operation.name
  | .query cause => "Query error: " ++ cause
  | .connection cause => "Connection error: " ++ cause
  | .noData cause => "No data available: " ++ cause
  | .decode column cause => "Decode error on column '" ++ column ++ "': " ++ cause
  | .batch cause record => cause ++ "\r\n" ++ record
  | .timeout milliseconds => "Login timeout after " ++ spanText milliseconds
  | .config cause => "Config error: " ++ cause
  | .unsupported cause => "Unsupported: " ++ cause
  | .other text => text

/-- Found while putting a statement together, before one was opened. -/
def isConfiguration : DbError → Bool
  | .missingTableName | .missingSource | .missingFields _ | .aliasCountMismatch ..
  | .invalidOperation .. => true
  | _ => false

/-- The empty result that a query for a single row forgives. -/
def isNoData : DbError → Bool
  | .noData _ => true
  | _ => false

end DbError

end SqlSession
