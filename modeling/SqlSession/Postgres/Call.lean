/-
Procedure calls.

A call is prepared anew each time it runs.  The server answers with one result; where out
parameters are registered and the result has columns, its first row holds their values in
ascending order of position, and the caller does not see it as a result.
-/
import SqlSession.Backend.Results
import SqlSession.Postgres.Statement
import SqlSession.Value.Conversion

namespace SqlSession.Postgres

/-- A procedure call of the client. -/
structure Call where
  text : String
  params : List Value := []
  /-- The registered out parameters in ascending order of position. -/
  registered : List (Nat × TypeCode) := []
  /-- The values of out parameters after a run. -/
  outValues : List (Nat × Value) := []
  results : CallResults := {}
  isOpen : Bool := true
  deriving DecidableEq, Repr

namespace Call

variable {α : Type}

/-- The call of a procedure; without parentheses it has no arguments. -/
def ofProcedure (procedure : String) : Call :=
  let procedure := Text.trim procedure.toList
  let invocation := if '(' ∈ procedure then procedure else procedure ++ ['(', ')']
  { text := "CALL " ++ String.ofList invocation }

def bind (position : Nat) (v : Value) : Action (Call × Connection) Unit :=
  fun (call, c) =>
    match Params.bindAt call.params position v with
    | .ok params => (.ok (), ({ call with params }, c))
    | .error e => (.error e, (call, c))

/-- A position put among others, in order; a type that is there already is replaced. -/
def insertPosition (position : Nat) (type : TypeCode) :
    List (Nat × TypeCode) → List (Nat × TypeCode)
  | [] => [(position, type)]
  | (i, t) :: rest =>
    if position < i then (position, type) :: (i, t) :: rest
    else if position = i then (position, type) :: rest
    else (i, t) :: insertPosition position type rest

def register (position : Nat) (type : TypeCode) : Action (Call × Connection) Unit :=
  fun (call, c) =>
    if position = 0 then (.error (.other "parameter indexes are 1-based"), (call, c))
    else (.ok (), ({ call with registered := insertPosition position type call.registered }, c))

/-- The values of out parameters in their registered types. -/
def typedOutValues (registered : List (Nat × TypeCode)) (row : List Value) : List (Nat × Value) :=
  List.zipWith (fun (position, type) v => (position, v.convertTo type)) registered row

/-- The call with the result of a run. -/
def withResult (result : CallResult) (call : Call) : Call :=
  match result with
  | .count _ => { call with results := .ofList [result] }
  | .rows rs =>
    if call.registered.isEmpty then { call with results := .ofList [result] }
    else
      match rs.rows with
      | [] => { call with results := {} }
      | row :: _ => { call with results := {}, outValues := typedOutValues call.registered row }

/-- Prepare the call and run it; the answer is its result. -/
def runFresh (call : Call) : Action Connection CallResult :=
  fun c =>
    match Connection.ask (Server.prepare (Sql.numberPlaceholders call.text)) c with
    | (.error e, c) => (.error e, c)
    | (.ok p, c) =>
      match Statement.runOnce p call.params c.server with
      | (.error f, _, server) => (.error f.error, { c with server })
      | (.ok reply, _, server) =>
        if p.columns.isEmpty then (.ok (.count reply.cells.length), { c with server })
        else ((decodeResult p.columns reply.cells).map .rows, { c with server })

/-- Run the call; the answer tells whether there is a result set. -/
def execute : Action (Call × Connection) Bool :=
  fun (call, c) =>
    if call.isOpen then
      let call := { call with results := {}, outValues := [] }
      match runFresh call c with
      | (.error e, c) => (.error e, (call, c))
      | (.ok result, c) =>
        let call := call.withResult result
        (.ok call.results.hasRows, (call, c))
    else (.error (closedError call.text), (call, c))

/-- Take the current result if it is a result set. -/
def resultSet : Action (Call × Connection) (Option ResultSet) :=
  fun (call, c) => (.ok call.results.take.1, ({ call with results := call.results.take.2 }, c))

/-- Run the call for its result set, which is empty if there is none. -/
def query : Action (Call × Connection) ResultSet := do
  if ← execute then return (← resultSet).getD .empty
  else return .empty

def moreResults : Action (Call × Connection) Bool :=
  fun (call, c) =>
    (.ok call.results.next.hasRows, ({ call with results := call.results.next }, c))

def outValue (position : Nat) (call : Call) : Except DbError (Option Value) :=
  if (call.registered.lookup position).isSome then .ok (call.outValues.lookup position)
  else
    .error <| .other <|
      "parameter " ++ Text.intText position ++ " is not registered as an out parameter"

def close (call : Call) : Call :=
  { call with params := [], results := {}, isOpen := false }

end Call

end SqlSession.Postgres
