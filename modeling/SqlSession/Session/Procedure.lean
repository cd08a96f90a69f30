/-
Procedure calls.

A call delivers several results, result sets and row counts mixed.  Collecting them reads
every result set in order and passes over the counts.  A probe for the next result that
fails is tried once more, and a second failure in a row is final; a probe that succeeds
makes up for the failure before it.
-/
import SqlSession.Session.Execution

namespace SqlSession.Session

variable {σ : Type} [Backend σ] {α : Type}

/-! ### Collecting results -/

/-- Put records in front of those still to come. -/
def consRecords {τ : Type} (records : List Record) :
    Except DbError (List Record) × τ → Except DbError (List Record) × τ
  | (.ok more, s) => (.ok (records ++ more), s)
  | (.error e, s) => (.error e, s)

/-- Take the current result, which is a result set, and read it. -/
def takeRecords (labels : Option (List String)) :
    Action (Backend.Callable σ × σ) (List Record) :=
  fun s =>
    match Backend.resultSet s with
    | (.error e, s) => (.error e, s)
    | (.ok none, s) => (.ok [], s)
    | (.ok (some rs), s) => (rs.records labels, s)

theorem resultsLeft_takeRecords {labels : Option (List String)} {s s' : Backend.Callable σ × σ}
    {r : Except DbError (List Record)} (h : takeRecords labels s = (r, s')) :
    Backend.resultsLeft s'.1 ≤ Backend.resultsLeft s.1 := by
  unfold takeRecords at h
  split at h <;> rename_i h' <;> (obtain ⟨-, rfl⟩ := by simpa using h) <;>
    exact Backend.resultsLeft_of_taken h'

set_option linter.unusedVariables false in
/-- The records of the results behind the current one; `failed` says that the last probe
has failed. -/
def restOfResults (labels : Option (List String)) (failed : Bool) (s : Backend.Callable σ × σ) :
    Except DbError (List Record) × (Backend.Callable σ × σ) :=
  match h : Backend.moreResults s with
  | (.error e, s') => if hf : failed then (.error e, s') else restOfResults labels true s'
  | (.ok true, s') =>
    match h' : takeRecords labels s' with
    | (.error e, t) => (.error e, t)
    | (.ok records, t) => consRecords records (restOfResults labels false t)
  | (.ok false, s') =>
    if hc : Backend.updateCount s'.1 = -1 then (.ok [], s')
    else restOfResults labels false s'
termination_by (Backend.resultsLeft s.1, if failed then 0 else 1)
decreasing_by
  · have := Backend.resultsLeft_of_failed h
    simp only [Bool.not_eq_true] at hf
    rw [Prod.lex_def]
    simp only [hf, Bool.false_eq_true, if_true, if_false]
    omega
  · have := Backend.resultsLeft_of_rows h
    have := resultsLeft_takeRecords h'
    exact Prod.Lex.left _ _ (by omega)
  · exact Prod.Lex.left _ _ (Backend.resultsLeft_of_count h hc)

/-- The records of the current result and of those behind it. -/
def resultsFrom (labels : Option (List String)) (hasRows : Bool) :
    Action (Backend.Callable σ × σ) (List Record) :=
  fun s =>
    if hasRows then
      match takeRecords labels s with
      | (.error e, s) => (.error e, s)
      | (.ok records, s) => consRecords records (restOfResults labels false s)
    else if Backend.updateCount s.1 = -1 then (.ok [], s)
    else restOfResults labels false s

/-- Run the call, once more if it fails. -/
def executeRetrying : Action (Backend.Callable σ × σ) Bool :=
  fun s =>
    match Backend.executeCall s with
    | (.ok hasRows, s) => (.ok hasRows, s)
    | (.error _, s) => Backend.executeCall s

/-- Run the call and collect the records of all its results. -/
def collectResults (labels : Option (List String)) :
    Action (Backend.Callable σ × σ) (List Record) := do
  resultsFrom labels (← executeRetrying)

/-! ### Queries -/

/-- Run the procedure call for the records of its first result set, or of all of them. -/
def runCall (allResults : Bool) : Action (Session σ) (List Record) := do
  let labels ← fun s : Session σ =>
    (Sql.readLabels s.dialect s.calling.fields s.calling.aliases, s)
  let params ← Action.view Session.params
  onCall "query_procedure" do
    bindAll Backend.bindCall params
    if allResults then collectResults labels
    else do
      let rs ← Backend.queryCall
      Action.ofExcept (rs.records labels)

/-- Run the active procedure call and read its first result set, or all of them. -/
def queryProcedure (allResults : Bool) : Action (Session σ) (List Record) :=
  fun s =>
    match s.operation with
    | .procedure => clearingParams (runCall allResults) s
    | operation => (.error (.invalidOperation "query_procedure" operation), s)

/-- Run the active SELECT, or the active procedure call for one result set, and read every
row. -/
def query : Action (Session σ) (List Record) :=
  fun s =>
    match s.operation with
    | .procedure => queryProcedure false s
    | _ => select? "query" (fun r => r.bind fun (rs, labels) => rs.records labels) s

/-! ### Out parameters -/

/-- Declare a position of the active procedure call to be an out parameter, and bind NULL
there.  Position 0 is taken for 1. -/
def outParam (position : Nat) (type : OutType) : Action (Session σ) Unit :=
  fun s =>
    match s.operation with
    | .procedure =>
      (do
        onCall "out_param" (Backend.register (max position 1) type.typeCode)
        Action.modify (setParam position .null) : Action (Session σ) Unit) s
    | operation => (.error (.invalidOperation "out_param" operation), s)

/-- The value of an out parameter after a run; NULL is none, and so is everything where
no call is held. -/
def outValue (position : Nat) (s : Session σ) : Except DbError (Option Value) :=
  match s.calling.handle with
  | none => .ok none
  | some call =>
    (Backend.outValue position call s.backend).map fun v => v.filter fun v => !v.isNull

/-- An out parameter in one of the views of a value. -/
def outView (f : Value → Option α) (position : Nat) (s : Session σ) : Except DbError (Option α) :=
  (s.outValue position).map fun v => v.bind f

end SqlSession.Session
