/-
The server does not blame the configuration.

What the server refuses is an error of a query, and so is what the client cannot write;
using what is closed, binding at position 0 and a cell that cannot be read are errors of
their own.  None of them is a configuration error, whatever the server answers.
-/
import SqlSession.Postgres.Backend
import SqlSession.Proofs.Blameless

namespace SqlSession.Postgres

open SqlSession.Action

variable {σ α : Type}

theorem blameless_of_blames {a : Action σ α} (h : ∀ s, blames (a s).1 = false) :
    Blameless (fun _ => True) a :=
  fun s _ => ⟨trivial, h s⟩

theorem isConfiguration_of_bindAt {params : List Value} {position : Nat} {v : Value} {e : DbError}
    (h : Params.bindAt params position v = .error e) : e.isConfiguration = false := by
  cases position <;> cases h
  rfl

theorem blameless_ask (request : Server → Except Failure α × Server) :
    Blameless (fun _ => True) (Connection.ask request) := by
  refine blameless_of_blames fun c => ?_
  unfold Connection.ask
  split <;> rfl

theorem blames_decodeCells (columns : List Column) (cells : Cells) :
    ∀ index, blames (decodeCells index columns cells) = false := by
  induction columns generalizing cells with
  | nil => exact fun _ => rfl
  | cons column columns ih =>
      intro index
      cases cells with
      | nil => rfl
      | cons cell cells =>
          rw [decodeCells]
          split
          · rw [blames_map]
            exact ih cells (index + 1)
          · rfl

theorem blames_decodeResult (columns : List Column) (rows : List Cells) :
    blames (decodeResult columns rows) = false := by
  rw [decodeResult, blames_map]
  induction rows with
  | nil => rfl
  | cons row rows ih =>
      unfold decodeRows
      split
      next e he =>
        have hrow := blames_decodeCells columns row 0
        rw [he] at hrow
        exact hrow
      next => rw [blames_map, ih]

namespace Statement

theorem blameless_ifOpen {a : Action (Statement × Connection) α}
    (h : Blameless (fun _ => True) a) : Blameless (fun _ => True) (ifOpen a) := by
  refine blameless_of_blames fun s => ?_
  unfold ifOpen
  split
  · exact (h s trivial).2
  · rfl

theorem blameless_ensurePrepared : Blameless (fun _ => True) ensurePrepared := by
  refine blameless_ifOpen (blameless_of_blames fun (st, c) => ?_)
  dsimp only
  split
  next => rfl
  next =>
    split
    next => rfl
    next he => exact ((blameless_ask _).of_eq trivial he).2

theorem blameless_run : Blameless (fun _ => True) run := by
  refine blameless_of_blames fun s => ?_
  unfold run
  split
  next he => exact (blameless_ensurePrepared.of_eq trivial he).2
  next => split <;> rfl

theorem blameless_execute : Blameless (fun _ => True) execute := by
  refine blameless_ifOpen (blameless_of_blames fun (st, c) => ?_)
  dsimp only
  split
  next =>
    have hask : Blameless (fun _ : Statement × Connection => True)
        (Connection.askBeside (Server.simple st.text)) :=
      blameless_of_blames fun s => (blameless_ask (Server.simple st.text) s.2 trivial).2
    exact (hask.bind fun _ => .pure _) (st, c) trivial |>.2
  next => exact (blameless_run.bind fun _ => .pure _) (st, c) trivial |>.2

theorem blames_settleBatch (outcome : Except Failure (List Nat)) (c : Connection) :
    blames (settleBatch outcome c).1 = false := by
  unfold settleBatch
  split
  next counts =>
    split
    next => rfl
    next he => exact ((blameless_ask _).of_eq trivial he).2
  next => split <;> rfl

theorem blameless_executeBatch : Blameless (fun _ => True) executeBatch := by
  refine blameless_of_blames fun s => ?_
  unfold executeBatch
  split
  next he => exact (blameless_ensurePrepared.of_eq trivial he).2
  next p st c _ =>
    dsimp only
    split
    next =>
      split
      next he => exact ((blameless_ask _).of_eq trivial he).2
      next => exact blames_settleBatch _ _
    next => cases (runBatch st.batch p c.server).1 <;> rfl

end Statement

namespace Call

theorem blameless_runFresh (call : Call) : Blameless (fun _ => True) call.runFresh := by
  refine blameless_of_blames fun c => ?_
  unfold runFresh
  split
  next he => exact ((blameless_ask _).of_eq trivial he).2
  next =>
    split
    next => rfl
    next =>
      split
      next => rfl
      next => exact (blames_map _ _).trans (blames_decodeResult _ _)

theorem blameless_execute : Blameless (fun _ => True) execute := by
  refine blameless_of_blames fun (call, c) => ?_
  unfold execute
  dsimp only
  split
  next =>
    split
    next he => exact ((blameless_runFresh _).of_eq trivial he).2
    next => rfl
  next => rfl

theorem blameless_query : Blameless (fun _ => True) query := by
  refine blameless_execute.bind fun hasRows => ?_
  cases hasRows with
  | true => exact fun _ _ => ⟨trivial, rfl⟩
  | false => exact .pure _

end Call

/-- Whatever the server answers, the client makes no configuration error of it. -/
theorem blameless : Backend.Blameless (fun _ : Connection => True) where
  prepare _ := .pure _
  bind position v := by
    refine blameless_of_blames fun (st, c) => ?_
    show blames (Statement.bind position v (st, c)).1 = false
    unfold Statement.bind
    dsimp only
    split
    next => rfl
    next he => exact isConfiguration_of_bindAt he
  executeUpdate := Statement.blameless_run.bind fun _ => .pure _
  executeQuery := Statement.blameless_run.bind fun _ => .ofExcept (blames_decodeResult _ _)
  execute := Statement.blameless_execute
  addBatch := Statement.blameless_ifOpen fun _ _ => ⟨trivial, rfl⟩
  executeBatch := Statement.blameless_executeBatch
  closeStatement _ _ _ := trivial
  bindCall position v := by
    refine blameless_of_blames fun (call, c) => ?_
    show blames (Call.bind position v (call, c)).1 = false
    unfold Call.bind
    dsimp only
    split
    next => rfl
    next he => exact isConfiguration_of_bindAt he
  executeCall := Call.blameless_execute
  queryCall := Call.blameless_query
  resultSet := fun _ _ => ⟨trivial, rfl⟩
  moreResults := fun _ _ => ⟨trivial, rfl⟩

end SqlSession.Postgres
