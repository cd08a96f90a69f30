/-
Statements and calls that are closed, and what is prepared before.

A statement has its text prepared when it is first run, and keeps the server's side of it until it
is closed.  `Statement.allowance` counts what it may still have prepared: one text while it is
open and has none, and nothing from then on.  Every use pays for each text that it has prepared out
of the allowance (`Statement.Pays`), and no use raises it, closing included, so over the whole life
of a statement one text is prepared at most.

Once a statement or a call is closed there is no way back, because only closing touches `isOpen`.
From then on every use leaves the connection as it is, and those that would need the server are
refused.  This holds whoever else uses the connection in between.
-/
import SqlSession.Proofs.Action
import SqlSession.Proofs.Postgres.Batch
import SqlSession.Proofs.Postgres.Uses

namespace SqlSession.Postgres

variable {c : Connection} {s s' s'' : Server} {p : Prepared}

/-! ### Requests that prepare nothing -/

/-- From one server to the next nothing was to be prepared. -/
def Quiet (s s' : Server) : Prop :=
  ∃ grown, s'.log = s.log ++ grown ∧ grown.countP Event.isParse = 0

theorem Quiet.refl (s : Server) : Quiet s s :=
  ⟨[], (List.append_nil _).symm, rfl⟩

theorem Quiet.trans (h : Quiet s s') (h' : Quiet s' s'') : Quiet s s'' := by
  obtain ⟨grown, hlog, hcount⟩ := h
  obtain ⟨grown', hlog', hcount'⟩ := h'
  refine ⟨grown ++ grown', ?_, ?_⟩
  · rw [hlog', hlog, List.append_assoc]
  · rw [List.countP_append, hcount, hcount']

theorem quiet_simple (text : String) (s : Server) : Quiet s (s.simple text).2 := by
  refine ⟨_, s.simple_log text, ?_⟩
  by_cases h : s.isConnected <;> simp [h, Event.isParse]

theorem quiet_run (p : Prepared) (args : Cells) (s : Server) : Quiet s (s.run p args).2.2 := by
  by_cases h : s.isConnected = true
  · rw [Server.run_of_connected p args h]
    exact ⟨[.run p.text args], rfl, rfl⟩
  · rw [Server.run_of_closed p args (by simpa using h)]
    exact Quiet.refl s

/-- Entries of a batch are carried by runs. -/
theorem countP_isParse_of_carries {entries : List (List Value)} {sent : List Event}
    (h : List.Forall₂ p.Carries entries sent) : sent.countP Event.isParse = 0 := by
  induction h with
  | nil => rfl
  | cons hcarries _ ih =>
      obtain ⟨args, -, rfl⟩ := hcarries
      rw [List.countP_cons_of_neg (by simp [Event.isParse]), ih]

theorem quiet_runBatch (batch : List (List Value)) (p : Prepared) (s : Server) :
    Quiet s (Statement.runBatch batch p s).2.2 := by
  obtain ⟨sent, hsent⟩ := Statement.runBatch_sending batch p s
  exact ⟨sent, by rw [hsent.server], countP_isParse_of_carries hsent.carries⟩

namespace Statement

variable {st st' : Statement} {t t' t'' : Statement × Connection}

theorem quiet_runOnce (p : Prepared) (params : List Value) (s : Server) :
    Quiet s (runOnce p params s).2.2 := by
  unfold runOnce
  split
  · exact Quiet.refl s
  · exact quiet_run ..

theorem quiet_settleBatch (outcome : Except Failure (List Nat)) (c : Connection) :
    Quiet c.server (settleBatch outcome c).2.server := by
  rw [settleBatch_snd]
  exact quiet_simple ..

/-! ### What is prepared -/

/-- How many texts the statement can still have prepared. -/
def allowance (st : Statement) : Nat :=
  if st.isOpen = true ∧ st.prepared = none then 1 else 0

/-- What is prepared from one state to the next is paid for. -/
structure Pays (t t' : Statement × Connection) : Prop where
  text : t'.1.text = t.1.text
  log : ∃ grown, t'.2.server.log = t.2.server.log ++ grown ∧
    t.2.server.granted (grown.countP Event.isParse) + t'.1.allowance ≤ t.1.allowance

/-- Nothing is paid for what prepares nothing. -/
theorem Pays.quiet (h : Pays t t') (htext : t''.1.text = t'.1.text)
    (hserver : Quiet t'.2.server t''.2.server) (hallowance : t''.1.allowance ≤ t'.1.allowance) :
    Pays t t'' := by
  obtain ⟨grown, hlog, hpaid⟩ := h.log
  obtain ⟨grown', hlog', hcount⟩ := hserver
  refine ⟨htext.trans h.text, grown ++ grown', ?_, ?_⟩
  · rw [hlog', hlog, List.append_assoc]
  · rw [List.countP_append, hcount, Nat.add_zero]
    omega

theorem Pays.refl (t : Statement × Connection) : Pays t t := by
  refine ⟨rfl, [], (List.append_nil _).symm, ?_⟩
  simp [Server.granted]

/-- A use that leaves the server alone. -/
theorem Pays.unsent (htext : t'.1.text = t.1.text) (hserver : t'.2 = t.2)
    (hallowance : t'.1.allowance ≤ t.1.allowance) : Pays t t' :=
  (Pays.refl t).quiet htext (hserver ▸ Quiet.refl _) hallowance

theorem allowance_of_prepared (h : st.prepared = some p) : st.allowance = 0 := by
  simp [allowance, h]

theorem allowance_le (hopen : st'.isOpen = st.isOpen) (hprepared : st'.prepared = st.prepared) :
    st'.allowance ≤ st.allowance := by
  simp [allowance, hopen, hprepared]

/-- A text that is prepared is the only one, and none that is refused is paid for. -/
theorem pays_ensurePrepared (t : Statement × Connection) : Pays t (ensurePrepared t).2 := by
  obtain ⟨st, c⟩ := t
  by_cases hopen : st.isOpen = true
  · cases hprepared : st.prepared with
    | some p =>
        simp only [ensurePrepared, ifOpen, hopen, if_true, hprepared]
        exact Pays.refl _
    | none =>
        have hfull : st.allowance = 1 := if_pos ⟨hopen, hprepared⟩
        have hgranted := c.server.granted_one
        simp only [ensurePrepared, ifOpen, hopen, if_true, hprepared, Connection.ask]
        by_cases hserver : c.server.isConnected = true
        · rw [Server.prepare_of_connected _ hserver]
          cases hreply : c.server.prepareReply 0 with
          | prepared params columns runs =>
              rw [hreply, PrepareReply.isDone, if_pos rfl] at hgranted
              refine ⟨rfl, [.parse (Sql.numberPlaceholders st.text)], rfl, ?_⟩
              show c.server.granted 1 + 0 ≤ st.allowance
              omega
          | refuse =>
              rw [hreply, PrepareReply.isDone, if_neg Bool.false_ne_true] at hgranted
              refine ⟨rfl, [.parse (Sql.numberPlaceholders st.text)], rfl, ?_⟩
              show c.server.granted 1 + st.allowance ≤ st.allowance
              omega
        · rw [Server.prepare_of_closed _ (by simpa using hserver)]
          exact Pays.refl _
  · simp only [ensurePrepared, ifOpen, hopen]
    exact Pays.refl _

theorem pays_run (t : Statement × Connection) : Pays t (run t).2 := by
  have hprepare := pays_ensurePrepared t
  unfold run
  rcases hr : ensurePrepared t with ⟨e | p, st, c⟩
  · rw [hr] at hprepare
    exact hprepare
  · rw [hr] at hprepare
    have hsent := quiet_runOnce p st.params c.server
    have hspent (q : Prepared) : { st with prepared := some q }.allowance ≤ st.allowance := by
      rw [allowance_of_prepared rfl]
      exact Nat.zero_le _
    rcases ho : runOnce p st.params c.server with ⟨f | reply, q, server⟩
    all_goals
      rw [ho] at hsent
      simp only [ho]
      exact hprepare.quiet rfl hsent (hspent q)

theorem pays_execute (t : Statement × Connection) : Pays t (execute t).2 := by
  obtain ⟨st, c⟩ := t
  by_cases hopen : st.isOpen = true
  · by_cases hparams : st.params.isEmpty = true
    · have hplain : (execute (st, c)).2 = (st, { c with server := (c.server.simple st.text).2 }) := by
        simp only [execute, ifOpen, hopen, hparams, if_true]
        rw [Action.bind_pure_snd]
        simp only [Connection.askBeside, Connection.ask]
        rcases c.server.simple st.text with ⟨_ | _, _⟩ <;> rfl
      rw [hplain]
      exact (Pays.refl (st, c)).quiet rfl (quiet_simple _ _) (Nat.le_refl _)
    · have hrun : (execute (st, c)).2 = (run (st, c)).2 := by
        simp only [execute, ifOpen, hopen, hparams, if_true]
        exact Action.bind_pure_snd run _ _
      rw [hrun]
      exact pays_run _
  · simp only [execute, ifOpen, hopen]
    exact Pays.refl _

theorem pays_executeBatch (t : Statement × Connection) : Pays t (executeBatch t).2 := by
  have hprepare := pays_ensurePrepared t
  rcases hr : ensurePrepared t with ⟨e | p, st, c⟩
  · rw [hr] at hprepare
    rw [executeBatch_of_refused hr]
    exact hprepare
  · rw [hr] at hprepare
    have hspent (q : Prepared) :
        { st with batch := [], prepared := some q }.allowance ≤ st.allowance := by
      rw [allowance_of_prepared rfl]
      exact Nat.zero_le _
    by_cases hauto : c.autoCommit = true
    · by_cases hbegin : c.server.accepts = true
      · have hbegun := Server.simple_snd "BEGIN" (Server.isConnected_of_accepts hbegin)
        rw [executeBatch_of_begun hr hauto hbegin, ← hbegun]
        refine hprepare.quiet rfl ?_ (hspent _)
        refine (quiet_simple "BEGIN" c.server).trans ((quiet_runBatch st.batch p _).trans ?_)
        exact quiet_settleBatch _ { c with server := _ }
      · obtain ⟨e, he⟩ := executeBatch_of_unbegun hr hauto (by simpa using hbegin)
        rw [he]
        exact hprepare.quiet rfl (quiet_simple _ _) (allowance_le rfl rfl)
    · rw [executeBatch_of_manual hr (by simpa using hauto)]
      exact hprepare.quiet rfl (quiet_runBatch _ _ _) (hspent _)

theorem pays_use (u : Use) (t : Statement × Connection) : Pays t (use u t) := by
  cases u with
  | bind position v =>
      simp only [use, bind]
      split <;> exact Pays.unsent rfl rfl (allowance_le rfl rfl)
  | clearParams => exact Pays.unsent rfl rfl (allowance_le rfl rfl)
  | executeUpdate =>
      have hrun : (executeUpdate t).2 = (run t).2 := Action.bind_pure_snd run _ t
      rw [use, hrun]
      exact pays_run t
  | executeQuery =>
      have hrun : id (executeQuery t).2 = id (run t).2 :=
        Action.Keeps.bind_eq (fun _ _ => rfl) t
      rw [id, id] at hrun
      rw [use, hrun]
      exact pays_run t
  | execute => exact pays_execute t
  | addBatch =>
      by_cases hopen : t.1.isOpen = true
      · simp only [use, addBatch, ifOpen, hopen, if_true]
        exact Pays.unsent rfl rfl (allowance_le hopen.symm rfl)
      · simp only [use, addBatch, ifOpen, hopen]
        exact Pays.refl t
  | executeBatch => exact pays_executeBatch t
  | close => exact Pays.unsent rfl rfl (Nat.zero_le _)

/-- How many texts some uses have prepared. -/
def granted : List (Connection × Use) → Statement → Nat
  | [], _ => 0
  | (c, u) :: uses, st =>
    let (st', c') := use u (st, c)
    c.server.granted ((c'.server.log.drop c.server.log.length).countP Event.isParse)
      + granted uses st'

/-- All that the uses have prepared is paid for. -/
theorem granted_add_allowance_le (uses : List (Connection × Use)) (st : Statement) :
    granted uses st + (useAll use uses st).allowance ≤ st.allowance := by
  induction uses generalizing st with
  | nil => exact Nat.le_of_eq (Nat.zero_add _)
  | cons cu uses ih =>
      obtain ⟨c, u⟩ := cu
      obtain ⟨grown, hlog, hpaid⟩ := (pays_use u (st, c)).log
      have hpaid : c.server.granted (grown.countP Event.isParse) + (use u (st, c)).1.allowance
          ≤ st.allowance := hpaid
      have hrest := ih (use u (st, c)).1
      have hgrown : (use u (st, c)).2.server.log.drop c.server.log.length = grown := by
        rw [hlog]
        exact List.drop_left
      show c.server.granted (((use u (st, c)).2.server.log.drop c.server.log.length).countP _)
        + granted uses (use u (st, c)).1 + (useAll use uses (use u (st, c)).1).allowance ≤ _
      rw [hgrown]
      omega

/-! ### After closing -/

/-- The statement is closed and stays so.  Nothing reaches the server through it, and what would
have to is refused. -/
structure Silent (text : String) (t : Statement × Connection) : Prop where
  isOpen : ∀ u, (use u t).1.isOpen = false
  connection : ∀ u, (use u t).2 = t.2
  executeUpdate : executeUpdate t = (.error (closedError text), t)
  executeQuery : executeQuery t = (.error (closedError text), t)
  execute : execute t = (.error (closedError text), t)
  addBatch : addBatch t = (.error (closedError text), t)
  executeBatch : executeBatch t = (.error (closedError text), t)

theorem silent_of_closed (h : t.1.isOpen = false) : Silent t.1.text t := by
  have hprepare : ensurePrepared t = (.error (closedError t.1.text), t) := by
    simp [ensurePrepared, ifOpen, h]
  have hrun : run t = (.error (closedError t.1.text), t) := by
    simp [run, hprepare]
  have hupdate : executeUpdate t = (.error (closedError t.1.text), t) :=
    Action.bind_of_error hrun
  have hquery : executeQuery t = (.error (closedError t.1.text), t) :=
    Action.bind_of_error hrun
  have hexecute : execute t = (.error (closedError t.1.text), t) := by
    simp [execute, ifOpen, h]
  have hadd : addBatch t = (.error (closedError t.1.text), t) := by
    simp [addBatch, ifOpen, h]
  have hbatch : executeBatch t = (.error (closedError t.1.text), t) := by
    simp [executeBatch, hprepare]
  -- the uses that are not refused change nothing but parameters
  have huse (u : Use) : (use u t).1.isOpen = false ∧ (use u t).2 = t.2 := by
    cases u with
    | bind position v =>
        simp only [use, bind]
        split
        · exact ⟨h, rfl⟩
        · exact ⟨h, rfl⟩
    | clearParams => exact ⟨h, rfl⟩
    | executeUpdate => simp [use, hupdate, h]
    | executeQuery => simp [use, hquery, h]
    | execute => simp [use, hexecute, h]
    | addBatch => simp [use, hadd, h]
    | executeBatch => simp [use, hbatch, h]
    | close => exact ⟨rfl, rfl⟩
  exact ⟨fun u => (huse u).1, fun u => (huse u).2, hupdate, hquery, hexecute, hadd, hbatch⟩

theorem text_useAll (uses : List (Connection × Use)) (st : Statement) :
    (useAll use uses st).text = st.text :=
  useAll_keeps (fun u _ t => (pays_use u.2 t).text) st

theorem isOpen_useAll (uses : List (Connection × Use)) (h : st.isOpen = false) :
    (useAll use uses st).isOpen = false := by
  refine useAll_induction (P := fun st' : Statement => st'.isOpen = false) ?_ h
  intro u _ st' hclosed
  exact (silent_of_closed (t := (st', u.1)) hclosed).isOpen u.2

theorem silent_useAll_close (st : Statement) (before after : List (Connection × Use))
    (found c : Connection) :
    Silent st.text (useAll use (before ++ (found, .close) :: after) st, c) := by
  have hclose : useAll use (before ++ (found, .close) :: after) st
      = useAll use after (useAll use before st).close := useAll_append ..
  have htext : (useAll use after (useAll use before st).close).text = st.text :=
    (text_useAll after _).trans (text_useAll before st)
  rw [hclose, ← htext]
  exact silent_of_closed (t := (_, c)) (isOpen_useAll after rfl)

end Statement

namespace Call

variable {t : Call × Connection}

/-- The call is closed and stays so.  Nothing reaches the server through it, and what would have to
is refused. -/
structure Silent (text : String) (t : Call × Connection) : Prop where
  isOpen : ∀ u, (use u t).1.isOpen = false
  connection : ∀ u, (use u t).2 = t.2
  execute : execute t = (.error (closedError text), t)
  query : query t = (.error (closedError text), t)

theorem silent_of_closed (h : t.1.isOpen = false) : Silent t.1.text t := by
  have hexecute : execute t = (.error (closedError t.1.text), t) := execute_of_closed h
  have hquery : query t = (.error (closedError t.1.text), t) :=
    Action.bind_of_error hexecute
  -- the uses that are not refused change nothing but what the call holds
  have huse (u : Use) : (use u t).1.isOpen = false ∧ (use u t).2 = t.2 := by
    cases u with
    | bind position v =>
        simp only [use, bind]
        split
        · exact ⟨h, rfl⟩
        · exact ⟨h, rfl⟩
    | register position type =>
        simp only [use, register]
        split
        · exact ⟨h, rfl⟩
        · exact ⟨h, rfl⟩
    | execute => simp [use, hexecute, h]
    | query => simp [use, hquery, h]
    | resultSet => exact ⟨h, rfl⟩
    | moreResults => exact ⟨h, rfl⟩
    | close => exact ⟨rfl, rfl⟩
  exact ⟨fun u => (huse u).1, fun u => (huse u).2, hexecute, hquery⟩

theorem text_use (u : Use) (t : Call × Connection) : (use u t).1.text = t.1.text := by
  cases u with
  | bind position v =>
      simp only [use, bind]
      split <;> rfl
  | register position type =>
      simp only [use, register]
      split <;> rfl
  | execute => exact (congrArg text (bare_execute t) :)
  | query => exact (congrArg text (bare_query t) :)
  | resultSet | moreResults | close => rfl

theorem text_useAll (uses : List (Connection × Use)) (call : Call) :
    (useAll use uses call).text = call.text :=
  useAll_keeps (fun u _ => text_use u.2) call

theorem isOpen_useAll (uses : List (Connection × Use)) {call : Call} (h : call.isOpen = false) :
    (useAll use uses call).isOpen = false := by
  refine useAll_induction (P := fun call' : Call => call'.isOpen = false) ?_ h
  intro u _ call' hclosed
  exact (silent_of_closed (t := (call', u.1)) hclosed).isOpen u.2

theorem silent_useAll_close (call : Call) (before after : List (Connection × Use))
    (found c : Connection) :
    Silent call.text (useAll use (before ++ (found, .close) :: after) call, c) := by
  have hclose : useAll use (before ++ (found, .close) :: after) call
      = useAll use after (useAll use before call).close := useAll_append ..
  have htext : (useAll use after (useAll use before call).close).text = call.text :=
    (text_useAll after _).trans (text_useAll before call)
  rw [hclose, ← htext]
  exact silent_of_closed (t := (_, c)) (isOpen_useAll after rfl)

end Call

/--
**What is closed is closed for good, and a statement is prepared once.**  After any uses in which
a statement or a call has been closed, whatever connections they have found, nothing reaches the
server through it, and what would have to is refused with its text.  And over any uses of a
statement, from any state of it on, the server prepares one text for it at most.
-/
theorem closed_for_good (st : Statement) (before after uses : List (Connection × Statement.Use))
    (call : Call) (before' after' : List (Connection × Call.Use)) (found c : Connection) :
    Statement.Silent st.text
        (useAll Statement.use (before ++ (found, .close) :: after) st, c) ∧
      Statement.granted uses st ≤ 1 ∧
      Call.Silent call.text (useAll Call.use (before' ++ (found, .close) :: after') call, c) := by
  have hallowance : st.allowance ≤ 1 := by
    unfold Statement.allowance
    split <;> decide
  have hpaid := Statement.granted_add_allowance_le uses st
  refine ⟨Statement.silent_useAll_close st before after found c, ?_,
    Call.silent_useAll_close call before' after' found c⟩
  omega

end SqlSession.Postgres
