/-
The batch of a statement over its life.

A caller binds values, queues them as entries and executes the batch, and switches and ends
transactions in between, in any order and however each of these turns out.  What has been
sent of the entries and what is queued still are, one after the other, a sublist of all
that were ever queued (`SentOnce`): queueing adds to both at the end, and an execution turns
the whole batch into a prefix of it that is sent.  So an entry goes out at most once, and no
entry before one that was queued earlier.
-/
import SqlSession.Proofs.Postgres.Batch

namespace SqlSession.Postgres.Statement

variable {q q' : List (List Value)} {s s' s'' : Statement × Connection}

/-- A method of a statement that is open, or of the connection that it runs on. -/
inductive Method where
  | bind (position : Nat) (v : Value)
  | clearParams
  | addBatch
  | executeBatch
  | setAutoCommit (on : Bool)
  | commit
  | rollback

/-- Run a method. -/
def perform : Method → Statement × Connection → Statement × Connection
  | .bind position v, s => (bind position v s).2
  | .clearParams, s => (s.1.clearParams, s.2)
  | .addBatch, s => (addBatch s).2
  | .executeBatch, s => (executeBatch s).2
  | .setAutoCommit on, s => (s.1, (Connection.setAutoCommit on s.2).2)
  | .commit, s => (s.1, (Connection.commit s.2).2)
  | .rollback, s => (s.1, (Connection.rollback s.2).2)

/-- The statement and its connection after some methods, whatever each of them has answered. -/
def performAll (ms : List Method) (s : Statement × Connection) : Statement × Connection :=
  ms.foldl (fun s m => perform m s) s

/-- The entry that a method queues. -/
def Method.entry (m : Method) (st : Statement) : List (List Value) :=
  match m with
  | .addBatch => [st.params]
  | _ => []

/-- The entries that some methods queue, in order. -/
def queued : List Method → Statement × Connection → List (List Value)
  | [], _ => []
  | m :: ms, s => m.entry s.1 ++ queued ms (perform m s)

/-- The entries are what the runs carry, one by one; without the server's side of the
statement nothing was sent. -/
def SentBy (prepared : Option Prepared) (entries : List (List Value)) (runs : List Event) : Prop :=
  match prepared with
  | none => entries = [] ∧ runs = []
  | some p => List.Forall₂ p.Carries entries runs

theorem SentBy.nil (prepared : Option Prepared) : SentBy prepared [] [] := by
  cases prepared with
  | none => exact ⟨rfl, rfl⟩
  | some p => exact List.Forall₂.nil

theorem SentBy.append {prepared : Option Prepared} {entries entries' : List (List Value)}
    {runs runs' : List Event} (h : SentBy prepared entries runs)
    (h' : SentBy prepared entries' runs') :
    SentBy prepared (entries ++ entries') (runs ++ runs') := by
  cases prepared with
  | none =>
      obtain ⟨rfl, rfl⟩ := h
      obtain ⟨rfl, rfl⟩ := h'
      exact ⟨rfl, rfl⟩
  | some p => exact List.rel_append h h'

/-! ### Steps -/

/-- From one state to the next entries are queued behind those that were, and of all of them
some are sent and some are left. -/
structure SentOnce (queue : List (List Value)) (s s' : Statement × Connection) : Prop where
  isOpen : s'.1.isOpen = s.1.isOpen
  /-- The statement stays prepared as it is. -/
  prepared : ∀ p, s.1.prepared = some p → ∃ n, s'.1.prepared = some (p.after n)
  sent : ∃ entries grown, s'.2.server.log = s.2.server.log ++ grown ∧
    SentBy s'.1.prepared entries (grown.filter Event.isRun) ∧
    (entries ++ s'.1.batch).Sublist (s.1.batch ++ queue)

/-- What was sent stays sent. -/
theorem SentOnce.sentBy (h : SentOnce q s s') {entries : List (List Value)} {runs : List Event}
    (hs : SentBy s.1.prepared entries runs) : SentBy s'.1.prepared entries runs := by
  cases hp : s.1.prepared with
  | none =>
      rw [hp] at hs
      obtain ⟨rfl, rfl⟩ := hs
      exact SentBy.nil _
  | some p =>
      rw [hp] at hs
      obtain ⟨n, hn⟩ := h.prepared p hp
      rw [hn]
      exact hs

theorem SentOnce.refl (s : Statement × Connection) : SentOnce [] s s where
  isOpen := rfl
  prepared p hp := ⟨0, hp⟩
  sent := ⟨[], [], (List.append_nil _).symm, SentBy.nil _, by simp⟩

theorem SentOnce.trans (h : SentOnce q s s') (h' : SentOnce q' s' s'') :
    SentOnce (q ++ q') s s'' where
  isOpen := h'.isOpen.trans h.isOpen
  prepared p hp := by
    obtain ⟨n, hn⟩ := h.prepared p hp
    obtain ⟨m, hm⟩ := h'.prepared _ hn
    exact ⟨n + m, by rw [hm, Prepared.after_after]⟩
  sent := by
    obtain ⟨entries, grown, hlog, hsent, hsub⟩ := h.sent
    obtain ⟨entries', grown', hlog', hsent', hsub'⟩ := h'.sent
    refine ⟨entries ++ entries', grown ++ grown', ?_, ?_, ?_⟩
    · rw [hlog', hlog, List.append_assoc]
    · rw [List.filter_append]
      exact (h'.sentBy hsent).append hsent'
    · calc entries ++ entries' ++ s''.1.batch
          = entries ++ (entries' ++ s''.1.batch) := List.append_assoc ..
        _ |>.Sublist (entries ++ (s'.1.batch ++ q')) := hsub'.append_left entries
        _ = entries ++ s'.1.batch ++ q' := (List.append_assoc ..).symm
        _ |>.Sublist (s.1.batch ++ q ++ q') := hsub.append_right q'
        _ = s.1.batch ++ (q ++ q') := List.append_assoc ..

/-- A step that runs no statement. -/
theorem SentOnce.quiet (hopen : s'.1.isOpen = s.1.isOpen)
    (hprepared : s'.1.prepared = s.1.prepared) (hbatch : s'.1.batch = s.1.batch ++ q)
    {grown : List Event} (hlog : s'.2.server.log = s.2.server.log ++ grown)
    (hquiet : grown.filter Event.isRun = []) : SentOnce q s s' where
  isOpen := hopen
  prepared p hp := ⟨0, hprepared.trans hp⟩
  sent := ⟨[], grown, hlog, by rw [hquiet]; exact SentBy.nil _, by rw [hbatch]; exact .refl _⟩

/-- A step that asks the server for a command or for nothing. -/
theorem SentOnce.command {st : Statement} {c c' : Connection} {text : String}
    (h : c'.server = c.server ∨ c'.server = (c.server.simple text).2) :
    SentOnce [] (st, c) (st, c') := by
  have hbatch : st.batch = st.batch ++ [] := (List.append_nil _).symm
  rcases h with h | h
  · have hlog : c'.server.log = c.server.log ++ [] := by rw [h, List.append_nil]
    exact SentOnce.quiet rfl rfl hbatch hlog rfl
  · refine SentOnce.quiet rfl rfl hbatch ((congrArg Server.log h).trans (Server.simple_log ..)) ?_
    split <;> rfl

theorem filter_isRun_of_carries {p : Prepared} {entries : List (List Value)} {runs : List Event}
    (h : List.Forall₂ p.Carries entries runs) : runs.filter Event.isRun = runs := by
  induction h with
  | nil => rfl
  | cons hcarries _ ih =>
      obtain ⟨args, -, rfl⟩ := hcarries
      rw [List.filter_cons_of_pos rfl, ih]

theorem filter_isRun_of_parses {parsed : List Event} (h : ∀ e ∈ parsed, e.isParse = true) :
    parsed.filter Event.isRun = [] := by
  refine List.filter_eq_nil_iff.mpr fun e he hrun => ?_
  have hparse := h e he
  cases e with
  | parse text => cases hrun
  | run text args => cases hparse
  | simple text => cases hparse

/-- An execution that has been prepared runs the entries it sends and nothing else. -/
theorem Transacted.grown {batch : List (List Value)} {autoCommit : Bool} {p : Prepared}
    {before after : Server} {r : Except DbError (List Nat)} {sent : List Event}
    (h : Transacted batch autoCommit p before r after sent) :
    ∃ grown, after.log = before.log ++ grown ∧ grown.filter Event.isRun = sent := by
  have hsent := filter_isRun_of_carries h.carries
  cases hauto : autoCommit with
  | true =>
      cases hbegin : before.accepts with
      | true =>
          obtain ⟨-, hlog, -⟩ := h.settled hauto hbegin
          refine ⟨_, hlog.trans (List.append_assoc ..), ?_⟩
          rw [List.filter_append, List.filter_cons_of_neg (by simp [Event.isRun]), hsent]
          split <;> exact List.append_nil _
      | false =>
          obtain ⟨rfl, -, hlog⟩ := h.unbegun hauto hbegin
          refine ⟨_, hlog, ?_⟩
          split <;> rfl
  | false => exact ⟨sent, (h.plain hauto).2.1, hsent⟩

theorem sentOnce_executeBatch {st : Statement} (h : st.isOpen = true) (c : Connection) :
    SentOnce [] (st, c) (executeBatch (st, c)).2 := by
  obtain ⟨server, hparsing, hr⟩ := ensurePrepared_of_open h c
  obtain ⟨parsed, hparsed, hlog⟩ := hparsing.log
  rcases hr with ⟨p, hp, hr⟩ | ⟨-, e, hr⟩
  · obtain ⟨sent, htransacted, hst⟩ := executeBatch_transacted hr rfl
    obtain ⟨grown, hgrown, hruns⟩ := htransacted.grown
    refine ⟨?_, fun q hq => ?_, ?_⟩
    · rw [hst]
    · rw [hst]
      rcases hp with hp | ⟨hp, -⟩ <;> cases hq.symm.trans hp
      exact ⟨sent.length, rfl⟩
    · refine ⟨st.batch.take sent.length, parsed ++ grown, ?_, ?_, ?_⟩
      · rw [hgrown, hlog, List.append_assoc]
      · rw [List.filter_append, filter_isRun_of_parses hparsed, hruns, hst]
        exact htransacted.carries
      · rw [hst, List.append_nil, List.append_nil]
        exact List.take_sublist ..
  · rw [executeBatch_of_refused hr]
    exact SentOnce.quiet rfl rfl (List.append_nil _).symm hlog (filter_isRun_of_parses hparsed)

theorem sentOnce_perform (m : Method) {s : Statement × Connection} (h : s.1.isOpen = true) :
    SentOnce (m.entry s.1) s (perform m s) := by
  obtain ⟨st, c⟩ := s
  have hlog : c.server.log = c.server.log ++ [] := (List.append_nil _).symm
  have hbatch : st.batch = st.batch ++ [] := (List.append_nil _).symm
  cases m with
  | bind position v =>
      simp only [perform, bind, Method.entry]
      split <;> exact SentOnce.quiet rfl rfl hbatch hlog rfl
  | clearParams => exact SentOnce.quiet rfl rfl hbatch hlog rfl
  | addBatch =>
      have hqueued : perform .addBatch (st, c) =
          ({ st with params := [], batch := st.batch ++ [st.params] }, c) := by
        simp only [perform, addBatch, ifOpen, if_pos h]
      rw [hqueued]
      exact SentOnce.quiet rfl rfl rfl hlog rfl
  | executeBatch => exact sentOnce_executeBatch h c
  | setAutoCommit on => exact SentOnce.command (Connection.setAutoCommit_server on c)
  | commit => exact SentOnce.command (Connection.endTransaction_server "COMMIT" c)
  | rollback => exact SentOnce.command (Connection.endTransaction_server "ROLLBACK" c)

/-! ### Runs -/

theorem sentOnce_performAll (ms : List Method) {s : Statement × Connection}
    (h : s.1.isOpen = true) : SentOnce (queued ms s) s (performAll ms s) := by
  induction ms generalizing s with
  | nil => exact SentOnce.refl s
  | cons m ms ih =>
      have hstep := sentOnce_perform m h
      exact hstep.trans (ih (hstep.isOpen.trans h))

/--
**A batch is sent once, and as a whole or not at all.**  After any run of methods on an open
statement and its connection, against any server: the runs that have reached the server carry
entries that were queued, each at most once and in the order of the queue, and none of those
that are queued still.  When the batch is executed then, at most a request to prepare the
statement comes first; if that fails nothing follows, and otherwise `Transacted` says what is
sent and answered.
-/
theorem batch_sent_once_and_whole (ms : List Method) (st : Statement) (c : Connection)
    (hopen : st.isOpen = true) :
    let s := performAll ms (st, c)
    let ready := ensurePrepared s
    let out := executeBatch s
    (∃ entries grown, s.2.server.log = c.server.log ++ grown ∧
        SentBy s.1.prepared entries (grown.filter Event.isRun) ∧
        (entries ++ s.1.batch).Sublist (st.batch ++ queued ms (st, c))) ∧
      (∃ parsed, (∀ e ∈ parsed, Event.isParse e = true) ∧
        ready.2.2.server.log = s.2.server.log ++ parsed) ∧
      (∀ e, ready.1 = .error e →
        out.1 = .error e ∧ out.2.2.server = ready.2.2.server) ∧
      ∀ p, ready.1 = .ok p →
        ∃ sent, Transacted s.1.batch s.2.autoCommit p ready.2.2.server out.1 out.2.2.server
          sent := by
  intro s ready out
  have hrun := sentOnce_performAll ms (s := (st, c)) hopen
  have hs : s.1.isOpen = true := hrun.isOpen.trans hopen
  obtain ⟨server, hparsing, hready⟩ := ensurePrepared_of_open hs s.2
  refine ⟨hrun.sent, ?_⟩
  rcases hready with ⟨p, -, hr⟩ | ⟨-, e, hr⟩
  · have hr : ready = _ := hr
    rw [hr]
    refine ⟨hparsing.log, nofun, fun q hq => ?_⟩
    cases hq
    obtain ⟨sent, hsent, -⟩ := executeBatch_transacted hr rfl
    exact ⟨sent, hsent⟩
  · have hr : ready = _ := hr
    have hout : out = _ := executeBatch_of_refused hr
    rw [hr, hout]
    refine ⟨hparsing.log, fun e' he => ?_, nofun⟩
    cases he
    exact ⟨rfl, rfl⟩

/-- The second of two entries is refused. -/
theorem refused_entry_rolls_back :
    let p : Prepared := { text := "insert into visit default values", runs := [.count 1, .refuse] }
    let st : Statement := { text := p.text, prepared := some p }
    let s := performAll [.addBatch, .addBatch] (st, {})
    st.isOpen = true ∧
      (∃ sent, Transacted s.1.batch s.2.autoCommit p (ensurePrepared s).2.2.server
        (executeBatch s).1 (executeBatch s).2.2.server sent) ∧
      (executeBatch s).2.2.server.log =
        [.simple "BEGIN", .run p.text [], .run p.text [], .simple "ROLLBACK"] := by
  intro p st s
  exact ⟨rfl, (batch_sent_once_and_whole [.addBatch, .addBatch] st {} rfl).2.2.2 p rfl, rfl⟩

end SqlSession.Postgres.Statement
