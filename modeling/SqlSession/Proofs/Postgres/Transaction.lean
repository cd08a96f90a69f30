/-
Transactions, as the server sees them.

A server reads a text clause by clause.  What a clause does to the transaction is all that
is assumed of it: a beginning opens one unless it fails, an end closes it even if it fails,
and nothing runs behind a clause that fails.  So the log and the replies to the plain texts
in it tell whether a transaction is open (`Leads`), and a connection, which has no more to
go by than whether its last request failed, can be compared with it.

They part where an end of the transaction is answered by an error.  The connection stays
out of auto-commit, but the transaction is gone, and the next one was not begun.  The
invariant along a run is that this is the only way: a transaction is open exactly if
auto-commit is off and the last request that was to end one has succeeded.
-/
import SqlSession.Proofs.Postgres.Batch

namespace SqlSession.Postgres

/-! ### The server's reading of a log -/

/-- What a clause of a text is for. -/
inductive Clause where
  | begin
  /-- It commits or rolls back. -/
  | finish
  | other
  deriving DecidableEq

/-- Whether a transaction is open after a clause, which has succeeded or not. -/
def Clause.leaves : Clause → (done : Bool) → (t : Bool) → Bool
  | .begin, done, t => done || t
  | .finish, _, _ => false
  | .other, _, t => t

/-- The clauses of a text may take the transaction from `t` to `u`; if the text as a whole
fails, it is at one of them, and nothing runs behind it. -/
def Runs : List Clause → (done : Bool) → (t u : Bool) → Prop
  | [], done, t, u => done = true ∧ u = t
  | clause :: rest, done, t, u =>
    (done = false ∧ u = clause.leaves false t) ∨ Runs rest done (clause.leaves true t) u

section Reading

variable (clauses : String → List Clause)

/-- The requests in a log may take the transaction from `t` to `u`; the plain texts are
answered by the replies in turn, and a run of a prepared statement in any way. -/
def Leads : List SimpleReply → List Event → (t u : Bool) → Prop
  | _, [], t, u => u = t
  | replies, .parse _ :: log, t, u => Leads replies log t u
  | replies, .run text _ :: log, t, u =>
    ∃ done v, Runs (clauses text) done t v ∧ Leads replies log v u
  | replies, .simple text :: log, t, u =>
    ∃ v, Runs (clauses text) (replies.headD (.rows 0)).isDone t v ∧ Leads replies.tail log v u

/-- How the texts are read that connections send themselves. -/
structure Reading : Prop where
  begin : clauses "BEGIN" = [.begin]
  commit : clauses "COMMIT" = [.finish]
  rollback : clauses "ROLLBACK" = [.finish]
  commitBegin : clauses "COMMIT; BEGIN" = [.finish, .begin]
  rollbackBegin : clauses "ROLLBACK; BEGIN" = [.finish, .begin]

/-- A text that has nothing to do with transactions. -/
def Plain (text : String) : Prop :=
  ∀ clause ∈ clauses text, clause = .other

instance (text : String) : Decidable (Plain clauses text) :=
  inferInstanceAs (Decidable (∀ clause ∈ clauses text, clause = .other))

end Reading

variable {clauses : String → List Clause} {s s' s'' : Server} {t u v : Bool}

theorem runs_plain {cs : List Clause} (h : ∀ clause ∈ cs, clause = .other) :
    (∃ done, Runs cs done t u) ↔ u = t := by
  induction cs with
  | nil => exact ⟨fun ⟨_, hr⟩ => hr.2, fun hu => ⟨true, rfl, hu⟩⟩
  | cons clause rest ih =>
      have hother := h clause (List.mem_cons_self ..)
      have ih := ih fun clause hmem => h clause (List.mem_cons_of_mem _ hmem)
      subst hother
      constructor
      · rintro ⟨done, ⟨-, hu⟩ | hr⟩
        · exact hu
        · exact ih.mp ⟨done, hr⟩
      · intro hu
        obtain ⟨done, hr⟩ := ih.mpr hu
        exact ⟨done, Or.inr hr⟩

theorem runs_begin {done : Bool} : Runs [.begin] done t u ↔ u = (done || t) := by
  cases done <;> simp [Runs, Clause.leaves]

theorem runs_finish {done : Bool} : Runs [.finish] done t u ↔ u = false := by
  cases done <;> simp [Runs, Clause.leaves]

/-- Whichever of the two fails, the transaction is gone. -/
theorem runs_renew {done : Bool} : Runs [.finish, .begin] done t u ↔ u = done := by
  cases done <;> simp [Runs, Clause.leaves]

theorem leads_append {replies : List SimpleReply} {log log' : List Event} :
    Leads clauses replies (log ++ log') t u ↔
      ∃ v, Leads clauses replies log t v ∧
        Leads clauses (replies.drop (log.countP Event.isSimple)) log' v u := by
  induction log generalizing replies t with
  | nil => simp [Leads]
  | cons e log ih =>
      cases e with
      | parse text => simpa [Leads, Event.isSimple] using ih
      | run text args =>
          have hcount : (Event.run text args :: log).countP Event.isSimple =
              log.countP Event.isSimple := List.countP_cons_of_neg Bool.false_ne_true
          simp only [List.cons_append, Leads, ih, hcount]
          constructor
          · rintro ⟨done, w, hr, x, hx, hu⟩
            exact ⟨x, ⟨done, w, hr, hx⟩, hu⟩
          · rintro ⟨x, ⟨done, w, hr, hx⟩, hu⟩
            exact ⟨done, w, hr, x, hx, hu⟩
      | simple text =>
          have hcount : (Event.simple text :: log).countP Event.isSimple =
              log.countP Event.isSimple + 1 := List.countP_cons_of_pos rfl
          simp only [List.cons_append, Leads, ih, hcount, List.drop_tail]
          constructor
          · rintro ⟨w, hr, x, hx, hu⟩
            exact ⟨x, ⟨w, hr, hx⟩, hu⟩
          · rintro ⟨x, ⟨w, hr, hx⟩, hu⟩
            exact ⟨w, hr, x, hx, hu⟩

/-! ### Requests -/

/-- From one server to the next the transaction goes from `t` to `u` and nowhere else. -/
def Turns (clauses : String → List Clause) (s s' : Server) (t u : Bool) : Prop :=
  ∃ grown, s'.log = s.log ++ grown ∧
    s'.simples = s.simples.drop (grown.countP Event.isSimple) ∧
    ∀ v, Leads clauses s.simples grown t v ↔ v = u

theorem Turns.refl (s : Server) (t : Bool) : Turns clauses s s t t :=
  ⟨[], (List.append_nil _).symm, rfl, fun _ => Iff.rfl⟩

theorem Turns.trans (h : Turns clauses s s' t u) (h' : Turns clauses s' s'' u v) :
    Turns clauses s s'' t v := by
  obtain ⟨grown, hlog, hsimples, hleads⟩ := h
  obtain ⟨grown', hlog', hsimples', hleads'⟩ := h'
  refine ⟨grown ++ grown', ?_, ?_, fun w => ?_⟩
  · rw [hlog', hlog, List.append_assoc]
  · rw [hsimples', hsimples, List.drop_drop, List.countP_append]
  · rw [leads_append, ← hsimples]
    constructor
    · rintro ⟨x, hx, hw⟩
      rw [(hleads x).mp hx] at hw
      exact (hleads' w).mp hw
    · intro hw
      exact ⟨u, (hleads u).mpr rfl, (hleads' w).mpr hw⟩

/-- A request that has nothing to do with transactions. -/
def Event.IsPlain (clauses : String → List Clause) : Event → Prop
  | .parse _ => True
  | .run text _ => Plain clauses text
  | .simple _ => False

theorem Turns.plain {grown : List Event} (hlog : s'.log = s.log ++ grown)
    (hsimples : s'.simples = s.simples) (h : ∀ e ∈ grown, e.IsPlain clauses) :
    Turns clauses s s' t t := by
  refine ⟨grown, hlog, ?_, fun v => ?_⟩
  · have hnone : grown.countP Event.isSimple = 0 := by
      refine List.countP_eq_zero.mpr fun e he hsimple => ?_
      have hplain := h e he
      cases e with
      | parse text => cases hsimple
      | run text args => cases hsimple
      | simple text => exact hplain
    rw [hsimples, hnone, List.drop_zero]
  · clear hlog
    induction grown with
    | nil => exact Iff.rfl
    | cons e grown ih =>
        have ih := ih fun e he => h e (List.mem_cons_of_mem _ he)
        have hplain := h e (List.mem_cons_self ..)
        cases e with
        | parse text => exact ih
        | run text args =>
            simp only [Leads]
            constructor
            · rintro ⟨done, w, hr, hw⟩
              rw [(runs_plain hplain).mp ⟨done, hr⟩] at hw
              exact ih.mp hw
            · intro hv
              obtain ⟨done, hr⟩ := (runs_plain (t := t) hplain).mpr rfl
              exact ⟨done, t, hr, ih.mpr hv⟩
        | simple text => exact hplain.elim

theorem Turns.told {text : String}
    (h : ∀ v, Runs (clauses text) (s.reply 0).isDone t v ↔ v = u) :
    Turns clauses s (s.told text) t u := by
  refine ⟨[.simple text], rfl, (List.drop_one ..).symm, fun v => ?_⟩
  have hreply : s.simples.headD (.rows 0) = s.reply 0 := by
    rw [List.headD_eq_head?_getD, List.head?_eq_getElem?]
    rfl
  simp only [Leads, hreply, h]
  exact ⟨fun ⟨w, hw, hv⟩ => hv.trans hw, fun hv => ⟨u, rfl, hv⟩⟩

theorem accepts_of_connected (h : s.isConnected = true) : s.accepts = (s.reply 0).isDone := by
  rw [Server.accepts, h, Bool.true_and]

theorem Turns.begin (reading : Reading clauses) (hs : s.isConnected = true) (t : Bool) :
    Turns clauses s (s.told "BEGIN") t (s.accepts || t) := by
  refine Turns.told fun v => ?_
  rw [reading.begin, runs_begin, accepts_of_connected hs]

theorem Turns.finish {text : String} (h : clauses text = [.finish]) (s : Server) (t : Bool) :
    Turns clauses s (s.told text) t false := by
  refine Turns.told fun v => ?_
  rw [h, runs_finish]

theorem Turns.renew {text : String} (h : clauses text = [.finish, .begin])
    (hs : s.isConnected = true) (t : Bool) : Turns clauses s (s.told text) t s.accepts := by
  refine Turns.told fun v => ?_
  rw [h, runs_renew, accepts_of_connected hs]

/-- Only a server that is there can be there afterwards. -/
theorem isConnected_of_simple {text : String} (h : (s.simple text).2.isConnected = true) :
    s.isConnected = true := by
  cases hs : s.isConnected with
  | true => rfl
  | false =>
      rw [Server.simple_of_closed text hs, hs] at h
      cases h

/-! ### Batches -/

section Batch

variable {st : Statement} {p : Prepared} {c : Connection}

/-- Whatever text the batch of the statement runs has nothing to do with transactions. -/
def Statement.IsPlain (clauses : String → List Clause) (st : Statement) : Prop :=
  Plain clauses (Sql.numberPlaceholders st.text) ∧
    ∀ p, st.prepared = some p → Plain clauses p.text

theorem Turns.parsed (h : Statement.Parsed s s') (t : Bool) : Turns clauses s s' t t := by
  obtain ⟨parsed, hparsed, hlog⟩ := h.log
  refine Turns.plain hlog h.simples fun e he => ?_
  have hparse := hparsed e he
  cases e with
  | parse text => trivial
  | run text args => cases hparse
  | simple text => cases hparse

theorem isPlain_of_carries {entries : List (List Value)} {runs : List Event}
    (hplain : Plain clauses p.text) (h : List.Forall₂ p.Carries entries runs) :
    ∀ e ∈ runs, e.IsPlain clauses := by
  induction h with
  | nil => exact nofun
  | cons hcarries _ ih =>
      obtain ⟨args, -, rfl⟩ := hcarries
      exact List.forall_mem_cons.mpr ⟨hplain, ih⟩

theorem Turns.sending {batch : List (List Value)} {sent : List Event}
    {outcome : Except Failure (List Nat) × Prepared × Server} (hplain : Plain clauses p.text)
    (h : Statement.Sending batch p s outcome sent) (t : Bool) :
    Turns clauses s outcome.2.2 t t := by
  rw [h.server]
  exact Turns.plain rfl rfl (isPlain_of_carries hplain h.carries)

/-- A batch leaves the transaction as it is, or begins one of its own and ends it. -/
theorem turns_executeBatch (reading : Reading clauses) (hplain : st.IsPlain clauses) (t : Bool) :
    let c' := (Statement.executeBatch (st, c)).2.2
    c'.autoCommit = c.autoCommit ∧
      (c'.server.isConnected = true → c.server.isConnected = true ∧
        Turns clauses c.server c'.server (!c.autoCommit && t) (!c.autoCommit && t)) := by
  cases hopen : st.isOpen with
  | false =>
      have hclosed : Statement.executeBatch (st, c) = (.error (closedError st.text), st, c) := by
        simp [Statement.executeBatch, Statement.ensurePrepared, Statement.ifOpen, hopen]
      rw [hclosed]
      exact ⟨rfl, fun hs => ⟨hs, Turns.refl _ _⟩⟩
  | true =>
      obtain ⟨server, hparsed, ⟨p, hp, hr⟩ | ⟨-, e, hr⟩⟩ :=
        Statement.ensurePrepared_of_open hopen c
      · have htext : Plain clauses p.text := by
          rcases hp with hp | ⟨-, hp⟩
          · exact hplain.2 p hp
          · rw [hp]
            exact hplain.1
        -- what follows the preparing is looked at on its own
        have hafter : ∀ {s' : Server} {u v : Bool},
            (s'.isConnected = true → server.isConnected = true ∧ Turns clauses server s' u v) →
              s'.isConnected = true → c.server.isConnected = true ∧ Turns clauses c.server s' u v :=
          fun h hs' => ⟨hparsed.isConnected ▸ (h hs').1, (Turns.parsed hparsed _).trans (h hs').2⟩
        cases hauto : c.autoCommit with
        | false =>
            obtain ⟨sent, hsent⟩ := Statement.runBatch_sending st.batch p server
            rw [Statement.executeBatch_of_manual hr hauto]
            refine ⟨hauto, hafter fun hs => ⟨?_, Turns.sending htext hsent _⟩⟩
            rw [hsent.server] at hs
            exact (Bool.and_eq_true_iff.mp hs).1
        | true =>
            cases hbegin : server.accepts with
            | false =>
                obtain ⟨e, he⟩ := Statement.executeBatch_of_unbegun hr hauto hbegin
                rw [he]
                refine ⟨hauto, hafter fun hs => ?_⟩
                have hthere := isConnected_of_simple hs
                have hturns := Turns.begin reading hthere false
                rw [hbegin] at hturns
                rw [Server.simple_snd _ hthere]
                exact ⟨hthere, hturns⟩
            | true =>
                have hthere := Server.isConnected_of_accepts hbegin
                obtain ⟨sent, hsent⟩ := Statement.runBatch_sending st.batch p (server.told "BEGIN")
                have hbegun := Statement.executeBatch_of_begun hr hauto hbegin
                simp only [Statement.settleBatch_snd] at hbegun
                rw [hbegun]
                refine ⟨hauto, hafter fun hs => ⟨hthere, ?_⟩⟩
                rw [Server.simple_snd _ (isConnected_of_simple hs)]
                refine ((Turns.begin reading hthere _).trans (Turns.sending htext hsent _)).trans ?_
                refine Turns.finish ?_ _ _
                split
                · exact reading.commit
                · exact reading.rollback
      · rw [Statement.executeBatch_of_refused hr]
        exact ⟨rfl, fun hs => ⟨hparsed.isConnected ▸ hs, Turns.parsed hparsed _⟩⟩

end Batch

namespace Connection

/-! ### Methods -/

/-- A method that changes the transaction, or the execution of the batch of a statement. -/
inductive Method where
  | setAutoCommit (on : Bool)
  | commit
  | rollback
  | batch (st : Statement)

/-- Run a method. -/
def perform : Method → Action Connection Unit
  | .setAutoCommit on => setAutoCommit on
  | .commit => commit
  | .rollback => rollback
  | .batch st => fun c =>
    ((Statement.executeBatch (st, c)).1.map fun _ => (), (Statement.executeBatch (st, c)).2.2)

/-- The connection after some methods, whatever each of them has answered. -/
def performAll (ms : List Method) (c : Connection) : Connection :=
  ms.foldl (fun c m => (perform m c).2) c

/-- The method is to end the transaction that is open while auto-commit is off. -/
def Method.ends : Method → Bool
  | .setAutoCommit on => on
  | .commit | .rollback => true
  | .batch _ => false

/-- Whether the transaction was ended as it should when it was last to be ended; `ended` says
so of the methods before. -/
def endedWell : List Method → (ended : Bool) → Connection → Bool
  | [], ended, _ => ended
  | m :: ms, ended, c =>
    endedWell ms (if m.ends && !c.autoCommit then (perform m c).1.isOk else ended) (perform m c).2

/-- Every statement of which the method runs a batch has nothing to do with transactions. -/
def Method.IsPlain (clauses : String → List Clause) : Method → Prop
  | .batch st => st.IsPlain clauses
  | _ => True

variable {c : Connection}

/-! ### Steps -/

/-- What a method makes of a connection on which the transaction is open exactly if auto-commit
is off and `ended` says that it was last ended as it should. -/
def Keeps (clauses : String → List Clause) (ended : Bool) (c : Connection) (ended' : Bool)
    (c' : Connection) : Prop :=
  (c'.autoCommit = true → ended' = true) ∧
    (c'.server.isConnected = true → c.server.isConnected = true ∧
      Turns clauses c.server c'.server (!c.autoCommit && ended) (!c'.autoCommit && ended'))

theorem Keeps.refl {ended : Bool} (h : c.autoCommit = true → ended = true) :
    Keeps clauses ended c ended c :=
  ⟨h, fun hs => ⟨hs, Turns.refl _ _⟩⟩

theorem Keeps.trans {ended ended' ended'' : Bool} {c' c'' : Connection}
    (h : Keeps clauses ended c ended' c') (h' : Keeps clauses ended' c' ended'' c'') :
    Keeps clauses ended c ended'' c'' := by
  refine ⟨h'.1, fun hs => ?_⟩
  obtain ⟨hs', hturns'⟩ := h'.2 hs
  obtain ⟨hs, hturns⟩ := h.2 hs'
  exact ⟨hs, hturns.trans hturns'⟩

/-- The commit that switches auto-commit on; it stays off if the commit is refused. -/
theorem keeps_switchOn (reading : Reading clauses) (hoff : c.autoCommit = false) (ended : Bool) :
    Keeps clauses ended c (setAutoCommit true c).1.isOk (setAutoCommit true c).2 := by
  have hne : c.autoCommit ≠ true := by rw [hoff]; exact nofun
  cases hs : c.server.accepts with
  | true =>
      rw [setAutoCommit_of_accepts hne hs]
      exact ⟨fun _ => rfl, fun _ =>
        ⟨Server.isConnected_of_accepts hs, Turns.finish reading.commit _ _⟩⟩
  | false =>
      obtain ⟨e, he⟩ := setAutoCommit_of_refused hne hs
      rw [he]
      refine ⟨fun hauto => absurd hauto hne, fun hthere => ?_⟩
      have hthere := isConnected_of_simple hthere
      rw [Server.simple_snd _ hthere]
      refine ⟨hthere, ?_⟩
      rw [hoff]
      exact Turns.finish reading.commit _ _

/-- With auto-commit on no transaction is open, and one is once it is off. -/
theorem keeps_switchOff (reading : Reading clauses) (hon : c.autoCommit = true) :
    Keeps clauses true c true (setAutoCommit false c).2 := by
  have hne : c.autoCommit ≠ false := by rw [hon]; exact nofun
  cases hs : c.server.accepts with
  | true =>
      rw [setAutoCommit_of_accepts hne hs, Keeps, hon]
      have hthere := Server.isConnected_of_accepts hs
      have hturns := Turns.begin reading hthere false
      rw [hs] at hturns
      exact ⟨fun _ => rfl, fun _ => ⟨hthere, hturns⟩⟩
  | false =>
      obtain ⟨e, he⟩ := setAutoCommit_of_refused hne hs
      rw [he]
      refine ⟨fun _ => rfl, fun hthere => ?_⟩
      have hthere := isConnected_of_simple hthere
      have hturns := Turns.begin reading hthere false
      rw [hs] at hturns
      rw [Server.simple_snd _ hthere, hon]
      exact ⟨hthere, hturns⟩

/-- An end of the transaction and the beginning of the next. -/
theorem keeps_endTransaction {command : String}
    (h : clauses (command ++ "; BEGIN") = [.finish, .begin]) (hoff : c.autoCommit = false)
    (ended : Bool) :
    Keeps clauses ended c (endTransaction command c).1.isOk (endTransaction command c).2 := by
  have hne : ¬c.autoCommit = true := by rw [hoff]; exact nofun
  cases hs : c.server.accepts with
  | true =>
      have hthere := Server.isConnected_of_accepts hs
      have hturns := Turns.renew h hthere (!c.autoCommit && ended)
      rw [hs] at hturns
      rw [endTransaction_of_accepts hoff hs]
      refine ⟨fun hauto => absurd hauto hne, fun _ => ⟨hthere, ?_⟩⟩
      rw [hoff] at hturns ⊢
      exact hturns
  | false =>
      obtain ⟨e, he⟩ := endTransaction_of_refused command hoff hs
      rw [he]
      refine ⟨fun hauto => absurd hauto hne, fun hthere => ?_⟩
      have hthere := isConnected_of_simple hthere
      have hturns := Turns.renew h hthere (!c.autoCommit && ended)
      rw [hs] at hturns
      rw [Server.simple_snd _ hthere]
      refine ⟨hthere, ?_⟩
      rw [hoff] at hturns ⊢
      exact hturns

theorem keeps_perform (reading : Reading clauses) {m : Method} (hplain : m.IsPlain clauses)
    {ended : Bool} (h : c.autoCommit = true → ended = true) :
    Keeps clauses ended c
      (if m.ends && !c.autoCommit then (perform m c).1.isOk else ended) (perform m c).2 := by
  cases m with
  | setAutoCommit on =>
      by_cases hsame : c.autoCommit = on
      · have hno : ((Method.setAutoCommit on).ends && !c.autoCommit) = false := by
          rw [hsame]
          cases on <;> rfl
        rw [hno, perform, setAutoCommit_of_same hsame]
        exact Keeps.refl h
      · cases on with
        | true =>
            have hoff := (Bool.not_eq_true _).mp hsame
            rw [hoff]
            exact keeps_switchOn reading hoff ended
        | false =>
            have hon := (Bool.not_eq_false _).mp hsame
            cases h hon
            exact keeps_switchOff reading hon
  | commit =>
      cases hauto : c.autoCommit with
      | true =>
          rw [perform, commit, endTransaction_of_auto hauto]
          exact Keeps.refl h
      | false => exact keeps_endTransaction reading.commitBegin hauto ended
  | rollback =>
      cases hauto : c.autoCommit with
      | true =>
          rw [perform, rollback, endTransaction_of_auto hauto]
          exact Keeps.refl h
      | false => exact keeps_endTransaction reading.rollbackBegin hauto ended
  | batch st =>
      obtain ⟨hauto, hturns⟩ := turns_executeBatch (c := c) reading hplain ended
      have hauto : (perform (.batch st) c).2.autoCommit = c.autoCommit := hauto
      refine ⟨fun h' => h (hauto ▸ h'), fun hs => ?_⟩
      rw [hauto]
      exact hturns hs

/-! ### Runs -/

theorem keeps_performAll (reading : Reading clauses) {ms : List Method}
    (hplain : ∀ m ∈ ms, m.IsPlain clauses) {ended : Bool}
    (h : c.autoCommit = true → ended = true) :
    Keeps clauses ended c (endedWell ms ended c) (performAll ms c) := by
  induction ms generalizing c ended with
  | nil => exact Keeps.refl h
  | cons m ms ih =>
      have hstep := keeps_perform reading (hplain m (List.mem_cons_self ..)) h
      exact hstep.trans (ih (fun m hm => hplain m (List.mem_cons_of_mem _ hm)) hstep.1)

/--
**A transaction is open exactly if auto-commit is off and its last end has succeeded.**  After
any run of switches, commits, rollbacks and batches on a connection that begins in auto-commit,
whatever the server has answered: as long as it is there, what the requests of the run may have
made of the transaction is this and nothing else.  So `autoCommit` tells whether one is open
unless a commit or rollback, or the commit that was to switch auto-commit on, has been answered
by an error since the last that was not.
-/
theorem transaction_open_iff (reading : Reading clauses) (ms : List Method)
    (hplain : ∀ m ∈ ms, m.IsPlain clauses) (server : Server)
    (hs : (performAll ms { server }).server.isConnected = true) :
    let c := performAll ms { server }
    ∃ grown, c.server.log = server.log ++ grown ∧
      ∀ t, Leads clauses server.simples grown false t ↔
        t = (!c.autoCommit && endedWell ms true { server }) := by
  have hkeeps : Keeps clauses true { server } (endedWell ms true { server }) _ :=
    keeps_performAll reading hplain fun _ => rfl
  obtain ⟨-, grown, hlog, -, hleads⟩ := hkeeps.2 hs
  exact ⟨grown, hlog, hleads⟩

/-- A reading that knows these texts and no others. -/
def commands : String → List Clause
  | "BEGIN" => [.begin]
  | "COMMIT" | "ROLLBACK" => [.finish]
  | "COMMIT; BEGIN" | "ROLLBACK; BEGIN" => [.finish, .begin]
  | _ => [.other]

theorem reading_commands : Reading commands :=
  ⟨rfl, rfl, rfl, rfl, rfl⟩

/-- An entry that is refused in an open transaction leaves it open, and so does a commit. -/
theorem transaction_open_behind_commit :
    let p : Prepared := { text := "delete from visit", runs := [.refuse] }
    let st : Statement := { text := p.text, prepared := some p, batch := [[]] }
    let ms : List Method := [.setAutoCommit false, .batch st, .commit]
    Reading commands ∧ (∀ m ∈ ms, m.IsPlain commands) ∧
      (performAll ms {}).server.isConnected = true ∧
      ∃ grown, (performAll ms {}).server.log = [] ++ grown ∧
        ∀ t, Leads commands [] grown false t ↔ t = true := by
  intro p st ms
  have htext : Plain commands p.text := by decide
  have hst : st.IsPlain commands := by
    refine ⟨by decide, ?_⟩
    rintro _ ⟨⟩
    exact htext
  have hplain : ∀ m ∈ ms, m.IsPlain commands := by simp [ms, Method.IsPlain, hst]
  exact ⟨reading_commands, hplain, rfl, transaction_open_iff reading_commands ms hplain {} rfl⟩

/-- The commit is refused: the transaction is gone, and auto-commit is off all the same. -/
theorem refused_commit_ends_transaction :
    let server : Server := { simples := [.rows 0, .refuse] }
    let c := performAll [.setAutoCommit false, .commit] { server }
    Reading commands ∧ c.server.isConnected = true ∧ c.autoCommit = false ∧
      ∀ t, Leads commands server.simples c.server.log false t ↔ t = false := by
  refine ⟨reading_commands, rfl, rfl, fun t => ?_⟩
  show Leads commands [.rows 0, .refuse] [.simple "BEGIN", .simple "COMMIT; BEGIN"] false t ↔ _
  simp [Leads, Runs, commands, Clause.leaves, SimpleReply.isDone]

end Connection

end SqlSession.Postgres
