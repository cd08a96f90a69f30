/-
One execution of a batch.

The entries go out in order until one cannot be written or the server hangs up, and it does
not matter for the sending how the server has answered those before; so what is sent is a
prefix of the batch, entry by entry (`Sending`, by induction over the batch).  The outcome is
a success exactly if every entry was written and answered, and the command that ends the
batch's own transaction is chosen by the outcome alone.
-/
import Mathlib.Data.List.Forall2
import SqlSession.Proofs.Postgres.Server

namespace SqlSession.Postgres

namespace Prepared

/-- Every entry of the batch can be written, and none of the replies to them is a failure. -/
def answers (batch : List (List Value)) (p : Prepared) : Bool :=
  batch.all (fun entry => (p.encode entry).isOk) &&
    (List.range batch.length).all fun i => (p.replyTo i).failure?.isNone

/-- How many rows each of the next `n` runs affects. -/
def rowCounts (n : Nat) (p : Prepared) : List Nat :=
  (List.range n).map fun i => (p.replyTo i).affected

/-- Whether the server hangs up at one of the next `n` runs. -/
def hangsUp (n : Nat) (p : Prepared) : Bool :=
  (List.range n).any fun i => p.replyTo i == .hangUp

/-- Sending the batch ends behind `n` entries: it is at its end, the server has hung up, or the
next entry cannot be written. -/
def Stops (batch : List (List Value)) (n : Nat) (p : Prepared) : Prop :=
  n = batch.length ∨ p.hangsUp n = true ∨
    ∃ entry, batch[n]? = some entry ∧ (p.encode entry).isOk = false

/-- The run that sends the entry. -/
def Carries (p : Prepared) (entry : List Value) (e : Event) : Prop :=
  ∃ args, p.encode entry = .ok args ∧ e = .run p.text args

theorem answers_cons (entry : List Value) (rest : List (List Value)) (p : Prepared) :
    p.answers (entry :: rest) =
      ((p.encode entry).isOk && (p.replyTo 0).failure?.isNone && (p.after 1).answers rest) := by
  simp only [answers, List.all_cons, List.length_cons, List.range_succ_eq_map, List.all_map,
    Function.comp_def, replyTo_after, encode_after, Nat.succ_eq_one_add]
  ac_rfl

theorem rowCounts_succ (n : Nat) (p : Prepared) :
    p.rowCounts (n + 1) = (p.replyTo 0).affected :: (p.after 1).rowCounts n := by
  simp only [rowCounts, List.range_succ_eq_map, List.map_cons, List.map_map, Function.comp_def,
    replyTo_after, Nat.succ_eq_one_add]

theorem hangsUp_succ (n : Nat) (p : Prepared) :
    p.hangsUp (n + 1) = (p.replyTo 0 == .hangUp || (p.after 1).hangsUp n) := by
  simp only [hangsUp, List.range_succ_eq_map, List.any_cons, List.any_map, Function.comp_def,
    replyTo_after, Nat.succ_eq_one_add]

theorem Stops.cons {batch : List (List Value)} {n : Nat} {p : Prepared}
    (h : (p.after 1).Stops batch n) (entry : List Value) : p.Stops (entry :: batch) (n + 1) := by
  rcases h with h | h | h
  · exact Or.inl (congrArg (· + 1) h)
  · exact Or.inr (Or.inl (by rw [hangsUp_succ, h, Bool.or_true]))
  · exact Or.inr (Or.inr h)

/-- Where everything is answered the server does not hang up. -/
theorem not_hangsUp_of_answers {batch : List (List Value)} {p : Prepared} {n : Nat}
    (h : p.answers batch = true) (hn : n ≤ batch.length) : p.hangsUp n = false := by
  refine List.any_eq_false.mpr fun i hi => ?_
  have hlt : i < batch.length := Nat.lt_of_lt_of_le (List.mem_range.mp hi) hn
  have hreply := List.all_eq_true.mp (Bool.and_eq_true_iff.mp h).2 i (List.mem_range.mpr hlt)
  exact fun hup =>
    RunReply.failure?_hangUp_of_none (Option.isNone_iff_eq_none.mp hreply) (beq_iff_eq.mp hup)

end Prepared

namespace Statement

variable {batch rest : List (List Value)} {p : Prepared} {s : Server}

/-! ### Sending the entries -/

/-- How the entries of a batch fare: what reaches the server of them, what that leaves behind
and how it turns out. -/
structure Sending (batch : List (List Value)) (p : Prepared) (s : Server)
    (outcome : Except Failure (List Nat) × Prepared × Server) (sent : List Event) : Prop where
  /-- What is sent are the first entries, in order. -/
  carries : List.Forall₂ p.Carries (batch.take sent.length) sent
  prepared : outcome.2.1 = p.after sent.length
  server : outcome.2.2 =
    { s with log := s.log ++ sent, isConnected := s.isConnected && !p.hangsUp sent.length }
  ok : ∀ counts, outcome.1 = .ok counts ↔
    (s.isConnected = true ∨ batch = []) ∧ p.answers batch = true ∧
      counts = p.rowCounts batch.length
  stops : s.isConnected = true → p.Stops batch sent.length

theorem Sending.sent_le {outcome : Except Failure (List Nat) × Prepared × Server}
    {sent : List Event} (h : Sending batch p s outcome sent) : sent.length ≤ batch.length := by
  have := h.carries.length_eq
  rw [List.length_take] at this
  omega

theorem Sending.nil : Sending [] p s (.ok [], p, s) [] :=
  { carries := .nil
    prepared := rfl
    server := by simp [Prepared.hangsUp]
    ok := fun counts => by
      simp only [Prepared.answers, Prepared.rowCounts, or_true, true_and, List.all_nil,
        List.length_nil, List.range_zero, List.map_nil, Bool.and_self, Except.ok.injEq]
      exact eq_comm
    stops := fun _ => Or.inl rfl }

theorem answered_eq_ok {reply : Except Failure RunReply} {r : Except Failure (List Nat)}
    {counts : List Nat} :
    sendBatch.answered reply r = .ok counts ↔
      ∃ x ns, reply = .ok x ∧ r = .ok ns ∧ counts = x.affected :: ns := by
  constructor
  · intro h
    rcases r with (_ | _ | _ | _) | ns <;> rcases reply with _ | x <;> cases h
    exact ⟨x, ns, rfl, rfl, rfl⟩
  · rintro ⟨x, ns, rfl, rfl, rfl⟩
    rfl

/-- An entry that cannot be written ends the sending. -/
theorem Sending.unwritten {entry : List Value} {f : Failure} (h : p.encode entry = .error f) :
    Sending (entry :: rest) p s (.error f, p, s) [] := by
  have hfailed : (p.encode entry).isOk = false := by
    rw [h]
    rfl
  exact
    { carries := .nil
      prepared := rfl
      server := by simp [Prepared.hangsUp]
      ok := fun counts => by
        simp only [Prepared.answers_cons, hfailed, Bool.false_and]
        exact ⟨nofun, fun h => nomatch h.2.1⟩
      stops := fun _ => Or.inr (Or.inr ⟨entry, rfl, hfailed⟩) }

/-- Nothing reaches a server that has hung up. -/
theorem sendBatch_of_closed (batch : List (List Value)) (p : Prepared) {s : Server}
    (h : s.isConnected = false) : (sendBatch batch p s).2 = (p, s) := by
  induction batch with
  | nil => rfl
  | cons entry rest ih =>
      unfold sendBatch
      cases p.encode entry with
      | error f => rfl
      | ok args =>
          simp only [Server.run_of_closed p args h]
          exact ih

/-- An entry that is written is sent before the rest, whatever the reply to it. -/
theorem sendBatch_cons {entry : List Value} {args : Cells} (h : p.encode entry = .ok args)
    (hs : s.isConnected = true) :
    sendBatch (entry :: rest) p s =
      (sendBatch.answered
        (match (p.replyTo 0).failure? with
          | none => .ok (p.replyTo 0)
          | some f => .error f) (sendBatch rest (p.after 1) (s.ran p args)).1,
        (sendBatch rest (p.after 1) (s.ran p args)).2) := by
  rw [sendBatch, h]
  exact congrArg (fun answer : Except Failure RunReply × Prepared × Server =>
    let sending := sendBatch rest answer.2.1 answer.2.2
    (sendBatch.answered answer.1 sending.1, sending.2)) (Server.run_of_connected p args hs)

/-- The first entry ends the sending if the server hangs up at it. -/
theorem Sending.hungUp {entry : List Value} {args : Cells} (h : p.encode entry = .ok args)
    (hs : s.isConnected = true) (hup : p.replyTo 0 = .hangUp) :
    Sending (entry :: rest) p s (sendBatch (entry :: rest) p s) [.run p.text args] := by
  have hclosed : (s.ran p args).isConnected = false := by simp [Server.ran, hup]
  have hends : p.hangsUp 1 = true := by simp [Prepared.hangsUp, hup]
  rw [sendBatch_cons h hs, sendBatch_of_closed rest (p.after 1) hclosed, hup]
  exact
    { carries := .cons ⟨args, h, rfl⟩ .nil
      prepared := rfl
      server := by
        simp [Server.ran, Server.logged, hup, hends]
      ok := fun counts => by
        rw [answered_eq_ok, Prepared.answers_cons, hup]
        simp [RunReply.failure?]
      stops := fun _ => Or.inr (Or.inl hends) }

/-- An entry that leaves the server there goes in front of what the rest comes to. -/
theorem Sending.cons {entry : List Value} {args : Cells} {sent : List Event}
    (h : p.encode entry = .ok args) (hs : s.isConnected = true) (hup : p.replyTo 0 ≠ .hangUp)
    (hrest : Sending rest (p.after 1) (s.ran p args)
      (sendBatch rest (p.after 1) (s.ran p args)) sent) :
    Sending (entry :: rest) p s (sendBatch (entry :: rest) p s)
      (.run p.text args :: sent) := by
  have hran : (s.ran p args).isConnected = true := by simpa [Server.ran] using hup
  have hhangs : p.hangsUp (sent.length + 1) = (p.after 1).hangsUp sent.length := by
    simp [Prepared.hangsUp_succ, hup]
  rw [sendBatch_cons h hs]
  exact
    { carries := .cons ⟨args, h, rfl⟩ hrest.carries
      prepared := by
        rw [hrest.prepared, Prepared.after_after, List.length_cons, Nat.add_comm]
      server := by
        rw [hrest.server, hran, hs, List.length_cons, hhangs]
        simp [Server.ran, Server.logged]
      ok := fun counts => by
        rw [answered_eq_ok, Prepared.answers_cons, List.length_cons, Prepared.rowCounts_succ, h]
        simp only [hrest.ok, hran, hs, true_or, true_and]
        cases hr : (p.replyTo 0).failure? with
        | none =>
            simp only [Except.isOk, Except.toBool, Option.isNone_none, Bool.and_self,
              Bool.true_and]
            constructor
            · rintro ⟨x, ns, hx, ⟨hanswers, rfl⟩, rfl⟩
              cases hx
              exact ⟨hanswers, rfl⟩
            · rintro ⟨hanswers, rfl⟩
              exact ⟨_, _, rfl, ⟨hanswers, rfl⟩, rfl⟩
        | some f => simp
      stops := fun _ => (hrest.stops hran).cons entry }

theorem sendBatch_sending (batch : List (List Value)) (p : Prepared) {s : Server}
    (hs : s.isConnected = true) : ∃ sent, Sending batch p s (sendBatch batch p s) sent := by
  induction batch generalizing p s with
  | nil => exact ⟨[], Sending.nil⟩
  | cons entry rest ih =>
      cases h : p.encode entry with
      | error f =>
          refine ⟨[], ?_⟩
          rw [sendBatch, h]
          exact Sending.unwritten h
      | ok args =>
          by_cases hup : p.replyTo 0 = .hangUp
          · exact ⟨_, Sending.hungUp h hs hup⟩
          · have hran : (s.ran p args).isConnected = true := by simpa [Server.ran] using hup
            obtain ⟨sent, hsent⟩ := ih (p.after 1) hran
            exact ⟨_, Sending.cons h hs hup hsent⟩

theorem runBatch_sending (batch : List (List Value)) (p : Prepared) (s : Server) :
    ∃ sent, Sending batch p s (runBatch batch p s) sent := by
  cases batch with
  | nil => exact ⟨[], Sending.nil⟩
  | cons entry rest =>
      cases hs : s.isConnected with
      | true =>
          simp only [runBatch, hs, if_true]
          exact sendBatch_sending _ p hs
      | false =>
          simp only [runBatch, hs, Bool.false_eq_true, if_false]
          cases h : p.encode entry with
          | error f => exact ⟨[], Sending.unwritten h⟩
          | ok args =>
              exact ⟨[],
                { carries := .nil
                  prepared := rfl
                  server := by simp [Prepared.hangsUp]
                  ok := fun counts => by simp [hs]
                  stops := fun h => by
                    rw [hs] at h
                    cases h }⟩

/-! ### Preparing -/

/-- At most a request to prepare a text has reached the server. -/
structure Parsed (s s' : Server) : Prop where
  log : ∃ parsed, (∀ e ∈ parsed, Event.isParse e = true) ∧ s'.log = s.log ++ parsed
  simples : s'.simples = s.simples
  isConnected : s'.isConnected = s.isConnected

theorem Parsed.refl (s : Server) : Parsed s s :=
  ⟨⟨[], nofun, (List.append_nil _).symm⟩, rfl, rfl⟩

theorem parsed_prepare (text : String) (s : Server) : Parsed s (s.prepare text).2 := by
  obtain ⟨prepares, simples, isConnected, log⟩ := s
  cases isConnected with
  | false => exact Parsed.refl _
  | true =>
      have hparse : ∀ e ∈ [Event.parse text], e.isParse = true := by simp [Event.isParse]
      rcases prepares with _ | ⟨_ | _, _⟩ <;> exact ⟨⟨_, hparse, rfl⟩, rfl, rfl⟩

theorem text_of_prepare {text : String} {s s' : Server}
    (h : s.prepare text = (.ok p, s')) : p.text = text := by
  obtain ⟨prepares, simples, isConnected, log⟩ := s
  cases isConnected with
  | false => cases h
  | true => rcases prepares with _ | ⟨_ | _, _⟩ <;> cases h <;> rfl

/-- An open statement is prepared if it is not yet; nothing else of it changes. -/
theorem ensurePrepared_of_open {st : Statement} (h : st.isOpen = true) (c : Connection) :
    ∃ server, Parsed c.server server ∧
      ((∃ p, (st.prepared = some p ∨
            st.prepared = none ∧ p.text = Sql.numberPlaceholders st.text) ∧
          ensurePrepared (st, c) =
            (.ok p, { st with prepared := some p }, { c with server })) ∨
        (st.prepared = none ∧ ∃ e, ensurePrepared (st, c) = (.error e, st, { c with server }))) := by
  obtain ⟨text, prepared, params, batch, _⟩ := st
  cases h
  cases prepared with
  | some p => exact ⟨c.server, Parsed.refl _, Or.inl ⟨p, Or.inl rfl, rfl⟩⟩
  | none =>
      refine ⟨_, parsed_prepare (Sql.numberPlaceholders text) c.server, ?_⟩
      rcases hr : c.server.prepare (Sql.numberPlaceholders text) with ⟨f | p, server⟩
      · exact Or.inr ⟨rfl, f.error, by simp [ensurePrepared, ifOpen, Connection.ask, hr]⟩
      · refine Or.inl ⟨p, Or.inr ⟨rfl, text_of_prepare hr⟩, ?_⟩
        simp [ensurePrepared, ifOpen, Connection.ask, hr]

/-! ### The batch's own transaction -/

/-- Whatever the entries have come to, one command ends the transaction. -/
theorem settleBatch_snd (outcome : Except Failure (List Nat)) (c : Connection) :
    (settleBatch outcome c).2 =
      { c with
        server := (c.server.simple (if outcome.isOk then "COMMIT" else "ROLLBACK")).2 } := by
  cases outcome with
  | ok counts =>
      simp only [settleBatch, Connection.ask, Except.isOk, Except.toBool, if_true]
      rcases c.server.simple "COMMIT" with ⟨_ | _, _⟩ <;> rfl
  | error f =>
      simp only [settleBatch, Except.isOk, Except.toBool, Bool.false_eq_true, if_false]
      rcases c.server.simple "ROLLBACK" with ⟨_ | _, _⟩ <;> rfl

theorem settleBatch_eq_ok {outcome : Except Failure (List Nat)} {c : Connection}
    {counts : List Nat} :
    (settleBatch outcome c).1 = .ok counts ↔ outcome = .ok counts ∧ c.server.accepts = true := by
  cases outcome with
  | ok ns =>
      cases h : c.server.accepts with
      | true =>
          obtain ⟨n, hn⟩ := Server.simple_of_accepts "COMMIT" h
          simp [settleBatch, Connection.ask, hn]
      | false =>
          obtain ⟨f, hf⟩ := Server.simple_of_not_accepts "COMMIT" h
          rw [settleBatch, Connection.ask, hf]
          simp
  | error f =>
      simp only [settleBatch]
      rcases c.server.simple "ROLLBACK" with ⟨_ | _, _⟩ <;> simp

/-- How the batch of a prepared statement fares: `sent` is what of its entries reaches the
server, which is left as `s'`, and `r` is the answer. -/
structure Transacted (batch : List (List Value)) (autoCommit : Bool) (p : Prepared) (s : Server)
    (r : Except DbError (List Nat)) (s' : Server) (sent : List Event) : Prop where
  /-- What is sent are the first entries, in order. -/
  carries : List.Forall₂ p.Carries (batch.take sent.length) sent
  /-- Where no transaction can be begun, nothing is sent beyond the attempt. -/
  unbegun : autoCommit = true → s.accepts = false →
    sent = [] ∧ r.isOk = false ∧
      s'.log = s.log ++ if s.isConnected then [.simple "BEGIN"] else []
  /-- The entries stand between the command that begins the transaction and the one that
  ends it, unless the server hangs up before it gets there. -/
  settled : autoCommit = true → s.accepts = true →
    p.Stops batch sent.length ∧
      s'.log = s.log ++ .simple "BEGIN" :: sent ++
        (if p.hangsUp sent.length then []
          else [.simple (if p.answers batch then "COMMIT" else "ROLLBACK")]) ∧
      ∀ counts, r = .ok counts ↔
        p.answers batch = true ∧ (s.reply 1).isDone = true ∧ counts = p.rowCounts batch.length
  /-- In a transaction that is open already the entries are all that is sent. -/
  plain : autoCommit = false →
    (s.isConnected = true → p.Stops batch sent.length) ∧ s'.log = s.log ++ sent ∧
      ∀ counts, r = .ok counts ↔
        (s.isConnected = true ∨ batch = []) ∧ p.answers batch = true ∧
          counts = p.rowCounts batch.length

/-! ### Executing -/

section Executing

variable {st st' : Statement} {c c' : Connection}

theorem executeBatch_of_refused {e : DbError} (h : ensurePrepared (st, c) = (.error e, st', c')) :
    executeBatch (st, c) = (.error e, st', c') := by
  simp only [executeBatch, h]

theorem executeBatch_of_unbegun (h : ensurePrepared (st, c) = (.ok p, st', c'))
    (hauto : c'.autoCommit = true) (hbegin : c'.server.accepts = false) :
    ∃ e, executeBatch (st, c) =
      (.error e, { st' with batch := [] },
        { c' with server := (c'.server.simple "BEGIN").2 }) := by
  obtain ⟨f, hf⟩ := Server.simple_of_not_accepts "BEGIN" hbegin
  refine ⟨f.error, ?_⟩
  rw [executeBatch, h]
  simp only [hauto, if_true, Connection.ask]
  rw [hf]

theorem executeBatch_of_begun (h : ensurePrepared (st, c) = (.ok p, st', c'))
    (hauto : c'.autoCommit = true) (hbegin : c'.server.accepts = true) :
    let sending := runBatch st'.batch p (c'.server.told "BEGIN")
    let settled := settleBatch sending.1 { c' with server := sending.2.2 }
    executeBatch (st, c) =
      (settled.1, { st' with batch := [], prepared := some sending.2.1 }, settled.2) := by
  obtain ⟨n, hn⟩ := Server.simple_of_accepts "BEGIN" hbegin
  simp only [executeBatch, h, hauto, if_true, Connection.ask, hn]

theorem executeBatch_of_manual (h : ensurePrepared (st, c) = (.ok p, st', c'))
    (hauto : c'.autoCommit = false) :
    let sending := runBatch st'.batch p c'.server
    executeBatch (st, c) =
      (sending.1.mapError Failure.error,
        { st' with batch := [], prepared := some sending.2.1 },
        { c' with server := sending.2.2 }) := by
  simp only [executeBatch, h, hauto, Bool.false_eq_true, if_false]

/-- The entries of a batch that has a transaction of its own, and the command that ends it. -/
theorem Sending.settled {sent : List Event}
    (hsent : Sending batch p (s.told "BEGIN") (runBatch batch p (s.told "BEGIN")) sent)
    (hbegin : s.accepts = true) (c : Connection) :
    let sending := runBatch batch p (s.told "BEGIN")
    let settled := settleBatch sending.1 { c with server := sending.2.2 }
    settled.2.server.log = s.log ++ .simple "BEGIN" :: sent ++
        (if p.hangsUp sent.length then []
          else [.simple (if p.answers batch then "COMMIT" else "ROLLBACK")]) ∧
      ∀ counts, settled.1 = .ok counts ↔
        p.answers batch = true ∧ (s.reply 1).isDone = true ∧
          counts = p.rowCounts batch.length := by
  have hthere := Server.isConnected_told "BEGIN" hbegin
  have hok : ∀ counts, (runBatch batch p (s.told "BEGIN")).1 = .ok counts ↔
      p.answers batch = true ∧ counts = p.rowCounts batch.length := fun counts => by
    rw [hsent.ok, hthere]
    simp only [true_or, true_and]
  have hisOk : (runBatch batch p (s.told "BEGIN")).1.isOk = p.answers batch := by
    cases hr : (runBatch batch p (s.told "BEGIN")).1 with
    | ok counts => exact ((hok counts).mp hr).1.symm
    | error f =>
        cases ha : p.answers batch with
        | false => rfl
        | true =>
            rw [(hok _).mpr ⟨ha, rfl⟩] at hr
            cases hr
  constructor
  · rw [settleBatch_snd, Server.simple_log, hisOk, hsent.server, hthere]
    cases p.hangsUp sent.length <;> simp [Server.told, Server.logged]
  · intro counts
    have haccepts : (runBatch batch p (s.told "BEGIN")).2.2.accepts =
        (!p.hangsUp sent.length && (s.reply 1).isDone) := by
      rw [hsent.server, ← Server.reply_told 0 "BEGIN", Server.accepts, hthere, Bool.true_and]
      rfl
    rw [settleBatch_eq_ok, hok, haccepts]
    constructor
    · rintro ⟨⟨ha, hcounts⟩, hdone⟩
      exact ⟨ha, (Bool.and_eq_true_iff.mp hdone).2, hcounts⟩
    · rintro ⟨ha, hdone, hcounts⟩
      refine ⟨⟨ha, hcounts⟩, ?_⟩
      rw [Prepared.not_hangsUp_of_answers ha hsent.sent_le, hdone]
      rfl

/-- One execution of the batch of a statement that is prepared: the entries it had are sent as
far as the server is there, and none of them is left. -/
theorem executeBatch_transacted (h : ensurePrepared (st, c) = (.ok p, st', c'))
    (hp : st'.prepared = some p) :
    ∃ sent, Transacted st'.batch c'.autoCommit p c'.server (executeBatch (st, c)).1
        (executeBatch (st, c)).2.2.server sent ∧
      (executeBatch (st, c)).2.1 =
        { st' with batch := [], prepared := some (p.after sent.length) } := by
  cases hauto : c'.autoCommit with
  | true =>
      cases hbegin : c'.server.accepts with
      | true =>
          obtain ⟨sent, hsent⟩ := runBatch_sending st'.batch p (c'.server.told "BEGIN")
          obtain ⟨hlog, hok⟩ := hsent.settled hbegin c'
          rw [executeBatch_of_begun h hauto hbegin]
          refine ⟨sent, ⟨hsent.carries, fun _ hno => ?_, fun _ _ => ⟨?_, hlog, hok⟩, nofun⟩, ?_⟩
          · rw [hbegin] at hno
            cases hno
          · exact hsent.stops (Server.isConnected_told "BEGIN" hbegin)
          · rw [hsent.prepared]
      | false =>
          obtain ⟨e, he⟩ := executeBatch_of_unbegun h hauto hbegin
          rw [he]
          refine ⟨[], ⟨.nil, fun _ _ => ⟨rfl, rfl, Server.simple_log _ _⟩, fun _ hyes => ?_,
            nofun⟩, ?_⟩
          · rw [hbegin] at hyes
            cases hyes
          · exact congrArg (fun q => { st' with batch := [], prepared := q }) hp
  | false =>
      obtain ⟨sent, hsent⟩ := runBatch_sending st'.batch p c'.server
      rw [executeBatch_of_manual h hauto]
      refine ⟨sent, ⟨hsent.carries, nofun, nofun, fun _ => ⟨hsent.stops, ?_, ?_⟩⟩, ?_⟩
      · rw [hsent.server]
      · intro counts
        rw [← hsent.ok]
        cases (runBatch st'.batch p c'.server).1 <;> simp [Except.mapError]
      · rw [hsent.prepared]

end Executing

end Statement

end SqlSession.Postgres
