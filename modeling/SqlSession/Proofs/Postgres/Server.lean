/-
What a request does to the server.

A request that reaches the server is written down and answered by the next reply of its
kind, and one that finds the connection gone changes nothing.  `accepts` and `replyTo` look
those replies up in advance, by how many come before them, so that laws about several
requests in a row can speak of the script that the server began with.

A connection sends its commands as plain texts, and what it takes its state to be depends on
nothing but whether the server accepts them.
-/
import SqlSession.Postgres.Statement

namespace SqlSession.Postgres

/-! ### Plain texts -/

/-- Whether the text has been carried out. -/
def SimpleReply.isDone : SimpleReply → Bool
  | .rows _ => true
  | .refuse | .hangUp => false

namespace Server

/-- The reply to the text that is sent after the next `i`. -/
def reply (i : Nat) (s : Server) : SimpleReply :=
  s.simples[i]?.getD (.rows 0)

/-- Whether the server is there and carries out the text that is sent next. -/
def accepts (s : Server) : Bool :=
  s.isConnected && (s.reply 0).isDone

/-- What a text makes of a server that it reaches. -/
def told (text : String) (s : Server) : Server :=
  { s.logged (.simple text) with
    simples := s.simples.tail
    isConnected := s.reply 0 != .hangUp }

theorem simple_of_closed (text : String) {s : Server} (h : s.isConnected = false) :
    s.simple text = (.error .closed, s) := by
  simp only [simple, h, Bool.false_eq_true, if_false]

theorem simple_snd (text : String) {s : Server} (h : s.isConnected = true) :
    (s.simple text).2 = s.told text := by
  obtain ⟨prepares, simples, _, log⟩ := s
  cases h
  rcases simples with _ | ⟨_ | _ | _, rest⟩ <;> rfl

theorem simple_isOk (text : String) (s : Server) : (s.simple text).1.isOk = s.accepts := by
  cases h : s.isConnected with
  | false =>
      simp only [simple_of_closed text h, accepts, h, Bool.false_and]
      rfl
  | true =>
      obtain ⟨prepares, simples, _, log⟩ := s
      cases h
      rcases simples with _ | ⟨_ | _ | _, rest⟩ <;> rfl

theorem simple_log (text : String) (s : Server) :
    (s.simple text).2.log = s.log ++ if s.isConnected then [.simple text] else [] := by
  cases h : s.isConnected with
  | false => simp only [simple_of_closed text h, Bool.false_eq_true, if_false, List.append_nil]
  | true =>
      rw [simple_snd text h]
      rfl

theorem reply_told (i : Nat) (text : String) (s : Server) :
    (s.told text).reply i = s.reply (i + 1) := by
  simp only [reply, told, List.getElem?_tail]

theorem isConnected_of_accepts {s : Server} (h : s.accepts = true) : s.isConnected = true :=
  (Bool.and_eq_true_iff.mp h).1

/-- A server that carries out a text is there afterwards. -/
theorem isConnected_told (text : String) {s : Server} (h : s.accepts = true) :
    (s.told text).isConnected = true := by
  have hdone := (Bool.and_eq_true_iff.mp h).2
  simp only [told, bne_iff_ne]
  intro hr
  rw [hr] at hdone
  cases hdone

theorem simple_of_accepts (text : String) {s : Server} (h : s.accepts = true) :
    ∃ n, s.simple text = (.ok n, s.told text) := by
  have hok := simple_isOk text s
  cases hr : (s.simple text).1 with
  | error f =>
      rw [hr, h] at hok
      cases hok
  | ok n => exact ⟨n, Prod.ext hr (simple_snd text (isConnected_of_accepts h))⟩

theorem simple_of_not_accepts (text : String) {s : Server} (h : s.accepts = false) :
    ∃ f, s.simple text = (.error f, (s.simple text).2) := by
  have hok := simple_isOk text s
  cases hr : (s.simple text).1 with
  | error f => exact ⟨f, Prod.ext hr rfl⟩
  | ok n =>
      rw [hr, h] at hok
      cases hok

end Server

/-! ### Preparing -/

/-- Whether the text has been prepared. -/
def PrepareReply.isDone : PrepareReply → Bool
  | .prepared .. => true
  | .refuse => false

namespace Server

/-- The reply to the text that is to be prepared after the next `i`. -/
def prepareReply (i : Nat) (s : Server) : PrepareReply :=
  s.prepares[i]?.getD (.prepared [] [] [])

/-- How many of the next `n` texts that are to be prepared are prepared. -/
def granted (n : Nat) (s : Server) : Nat :=
  (List.range n).countP fun i => (s.prepareReply i).isDone

/-- What a text that is to be prepared makes of a server that it reaches. -/
def parsed (text : String) (s : Server) : Server :=
  { s.logged (.parse text) with prepares := s.prepares.tail }

theorem prepare_of_closed (text : String) {s : Server} (h : s.isConnected = false) :
    s.prepare text = (.error .closed, s) := by
  simp only [prepare, h, Bool.false_eq_true, if_false]

theorem prepare_of_connected (text : String) {s : Server} (h : s.isConnected = true) :
    s.prepare text =
      (match s.prepareReply 0 with
        | .prepared params columns runs => .ok { text, params, columns, runs }
        | .refuse => .error .refused, s.parsed text) := by
  obtain ⟨prepares, simples, _, log⟩ := s
  cases h
  rcases prepares with _ | ⟨_ | _, rest⟩ <;> rfl

theorem prepareReply_of_prepare {text : String} {s s' : Server} {p : Prepared}
    (h : s.prepare text = (.ok p, s')) :
    ∃ params columns runs, s.prepareReply 0 = .prepared params columns runs ∧
      p = { text, params, columns, runs } := by
  by_cases hserver : s.isConnected = true
  · rw [prepare_of_connected _ hserver] at h
    cases hreply : s.prepareReply 0 with
    | refuse =>
        rw [hreply] at h
        cases h
    | prepared params columns runs =>
        rw [hreply] at h
        cases h
        exact ⟨params, columns, runs, rfl, rfl⟩
  · rw [prepare_of_closed _ (by simpa using hserver)] at h
    cases h

theorem granted_one (s : Server) : s.granted 1 = if (s.prepareReply 0).isDone then 1 else 0 := by
  simp only [granted, List.range_one, List.countP_singleton]

end Server

/-! ### Runs -/

namespace RunReply

/-- Why a run with this reply fails, if it does. -/
def failure? : RunReply → Option Failure
  | .refuse => some .refused
  | .hangUp => some .closed
  | .rows _ | .count _ => none

theorem failure?_hangUp_of_none {reply : RunReply} (h : reply.failure? = none) :
    reply ≠ .hangUp := by
  rintro rfl
  cases h

end RunReply

namespace Prepared

/-- The reply to the run after the next `i`. -/
def replyTo (i : Nat) (p : Prepared) : RunReply :=
  p.runs[i]?.getD (.rows [])

/-- The statement behind its next `n` runs. -/
def after (n : Nat) (p : Prepared) : Prepared :=
  { p with runs := p.runs.drop n }

theorem replyTo_after (i n : Nat) (p : Prepared) :
    (p.after n).replyTo i = p.replyTo (n + i) := by
  simp only [replyTo, after, List.getElem?_drop]

theorem after_after (m n : Nat) (p : Prepared) : (p.after m).after n = p.after (m + n) := by
  simp only [after, List.drop_drop]

@[simp] theorem encode_after (n : Nat) (p : Prepared) : (p.after n).encode = p.encode := rfl

end Prepared

namespace Server

theorem run_of_closed (p : Prepared) (args : Cells) {s : Server} (h : s.isConnected = false) :
    s.run p args = (.error .closed, p, s) := by
  simp only [run, h, Bool.false_eq_true, if_false]

/-- What a run makes of a server that it reaches. -/
def ran (p : Prepared) (args : Cells) (s : Server) : Server :=
  { s.logged (.run p.text args) with isConnected := p.replyTo 0 != .hangUp }

theorem run_of_connected (p : Prepared) (args : Cells) {s : Server} (h : s.isConnected = true) :
    s.run p args =
      (match (p.replyTo 0).failure? with
        | none => .ok (p.replyTo 0)
        | some f => .error f, p.after 1, s.ran p args) := by
  obtain ⟨prepares, simples, _, log⟩ := s
  cases h
  obtain ⟨text, params, columns, runs⟩ := p
  rcases runs with _ | ⟨_ | _ | _ | _, rest⟩ <;> rfl

theorem replyTo_of_run {p p' : Prepared} {args : Cells} {s s' : Server} {reply : RunReply}
    (h : s.run p args = (.ok reply, p', s')) : reply = p.replyTo 0 := by
  by_cases hserver : s.isConnected = true
  · rw [run_of_connected p args hserver] at h
    cases hfailure : (p.replyTo 0).failure? with
    | some f =>
        rw [hfailure] at h
        cases h
    | none =>
        rw [hfailure] at h
        cases h
        rfl
  · rw [run_of_closed p args (by simpa using hserver)] at h
    cases h

end Server

/-! ### Commands -/

namespace Connection

/-- The command that switches auto-commit. -/
def switch (on : Bool) : String :=
  if on then "COMMIT" else "BEGIN"

variable {on : Bool} {command : String} {c : Connection}

theorem setAutoCommit_of_same (h : c.autoCommit = on) : setAutoCommit on c = (.ok (), c) := by
  simp only [setAutoCommit, h, if_true]

theorem setAutoCommit_of_accepts (h : c.autoCommit ≠ on) (hs : c.server.accepts = true) :
    setAutoCommit on c =
      (.ok (), { server := c.server.told (switch on), autoCommit := on }) := by
  obtain ⟨n, hn⟩ := Server.simple_of_accepts (switch on) hs
  simp only [switch] at hn
  simp only [setAutoCommit, h, if_false, hn, switch]

/-- A switch that is not carried out is taken back. -/
theorem setAutoCommit_of_refused (h : c.autoCommit ≠ on) (hs : c.server.accepts = false) :
    ∃ e, setAutoCommit on c =
      (.error e, { c with server := (c.server.simple (switch on)).2 }) := by
  obtain ⟨f, hf⟩ := Server.simple_of_not_accepts (switch on) hs
  refine ⟨f.error, ?_⟩
  rw [setAutoCommit, if_neg h]
  simp only [switch] at hf ⊢
  rw [hf]

theorem endTransaction_of_auto (h : c.autoCommit = true) :
    endTransaction command c = (.ok (), c) := by
  simp only [endTransaction, h, if_true]

theorem endTransaction_of_accepts (h : c.autoCommit = false) (hs : c.server.accepts = true) :
    endTransaction command c =
      (.ok (), { c with server := c.server.told (command ++ "; BEGIN") }) := by
  obtain ⟨n, hn⟩ := Server.simple_of_accepts (command ++ "; BEGIN") hs
  simp only [endTransaction, h, Bool.false_eq_true, if_false, ask, hn]

theorem endTransaction_of_refused (command : String) (h : c.autoCommit = false)
    (hs : c.server.accepts = false) :
    ∃ e, endTransaction command c =
      (.error e, { c with server := (c.server.simple (command ++ "; BEGIN")).2 }) := by
  obtain ⟨f, hf⟩ := Server.simple_of_not_accepts (command ++ "; BEGIN") hs
  refine ⟨f.error, ?_⟩
  rw [endTransaction, if_neg (by rw [h]; exact nofun)]
  simp only [ask]
  rw [hf]

/-- A switch asks the server for its command or for nothing. -/
theorem setAutoCommit_server (on : Bool) (c : Connection) :
    (setAutoCommit on c).2.server = c.server ∨
      (setAutoCommit on c).2.server = (c.server.simple (switch on)).2 := by
  by_cases h : c.autoCommit = on
  · exact Or.inl (by rw [setAutoCommit_of_same h])
  · refine Or.inr ?_
    cases hs : c.server.accepts with
    | true =>
        rw [setAutoCommit_of_accepts h hs, Server.simple_snd _ (Server.isConnected_of_accepts hs)]
    | false =>
        obtain ⟨e, he⟩ := setAutoCommit_of_refused h hs
        rw [he]

theorem endTransaction_server (command : String) (c : Connection) :
    (endTransaction command c).2.server = c.server ∨
      (endTransaction command c).2.server = (c.server.simple (command ++ "; BEGIN")).2 := by
  cases h : c.autoCommit with
  | true => exact Or.inl (by rw [endTransaction_of_auto h])
  | false =>
      refine Or.inr ?_
      cases hs : c.server.accepts with
      | true =>
          rw [endTransaction_of_accepts h hs,
            Server.simple_snd _ (Server.isConnected_of_accepts hs)]
      | false =>
          obtain ⟨e, he⟩ := endTransaction_of_refused command h hs
          rw [he]

end Connection

/-! ### Events -/

namespace Event

/-- A request to prepare a text. -/
def isParse : Event → Bool
  | .parse _ => true
  | .run .. | .simple _ => false

/-- A text that was sent by the simple protocol. -/
def isSimple : Event → Bool
  | .simple _ => true
  | .parse _ | .run .. => false

/-- A run of a prepared statement. -/
def isRun : Event → Bool
  | .run .. => true
  | .parse _ | .simple _ => false

end Event

end SqlSession.Postgres
