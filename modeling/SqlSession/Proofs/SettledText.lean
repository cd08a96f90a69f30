/-
Texts that stay.

Once the text of a statement is put together, or given by the caller, it stays for as long as
the statement is not begun anew: whatever else the session is asked for in between, the text
is what it answers and what its executions prepare.  `settled_text_is_prepared` says so for
every kind of statement and every run.

An execution that prepares anything prepares just that text, and it does so once if the session
is open and, for a SELECT, the aliases are as many as the fields.  A closed session refuses it
before the connection hears of it.  So does a session that was given the text of a SELECT, where
the fields and aliases set for reading its answer do not fit each other.
-/
import SqlSession.Proofs.FirstRow
import SqlSession.Proofs.Provenance
import SqlSession.Proofs.Release

namespace SqlSession

open SqlSession.Action Traced

variable {σ : Type} [Backend σ] {α Callable : Type}

/-! ### What a log prepares -/

/-- The text that an event prepares. -/
def Event.prepares? : Event Callable → Option String
  | ⟨.prepare _ text, _⟩ => some text
  | _ => none

/-- The texts that are prepared, in order, whether that succeeds or fails. -/
def preparedTexts (ev : List (Event Callable)) : List String :=
  ev.filterMap Event.prepares?

theorem preparedTexts_append (ev ev' : List (Event Callable)) :
    preparedTexts (ev ++ ev') = preparedTexts ev ++ preparedTexts ev' :=
  List.filterMap_append

theorem preparedTexts_of_uses {n : Nat} {ev : List (Event Callable)} (h : ∀ e ∈ ev, Uses n e) :
    preparedTexts ev = [] := by
  refine List.filterMap_eq_nil_iff.mpr fun e he => ?_
  obtain ⟨request, done⟩ := e
  cases request with
  | prepare m text => exact absurd (h _ he) (not_uses_prepare _ _ _ _)
  | _ => rfl

theorem preparedTexts_boundFrom (n position : Nat) (vs : List Value) :
    preparedTexts (boundFrom (.bind n) position vs : List (Event Callable)) = [] := by
  refine List.filterMap_eq_nil_iff.mpr fun e he => ?_
  obtain ⟨i, v, rfl⟩ := mem_boundFrom he
  rfl

/-- The log of a statement prepares its text and nothing else. -/
theorem preparedTexts_of_statementLog {n : Nat} {text : String} {params : List Value}
    {r : Except DbError α} {ev : List (Event Callable)}
    (h : StatementLog n text params (fun _ ev => ∀ e ∈ ev, Uses n e) r ev) :
    preparedTexts ev = [text] := by
  have hopened (done : Bool) (vs : List Value) : preparedTexts
      (⟨.prepare n text, done⟩ :: boundFrom (.bind n) 1 vs : List (Event Callable)) = [text] :=
    congrArg (text :: ·) (preparedTexts_boundFrom n 1 vs)
  cases h with
  | refused e => rfl
  | abandoned e done v rest split =>
      rw [preparedTexts_append, hopened]
      rfl
  | closed r ev used =>
      rw [preparedTexts_append, preparedTexts_append, hopened, preparedTexts_of_uses used]
      rfl

/-! ### Executions of a kind -/

/-- The method runs statements of the kind. -/
def Terminal.runs : Terminal → Kind → Bool
  | .execute, kind => kind != .select
  | .executeBatch _, kind => kind == .insert
  | .query, kind | .queryUnique, kind | .queryCount, kind => kind == .select
  | .queryProcedure _, _ => false

/-- There are as many aliases as fields, where both are set. -/
def Shape.fits (shape : Shape) : Bool :=
  shape.fields.isEmpty || shape.aliases.all fun aliases => aliases.length == shape.fields.length

namespace Session

variable {kind : Kind}

theorem selectLabels_of_fits {s : Session σ} (h : (s.shape .select).fits = true) :
    ∃ labels, s.selectLabels = .ok labels := by
  simp only [Shape.fits, shape, Bool.or_eq_true] at h
  unfold selectLabels Sql.readLabels
  split
  · exact ⟨_, rfl⟩
  · rename_i hfields
    have haliases := h.resolve_left hfields
    unfold Sql.resolveAliases
    cases hal : s.selecting.parts.aliases with
    | none => exact ⟨_, rfl⟩
    | some aliases =>
        rw [hal] at haliases
        have hlength : aliases.length = s.selecting.parts.fields.length := beq_iff_eq.mp haliases
        simp only [hlength, if_true]
        exact ⟨_, rfl⟩

theorem selectLabels_of_not_fits {s : Session σ} (h : (s.shape .select).fits = false) :
    ∃ m n, s.selectLabels = .error (.aliasCountMismatch m n) := by
  simp only [Shape.fits, shape, Bool.or_eq_false_iff] at h
  obtain ⟨hfields, haliases⟩ := h
  simp only [selectLabels, Sql.readLabels, hfields, Bool.false_eq_true, if_false,
    Sql.resolveAliases]
  cases hal : s.selecting.parts.aliases with
  | none =>
      rw [hal] at haliases
      cases haliases
  | some aliases =>
      rw [hal] at haliases
      have hlength : aliases.length ≠ s.selecting.parts.fields.length :=
        beq_eq_false_iff_ne.mp haliases
      simp only [hlength, if_false]
      exact ⟨_, _, rfl⟩

/-- A statement of the kind gets to the connection: there is one, and the labels under which
an answer would be read can be told. -/
def reaches (kind : Kind) (s : Session σ) : Bool :=
  s.isOpen && (s.shape kind).fits

/-- The log grows, and these texts are prepared. -/
def Prepares (texts : List String) (s t : Session (Traced σ)) : Prop :=
  ∃ ev, t.backend.log = s.backend.log ++ ev ∧ preparedTexts ev = texts

theorem prepares_nothing {s t : Session (Traced σ)} (h : t.backend = s.backend) :
    Prepares [] s t :=
  ⟨[], by rw [h, List.append_nil], rfl⟩

theorem prepares_statement (text : String) (params : List Value)
    {use : Action (Handle (Backend.Statement σ) × Traced σ) α}
    (h : Logs (fun n _ ev => ∀ e ∈ ev, Uses n e) use) (s : Session (Traced σ)) :
    Prepares (if s.isOpen then [text] else []) s
      (onConnection (runStatement (σ := Traced σ) text params use) s).2 := by
  cases hopen : s.isOpen with
  | false =>
      rw [onConnection_of_closed _ hopen]
      exact prepares_nothing rfl
  | true =>
      obtain ⟨ev, hlog, hev⟩ := runStatement_log text params h s.backend
      rw [onConnection_of_open _ hopen]
      exact ⟨ev, hlog, preparedTexts_of_statementLog hev⟩

theorem logs_uses_of_runs {use : Action (Handle (Backend.Statement σ) × Traced σ) α}
    (h : Logs (fun n _ ev => ∀ e ∈ ev, Runs n e) use) :
    Logs (fun n _ ev => ∀ e ∈ ev, Uses n e) use := by
  intro p
  obtain ⟨hn, ev, hlog, hev⟩ := h p
  exact ⟨hn, ev, hlog, fun e he => Or.inl (hev e he)⟩

theorem prepares_executeChange {operation : Operation} {s : Session (Traced σ)} {text : String}
    (h : s.draftText operation = .ok text) :
    Prepares (if s.isOpen then [text] else []) s (executeChange operation s).2 := by
  have hrun : Logs (fun n _ ev => ∀ e ∈ ev, Runs n e) (Backend.executeUpdate (σ := Traced σ)) :=
    logs_runs (fun _ _ => Or.inl rfl) _
  have hprepares := prepares_statement text s.params (logs_uses_of_runs hrun)
    (s.settle operation text)
  rw [settle_isOpen] at hprepares
  rw [executeChange_of_text h]
  rwa [Prepares, settle_backend] at hprepares

theorem prepares_insertBatch (records : List Record) {s : Session (Traced σ)} {text : String}
    (h : s.draftText .insert = .ok text) :
    Prepares (if s.isOpen then [text] else []) s (insertBatch records s).2 := by
  have hbatch : Logs (fun n _ ev => ∀ e ∈ ev, Uses n e)
      (useBatch (σ := Traced σ) s.inserting.parts.fields records) := by
    intro p
    obtain ⟨hn, ev, hlog, hev⟩ := logs_batch s.inserting.parts.fields records p
    exact ⟨hn, ev, hlog, fun e he => Or.inr (hev.only e he)⟩
  have hprepares := prepares_statement text [] hbatch (s.settle .insert text)
  rw [settle_isOpen] at hprepares
  rw [insertBatch_of_text records h]
  rwa [Prepares, settle_backend] at hprepares

theorem prepares_runSelect {s : Session (Traced σ)} {text : String}
    (h : s.draftText .select = .ok text) :
    Prepares (if s.reaches .select then [text] else []) s (runSelect s).2 := by
  have hrun : Logs (fun n _ ev => ∀ e ∈ ev, Runs n e) (Backend.executeQuery (σ := Traced σ)) :=
    logs_runs (fun _ _ => Or.inr (Or.inl rfl)) _
  cases hfits : (s.shape .select).fits with
  | false =>
      obtain ⟨m, n, hl⟩ := selectLabels_of_not_fits hfits
      rw [runSelect_of_unread h hl, reaches, hfits, Bool.and_false]
      exact prepares_nothing (settle_backend _ _ s)
  | true =>
      obtain ⟨labels, hl⟩ := selectLabels_of_fits hfits
      have hprepares := prepares_statement text s.params (logs_uses_of_runs hrun)
        (s.settle .select text)
      rw [settle_isOpen] at hprepares
      rw [runSelect_of_text h hl, bind_pure_snd, reaches, hfits, Bool.and_true]
      rwa [Prepares, settle_backend] at hprepares

/-- The outcome is an error, and not one that a query for a single row forgives. -/
def Fails (r : Except DbError α) : Prop :=
  ∃ e, r = .error e ∧ e.isNoData = false

/-- What is left is the session of the statement without its parameters, and where the statement
fails, so does the whole. -/
def Follows {β : Type} (statement : Except DbError α × Session σ)
    (whole : Except DbError β × Session σ) : Prop :=
  whole.2 = { statement.2 with params := [] } ∧ (Fails statement.1 → Fails whole.1)

/-- An execution follows the statement that it runs. -/
inductive Executes (kind : Kind) (s : Session σ) (x : Terminal) : Prop
  | change (hkind : kind ≠ .select)
      (h : Follows (executeChange kind.operation s) (perform x.method s))
  | batch (hkind : kind = .insert) (records : List Record)
      (h : Follows (insertBatch records s) (perform x.method s))
  | select (hkind : kind = .select) (h : Follows (runSelect s) (perform x.method s))

theorem Fails.map {β : Type} {r : Except DbError α} (h : Fails r) (f : α → β) :
    Fails (r.map f) := by
  obtain ⟨e, rfl, he⟩ := h
  exact ⟨e, rfl, he⟩

theorem Fails.bind {β : Type} {r : Except DbError α} (h : Fails r) (f : α → Except DbError β) :
    Fails (r.bind f) := by
  obtain ⟨e, rfl, he⟩ := h
  exact ⟨e, rfl, he⟩

theorem execution_cases {x : Terminal} (hx : x.runs kind = true) {s : Session σ}
    (hop : s.operation = kind.operation) : Executes kind s x := by
  cases x with
  | execute =>
      have hkind : kind ≠ .select := bne_iff_ne.mp hx
      have hactive : executeActive s = executeChange kind.operation s := by
        simp only [executeActive, hop]
        cases kind with
        | select => exact absurd rfl hkind
        | insert | update | delete => rfl
      refine .change hkind ⟨?_, fun hfails => ?_⟩
      · exact congrArg (fun out => { out.2 with params := [] }) hactive
      · exact ((congrArg Prod.fst hactive).symm ▸ hfails).map Answer.count
  | executeBatch records =>
      obtain rfl : kind = .insert := beq_iff_eq.mp hx
      have hbatch := executeBatch_of_insert records hop
      refine .batch rfl records ⟨congrArg Prod.snd hbatch, fun hfails => ?_⟩
      have hfails : Fails (executeBatch records s).1 := (congrArg Prod.fst hbatch).symm ▸ hfails
      exact hfails.map Answer.counts
  | query =>
      obtain rfl : kind = .select := beq_iff_eq.mp hx
      have hquery := query_of_select hop
      refine .select rfl ⟨congrArg Prod.snd hquery, fun hfails => ?_⟩
      have hfails : Fails (query s).1 := (congrArg Prod.fst hquery).symm ▸ hfails.bind _
      exact hfails.map Answer.records
  | queryUnique =>
      obtain rfl : kind = .select := beq_iff_eq.mp hx
      have hunique : queryUnique s = _ := select?_of_select "query_unique" _ hop
      refine .select rfl ⟨congrArg Prod.snd hunique, fun hfails => ?_⟩
      obtain ⟨e, hrun, he⟩ := hfails
      have hunread := queryUnique_of_unread hop hrun
      have hfails : Fails (queryUnique s).1 := ⟨e, by rw [hunread, if_neg (by simp [he])], he⟩
      exact hfails.map Answer.record
  | queryCount =>
      obtain rfl : kind = .select := beq_iff_eq.mp hx
      have hcount : queryCount s = _ := select?_of_select "query_count" _ hop
      refine .select rfl ⟨congrArg Prod.snd hcount, fun hfails => ?_⟩
      have hfails : Fails (queryCount s).1 := (congrArg Prod.fst hcount).symm ▸ hfails.bind _
      exact hfails.map Answer.number
  | queryProcedure allResults => cases hx

theorem reaches_of_ne_select (hkind : kind ≠ .select) (s : Session σ) :
    s.reaches kind = s.isOpen := by
  cases kind with
  | select => exact absurd rfl hkind
  | insert | update | delete =>
      simp only [reaches, Shape.fits, shape, Option.all_none, Bool.or_true, Bool.and_true]

/-- An execution prepares the text of its draft, if it gets to the connection. -/
theorem prepares_execution {x : Terminal} (hx : x.runs kind = true) {s : Session (Traced σ)}
    (hop : s.operation = kind.operation) {text : String}
    (h : s.draftText kind.operation = .ok text) :
    Prepares (if s.reaches kind then [text] else []) s (perform x.method s).2 := by
  cases execution_cases hx hop with
  | change hkind hfollows =>
      rw [hfollows.1, reaches_of_ne_select hkind]
      exact prepares_executeChange h
  | batch hkind records hfollows =>
      subst hkind
      rw [hfollows.1, reaches_of_ne_select (by decide)]
      exact prepares_insertBatch records h
  | select hkind hfollows =>
      subst hkind
      rw [hfollows.1]
      exact prepares_runSelect h

/-! ### Executions that are refused -/

/-- It fails, and nothing was asked of the connection. -/
def Unreached (s : Session σ) (out : Except DbError α × Session σ) : Prop :=
  Fails out.1 ∧ out.2.backend = s.backend

theorem Follows.unreached {β : Type} {s : Session σ} {statement : Except DbError α × Session σ}
    {whole : Except DbError β × Session σ} (h : Follows statement whole)
    (hstatement : Unreached s statement) : Unreached s whole := by
  constructor
  · exact h.2 hstatement.1
  · rw [h.1]
    exact hstatement.2

/-- Whatever is to be run, a closed session refuses it. -/
theorem unreached_onConnection (a : Action σ α) (operation : Operation) (text : String)
    {s : Session σ} (h : s.isOpen = false) :
    Unreached s (onConnection a (s.settle operation text)) := by
  rw [onConnection_of_closed a (by rwa [settle_isOpen])]
  exact ⟨⟨_, rfl, rfl⟩, settle_backend operation text s⟩

theorem unreached_runSelect {s : Session σ} {text : String} (h : s.draftText .select = .ok text)
    (hreaches : s.reaches .select = false) : Unreached s (runSelect s) := by
  cases hfits : (s.shape .select).fits with
  | false =>
      obtain ⟨m, n, hl⟩ := selectLabels_of_not_fits hfits
      rw [runSelect_of_unread h hl]
      exact ⟨⟨_, rfl, rfl⟩, settle_backend .select text s⟩
  | true =>
      obtain ⟨labels, hl⟩ := selectLabels_of_fits hfits
      have hclosed : s.isOpen = false := by
        rwa [reaches, hfits, Bool.and_true] at hreaches
      obtain ⟨hfails, hstill⟩ := unreached_onConnection
        (runStatement text s.params Backend.executeQuery) .select text hclosed
      rw [runSelect_of_text h hl]
      obtain ⟨e, herror, he⟩ := hfails
      rw [bind_of_error (Prod.ext herror rfl)]
      exact ⟨⟨e, rfl, he⟩, hstill⟩

/-- An execution that does not get to the connection fails. -/
theorem unreached_execution {x : Terminal} (hx : x.runs kind = true) {s : Session σ}
    (hop : s.operation = kind.operation) {text : String}
    (h : s.draftText kind.operation = .ok text) (hreaches : s.reaches kind = false) :
    Unreached s (perform x.method s) := by
  cases execution_cases hx hop with
  | change hkind hfollows =>
      rw [reaches_of_ne_select hkind] at hreaches
      refine hfollows.unreached ?_
      rw [executeChange_of_text h]
      exact unreached_onConnection _ _ _ hreaches
  | batch hkind records hfollows =>
      subst hkind
      rw [reaches_of_ne_select (by decide)] at hreaches
      refine hfollows.unreached ?_
      rw [insertBatch_of_text records h]
      exact unreached_onConnection _ _ _ hreaches
  | select hkind hfollows =>
      subst hkind
      exact hfollows.unreached (unreached_runSelect h hreaches)

/-! ### Settling a text -/

/-- The method settles the draft of the kind on the text. -/
inductive Settles (kind : Kind) (text : String) (s : Session σ) : Method → Prop
  /-- It asks for the text, which is there or can be put together. -/
  | accessor (h : (compile kind.operation s).1 = .ok text) : Settles kind text s (.text kind)
  /-- It runs a statement of the kind. -/
  | execution (x : Terminal) (hx : x.runs kind = true) (hop : s.operation = kind.operation)
      (h : (compile kind.operation s).1 = .ok text) : Settles kind text s x.method
  /-- The caller gives the text. -/
  | raw (h : Sql.classify text = kind.operation) : Settles kind text s (.sql text)

theorem draftText_of_compile {operation : Operation} {s : Session σ} {text : String}
    (h : (compile operation s).1 = .ok text) : s.draftText operation = .ok text := by
  cases ht : s.draftText operation with
  | error e =>
      rw [compile_of_error ht] at h
      cases h
  | ok text' =>
      rw [compile_of_text ht] at h
      exact h

theorem settledText_settle (kind : Kind) (text : String) (s : Session σ) :
    (s.settle kind.operation text).settledText kind = some text := by
  cases kind <;> rfl

theorem settledText_onConnection (a : Action σ α) (s : Session σ) :
    (onConnection a s).2.settledText kind = s.settledText kind := by
  have hview : draftView kind (onConnection a s).2 = draftView kind s := view_onConnection a s
  exact congrArg (fun v => v.2.1) hview

theorem settledText_of_settles {m : Method} {s : Session σ} {text : String}
    (h : Settles kind text s m) : (perform m s).2.settledText kind = some text := by
  cases h with
  | accessor h =>
      show (compile kind.operation s).2.settledText kind = some text
      rw [compile_of_text (draftText_of_compile h)]
      exact settledText_settle kind text s
  | execution x hx hop h =>
      have hdraft := draftText_of_compile h
      have hcleared (t : Session σ) :
          settledText kind { t with params := [] } = t.settledText kind := by
        cases kind <;> rfl
      cases execution_cases hx hop with
      | change hkind hfollows =>
          rw [hfollows.1, hcleared, executeChange_of_text hdraft, settledText_onConnection]
          exact settledText_settle kind text s
      | batch hkind records hfollows =>
          subst hkind
          rw [hfollows.1, hcleared, insertBatch_of_text records hdraft, settledText_onConnection]
          exact settledText_settle .insert text s
      | select hkind hfollows =>
          subst hkind
          rw [hfollows.1, hcleared]
          cases hl : s.selectLabels with
          | error e =>
              rw [runSelect_of_unread hdraft hl]
              exact settledText_settle .select text s
          | ok labels =>
              rw [runSelect_of_text hdraft hl, bind_pure_snd, settledText_onConnection]
              exact settledText_settle .select text s
  | raw h =>
      show (sql text s).settledText kind = some text
      simp only [sql, h]
      cases kind <;> rfl

theorem settledText_run {ms : List Method} (hms : ∀ m ∈ ms, m.restarts kind = false)
    {s : Session σ} {text : String} (h : s.settledText kind = some text) :
    (run ms s).settledText kind = some text := by
  induction ms generalizing s with
  | nil => exact h
  | cons m ms ih =>
      exact ih (fun m' hm' => hms m' (List.mem_cons_of_mem _ hm'))
        (settledText_perform (hms m (List.mem_cons_self ..)) h)

/--
**A text stays until its statement is begun anew.**  A compilation that fails leaves the
session as it was.  Once the draft of a kind is settled on a text, be it put together for
whoever asks for it or for an execution, or given by the caller, then after any methods of
which none begins the draft anew or ends it:

* the text is what the session answers when it is asked for it;
* an execution of the kind prepares nothing else, and it prepares this text, once, if the
  session is open and, for a SELECT, the aliases it has by then are as many as its fields;
* an execution in a closed session fails, and the connection hears nothing of it; and so does
  one of a text that the caller has given, if its aliases are not as many as its fields.
-/
theorem settled_text_is_prepared (kind : Kind) (s : Session (Traced σ)) :
    (∀ e, (compile kind.operation s).1 = .error e → (compile kind.operation s).2 = s) ∧
      ∀ m text, Settles kind text s m → ∀ ms, (∀ m ∈ ms, m.restarts kind = false) →
        let t := run ms (perform m s).2
        (perform (.text kind) t).1 = .ok (.text text) ∧
          ∀ x : Terminal, x.runs kind = true → t.operation = kind.operation →
            (∃ ev, (perform x.method t).2.backend.log = t.backend.log ++ ev ∧
              (∀ prepared ∈ preparedTexts ev, prepared = text) ∧
              (t.isOpen = true → (t.shape kind).fits = true → preparedTexts ev = [text])) ∧
            (t.isOpen = false ∨ m = .sql text ∧ (t.shape kind).fits = false →
              (∃ e, (perform x.method t).1 = .error e) ∧
                (perform x.method t).2.backend = t.backend) := by
  constructor
  · intro e h
    cases ht : s.draftText kind.operation with
    | error e => rw [compile_of_error ht]
    | ok text =>
        rw [compile_of_text ht] at h
        cases h
  · intro m text hm ms hms t
    have hsettled : t.settledText kind = some text :=
      settledText_run hms (settledText_of_settles hm)
    have hdraft := draftText_of_settled hsettled
    refine ⟨?_, fun x hx hop => ⟨?_, fun hrefused => ?_⟩⟩
    · show (compile kind.operation t).1.map Answer.text = .ok (.text text)
      rw [compile_of_text hdraft]
      rfl
    · obtain ⟨ev, hlog, hprepared⟩ := prepares_execution hx hop hdraft
      refine ⟨ev, hlog, fun prepared hmem => ?_, fun hopen hfits => ?_⟩
      · rw [hprepared] at hmem
        split at hmem
        · exact List.mem_singleton.mp hmem
        · cases hmem
      · rw [hprepared, reaches, hopen, hfits]
        rfl
    · have hreaches : t.reaches kind = false := by
        rcases hrefused with hclosed | ⟨-, hunfit⟩
        · rw [reaches, hclosed, Bool.false_and]
        · rw [reaches, hunfit, Bool.and_false]
      obtain ⟨⟨e, herror, -⟩, hstill⟩ := unreached_execution hx hop hdraft hreaches
      exact ⟨⟨e, herror⟩, hstill⟩

/-- A SELECT of the caller's, with an alias for each of its fields and set to be prepared. -/
theorem given_text_is_prepared :
    let s := traced .postgreSql ({} : Scripted.Connection)
    let given : Method := .sql "select title from book"
    let ms : List Method := [.fields ["title"], .aliases ["name"]]
    let t := run ms (perform given s).2
    (Settles .select "select title from book" s given ∧ (∀ m ∈ ms, m.restarts .select = false) ∧
      t.isOpen = true ∧ (t.shape .select).fits = true) ∧
      ∃ ev, (perform .query t).2.backend.log = t.backend.log ++ ev ∧
        preparedTexts ev = ["select title from book"] := by
  intro s given ms t
  have hsettles : Settles .select "select title from book" s given := .raw (by decide)
  have hkept : ∀ m ∈ ms, m.restarts .select = false := by decide
  obtain ⟨-, hsettled⟩ := settled_text_is_prepared .select s
  obtain ⟨-, hexecution⟩ := hsettled given _ hsettles ms hkept
  obtain ⟨⟨ev, hlog, -, hprepared⟩, -⟩ := hexecution .query rfl rfl
  exact ⟨⟨hsettles, hkept, rfl, rfl⟩, ev, hlog, hprepared rfl rfl⟩

/-- Each execution of a kind prepares the text that its draft was settled on, at least in the
sessions that `P` admits. -/
def AlwaysPrepares (P : Method → Kind → Session (Traced Scripted.Connection) → Prop) : Prop :=
  ∀ (kind : Kind) (past ms : List Method) (m : Method) (text : String) (x : Terminal)
    (ev : List (Event Scripted.Call)),
    let s := run past (traced .postgreSql ({} : Scripted.Connection))
    let t := run ms (perform m s).2
    Settles kind text s m → (∀ m ∈ ms, m.restarts kind = false) → x.runs kind = true →
      t.operation = kind.operation → P m kind t →
      (perform x.method t).2.backend.log = t.backend.log ++ ev → preparedTexts ev = [text]

/-- A closed session prepares nothing, although the aliases of the SELECT fit; and neither does an
open one that was given the text, with too many aliases to read its answer under. -/
theorem unfit_or_closed_prepares_nothing :
    ¬AlwaysPrepares (fun _ kind t => (t.shape kind).fits = true) ∧
      ¬AlwaysPrepares (fun m _ t => t.isOpen = true ∧ ∃ text, m = .sql text) := by
  constructor
  · intro h
    have hprepared := h .select [.close, .select ["title"], .source "book"] []
      (.text .select) "select title as \"title\" from book" .query [] (.accessor rfl) (by decide)
      rfl rfl rfl rfl
    exact absurd hprepared (by decide)
  · intro h
    have hprepared := h .select [] [.fields ["title"], .aliases ["a", "b"]]
      (.sql "select title from book") "select title from book" .query [] (.raw (by decide))
      (by decide) rfl rfl ⟨rfl, _, rfl⟩ rfl
    exact absurd hprepared (by decide)

end Session

end SqlSession
