/-
The parameters by their positions.

Parameters are appended or put at a position, in any order, and a gap is filled with NULL.  What
comes of it does not depend on how the list has grown: it is as long as the highest position that
was written, and holds at each position what was written there last.  `Placements.laidOut` is that
list.  Which writes count is a matter of the run: those since the parameters were last emptied,
and `placementsOf` follows a run to find them.

An execution hands the list on to a statement that it has just prepared, value by value from
position 1.  The two kinds of statements that take no parameters are left out of that: a CREATE is
run as it stands, and a batch is bound with its records.
-/
import Mathlib.Tactic.SplitIfs
import SqlSession.Proofs.RecordBatch
import SqlSession.Proofs.Release

namespace SqlSession

open SqlSession.Action Traced

variable {σ : Type} [Backend σ]

/-! ### A list by its positions -/

/-- Values with the positions that they were written to, one write after the other. -/
abbrev Placements := List (Nat × Value)

namespace Placements

variable {ws : Placements} {p q : Nat} {v : Value}

/-- The highest position that was written. -/
def highest (ws : Placements) : Nat :=
  (ws.map Prod.fst).foldr max 0

/-- What was written last to a position; NULL if nothing was. -/
def last (ws : Placements) (position : Nat) : Value :=
  (ws.reverse.lookup position).getD .null

/-- The list that holds at each position what was written there last. -/
def laidOut (ws : Placements) : List Value :=
  (List.range' 1 ws.highest).map ws.last

@[simp] theorem length_laidOut (ws : Placements) : ws.laidOut.length = ws.highest := by
  simp only [laidOut, List.length_map, List.length_range']

theorem highest_concat (ws : Placements) (p : Nat) (v : Value) :
    highest (ws ++ [(p, v)]) = max ws.highest p := by
  induction ws with
  | nil => simp [highest]
  | cons w ws ih =>
      simp only [highest, List.cons_append, List.map_cons, List.foldr_cons] at ih ⊢
      omega

theorem le_highest (h : (p, v) ∈ ws) : p ≤ ws.highest := by
  induction ws with
  | nil => cases h
  | cons w ws ih =>
      simp only [highest, List.map_cons, List.foldr_cons] at ih ⊢
      rcases List.mem_cons.mp h with rfl | h
      · exact Nat.le_max_left ..
      · exact Nat.le_trans (ih h) (Nat.le_max_right ..)

theorem last_concat (ws : Placements) (p : Nat) (v : Value) (q : Nat) :
    last (ws ++ [(p, v)]) q = if q = p then v else ws.last q := by
  simp only [last, List.reverse_append, List.reverse_singleton, List.singleton_append,
    List.lookup_cons]
  split_ifs with h
  · rw [beq_iff_eq.mpr h]
    rfl
  · rw [beq_eq_false_iff_ne.mpr h]

theorem last_of_highest_lt (h : ws.highest < q) : ws.last q = .null := by
  have hnone : ws.reverse.lookup q = none := by
    refine List.lookup_eq_none_iff.mpr fun w hw => ?_
    have hle := le_highest (List.mem_reverse.mp hw)
    exact bne_iff_ne.mpr (Nat.ne_of_gt (Nat.lt_of_le_of_lt hle h))
  rw [last, hnone, Option.getD_none]

theorem getElem?_laidOut (ws : Placements) (i : Nat) :
    ws.laidOut[i]? = if i < ws.highest then some (ws.last (i + 1)) else none := by
  rw [laidOut, List.getElem?_map]
  split_ifs with h
  · rw [List.getElem?_range' h, Option.map_some, Nat.one_mul, Nat.add_comm]
  · rw [List.getElem?_eq_none (by rw [List.length_range']; omega), Option.map_none]

end Placements

/-- Between the end of the list and the place that is written there is NULL. -/
theorem Params.getElem?_put_gap (params : List Value) {i j : Nat} (v : Value)
    (hj : params.length ≤ j) (h : j < i) : (put params i v)[j]? = some .null := by
  induction params generalizing i j with
  | nil =>
      induction i generalizing j with
      | zero => omega
      | succ i ih =>
          cases j with
          | zero => rfl
          | succ j => exact ih (Nat.zero_le j) (by omega)
  | cons w rest ih =>
      cases i with
      | zero => omega
      | succ i =>
          cases j with
          | zero => simp at hj
          | succ j => exact ih (by simpa using hj) (by omega)

/-- One more write puts its value at its position, and NULL where nothing was written yet. -/
theorem Placements.laidOut_concat (ws : Placements) {p : Nat} (v : Value) (hp : 1 ≤ p) :
    laidOut (ws ++ [(p, v)]) = Params.put ws.laidOut (p - 1) v := by
  obtain ⟨i, rfl⟩ : ∃ i, p = i + 1 := ⟨p - 1, by omega⟩
  refine List.ext_getElem? fun j => ?_
  rw [getElem?_laidOut, highest_concat, last_concat, Nat.add_sub_cancel]
  by_cases hself : j = i
  · subst hself
    rw [if_pos (by omega), if_pos rfl, Params.getElem?_put_self]
  have hother : j + 1 ≠ i + 1 := by omega
  rw [if_neg hother]
  by_cases hthere : j < ws.highest
  · rw [if_pos (by omega), Params.getElem?_put_of_ne _ _ (Ne.symm hself) (by simpa using hthere),
      getElem?_laidOut, if_pos hthere]
  by_cases hgap : j < i
  · rw [if_pos (by omega), last_of_highest_lt (by omega),
      Params.getElem?_put_gap _ _ (by simpa using hthere) hgap]
  · rw [if_neg (by omega), List.getElem?_eq_none (by simp; omega)]

/-! ### The writes of a run -/

/-- The method as one that ends a statement, if it does. -/
def Method.terminal? : Method → Option Terminal
  | .execute => some .execute
  | .executeBatch records => some (.executeBatch records)
  | .query => some .query
  | .queryUnique => some .queryUnique
  | .queryCount => some .queryCount
  | .queryProcedure allResults => some (.queryProcedure allResults)
  | _ => none

theorem Method.eq_of_terminal? {m : Method} {t : Terminal} (h : m.terminal? = some t) :
    m = t.method := by
  cases m <;> cases h <;> rfl

/-- The position and the value that a method writes, if `n` is the highest position so far.  An
out parameter has NULL put in its place. -/
def Method.places? (n : Nat) : Method → Option (Nat × Value)
  | .param v => some (n + 1, v)
  | .paramAt position v => some (max position 1, v)
  | .outParam position _ => some (max position 1, .null)
  | _ => none

namespace Session

/-- The method empties the parameters: it starts a statement, runs what has been built, or gives
everything up. -/
def empties (m : Method) (s : Session σ) : Bool :=
  match m with
  | .select _ | .insert _ | .update _ | .delete _ | .sql _ | .reset | .close => true
  | .call _ => (perform m s).1.isOk
  | m => m.terminal?.any fun t => t.takes s.operation

/-- The writes since the parameters were last emptied, after one more method.  A method that
fails writes nothing. -/
def nextPlacements (m : Method) (s : Session σ) (ws : Placements) : Placements :=
  if empties m s then []
  else if (perform m s).1.isOk then ws ++ (m.places? ws.highest).toList
  else ws

/-- The writes since the parameters were last emptied, after a run. -/
def placementsOf : List Method → Session σ → Placements → Placements
  | [], _, ws => ws
  | m :: ms, s, ws => placementsOf ms (perform m s).2 (nextPlacements m s ws)

variable {m : Method} {s : Session σ} {ws : Placements}

theorem nextPlacements_of_empties (h : empties m s = true) : nextPlacements m s ws = [] :=
  if_pos h

theorem nextPlacements_of_ok {p : Nat} {v : Value} (h : empties m s = false)
    (hok : (perform m s).1.isOk = true) (hplaces : m.places? ws.highest = some (p, v)) :
    nextPlacements m s ws = ws ++ [(p, v)] := by
  rw [nextPlacements, if_neg (by simp [h]), if_pos hok, hplaces]
  rfl

theorem nextPlacements_of_error (h : empties m s = false) (hok : (perform m s).1.isOk = false) :
    nextPlacements m s ws = ws := by
  rw [nextPlacements, if_neg (by simp [h]), if_neg (by simp [hok])]

theorem nextPlacements_of_none (h : empties m s = false) (hplaces : m.places? ws.highest = none) :
    nextPlacements m s ws = ws := by
  rw [nextPlacements, if_neg (by simp [h]), hplaces, Option.toList_none, List.append_nil, ite_self]

/-! ### What a method does to the parameters -/

theorem params_setParam (position : Nat) (v : Value) (hs : s.params = ws.laidOut) :
    (s.setParam position v).params = Placements.laidOut (ws ++ [(max position 1, v)]) := by
  have hposition : max position 1 - 1 = position - 1 := by omega
  rw [Placements.laidOut_concat ws v (Nat.le_max_right ..), hposition, ← hs]
  rfl

theorem params_addParam (v : Value) (hs : s.params = ws.laidOut) :
    (s.addParam v).params = Placements.laidOut (ws ++ [(ws.highest + 1, v)]) := by
  have hend := Params.put_append ws.laidOut [] v
  rw [List.append_nil, Placements.length_laidOut] at hend
  rw [Placements.laidOut_concat ws v (Nat.le_add_left ..), Nat.add_sub_cancel, hend, ← hs]
  rfl

theorem keeps_params_compile (operation : Operation) :
    Keeps (params (σ := σ)) (compile operation) := by
  intro s
  cases h : s.draftText operation with
  | error e => rw [compile_of_error h]
  | ok text =>
      rw [compile_of_text h]
      exact settle_params operation text s

theorem keeps_params_ifOpen {α : Type} (closed : α) (a : Action σ α) :
    Keeps (params (σ := σ)) (ifOpen closed a) :=
  keeps_ifOpen (fun _ _ => rfl) closed a

theorem params_close (s : Session σ) : (close s).2.params = [] :=
  keeps_params_ifOpen () Backend.close s.reset

/-- A call that is prepared starts without parameters; one that is not leaves them. -/
theorem params_call (procedure : String) (s : Session σ) :
    let out := perform (.call procedure) s
    (out.1.isOk = true ∧ out.2.params = []) ∨ (out.1.isOk = false ∧ out.2.params = s.params) := by
  simp only [perform, attempt]
  cases hopen : s.isOpen with
  | false =>
      rw [call_of_closed procedure hopen]
      exact Or.inr ⟨rfl, rfl⟩
  | true =>
      rcases hp : Backend.prepareCall procedure s.backend with ⟨e | handle, b⟩
      · rw [call_of_error hopen hp]
        exact Or.inr ⟨rfl, rfl⟩
      · rw [call_of_ok hopen hp]
        exact Or.inl ⟨rfl, rfl⟩

theorem empties_terminal (t : Terminal) (s : Session σ) :
    empties t.method s = t.takes s.operation := by
  cases t <;> rfl

theorem params_of_empties (h : empties m s = true) : (perform m s).2.params = [] := by
  cases ht : m.terminal? with
  | some t =>
      obtain rfl := Method.eq_of_terminal? ht
      rw [empties_terminal] at h
      exact params_of_takes h
  | none =>
      cases m with
      | call procedure =>
          rcases params_call procedure s with ⟨-, hparams⟩ | ⟨hok, -⟩
          · exact hparams
          · exact absurd (hok.symm.trans h) Bool.false_ne_true
      | close => exact params_close s
      | select | insert | update | delete | sql | reset => rfl
      | _ => first | exact absurd h Bool.false_ne_true | exact absurd ht (Option.some_ne_none _)

/-- A method that neither empties the parameters nor writes one leaves them alone. -/
theorem keeps_params (h : empties m s = false) (hplaces : m.places? ws.highest = none) :
    (perform m s).2.params = s.params := by
  cases ht : m.terminal? with
  | some t =>
      obtain rfl := Method.eq_of_terminal? ht
      rw [empties_terminal] at h
      rw [perform_of_not_takes h]
  | none =>
      cases m with
      | call procedure =>
          rcases params_call procedure s with ⟨hok, -⟩ | ⟨-, hparams⟩
          · exact absurd (h.symm.trans hok) Bool.false_ne_true
          · exact hparams
      | fields fields =>
          show (setFields fields s).params = s.params
          unfold setFields
          split <;> rfl
      | aliases aliases =>
          show (setAliases aliases s).params = s.params
          unfold setAliases
          split <;> rfl
      | condition condition =>
          show (setCondition condition s).params = s.params
          unfold setCondition
          split <;> rfl
      | setDatabaseId | source | order | limit | schema => rfl
      | text kind => exact keeps_params_compile kind.operation s
      | catalog request =>
          have hkept : Keeps (params (σ := σ)) (catalog request) :=
            keeps_onConnection (fun _ _ => rfl) _
          exact hkept s
      | commitTransaction =>
          exact Obeys.bind (chains_keeps _) (keeps_params_ifOpen _ _)
            (fun _ => keeps_params_ifOpen _ _) s
      | isValid | beginTransaction | commit | rollback => exact keeps_params_ifOpen _ _ s
      | param | paramAt | outParam => exact absurd hplaces (Option.some_ne_none _)
      | _ => first | exact absurd h.symm Bool.false_ne_true | exact absurd ht (Option.some_ne_none _)

/-- Declaring an out parameter puts NULL in its place, if the call takes it. -/
theorem params_outParam (position : Nat) (type : OutType) (hs : s.params = ws.laidOut) :
    let out := perform (.outParam position type) s
    (out.1.isOk = true ∧ out.2.params = Placements.laidOut (ws ++ [(max position 1, .null)])) ∨
      (out.1.isOk = false ∧ out.2.params = ws.laidOut) := by
  simp only [perform, attempt, outParam]
  cases hop : s.operation with
  | procedure =>
      have hkept : Keeps (params (σ := σ))
          (onCall "out_param" (Backend.register (max position 1) type.typeCode)) :=
        keeps_onCall (fun _ _ _ => rfl) _ _
      rcases bind_cases (onCall "out_param" (Backend.register (max position 1) type.typeCode))
        (fun _ => Action.modify (setParam position .null)) s with ⟨_, -, h⟩ | ⟨e, -, h⟩
      · rw [h]
        exact Or.inl ⟨rfl, params_setParam position .null ((hkept s).trans hs)⟩
      · rw [h]
        exact Or.inr ⟨rfl, (hkept s).trans hs⟩
  | _ => exact Or.inr ⟨rfl, hs⟩

/-- **One method.**  The list stays the one that the writes so far make up. -/
theorem params_perform (m : Method) (hs : s.params = ws.laidOut) :
    (perform m s).2.params = (nextPlacements m s ws).laidOut := by
  cases hempties : empties m s with
  | true =>
      rw [params_of_empties hempties, nextPlacements_of_empties hempties]
      rfl
  | false =>
      cases hplaces : m.places? ws.highest with
      | none => rw [keeps_params hempties hplaces, nextPlacements_of_none hempties hplaces, hs]
      | some w =>
          obtain ⟨p, v⟩ := w
          cases m with
          | param v =>
              cases hplaces
              rw [nextPlacements_of_ok hempties rfl rfl]
              exact params_addParam v hs
          | paramAt position v =>
              cases hplaces
              rw [nextPlacements_of_ok hempties rfl rfl]
              exact params_setParam position v hs
          | outParam position type =>
              cases hplaces
              rcases params_outParam position type hs with ⟨hok, hparams⟩ | ⟨hok, hparams⟩
              · rw [nextPlacements_of_ok hempties hok rfl, hparams]
              · rw [nextPlacements_of_error hempties hok, hparams]
          | _ => cases hplaces

/-- **A run.**  The list is the one that the writes since it was last emptied make up. -/
theorem params_run (ms : List Method) {s : Session σ} {ws : Placements}
    (hs : s.params = ws.laidOut) : (run ms s).params = (placementsOf ms s ws).laidOut := by
  induction ms generalizing s ws with
  | nil => exact hs
  | cons m ms ih => exact ih (params_perform m hs)

end Session

/-! ### Delivery to a statement -/

section Delivery

variable {Callable : Type} {n m : Nat} {text text' : String} {params : List Value}

/-- A statement is prepared, gets every value in order from position 1 on, is run once and is
closed. -/
def Delivered (n : Nat) (text : String) (params : List Value) (ev : List (Event Callable)) :
    Prop :=
  ∃ run, Runs n run ∧ ev = ⟨.prepare n text, true⟩ :: boundFrom (.bind n) 1 params
    ++ [run] ++ [⟨.closeStatement n, true⟩]

/-- A statement is prepared and gets the values in order up to one that is refused, which ends
it. -/
def Undelivered (n : Nat) (text : String) (params : List Value) (ev : List (Event Callable)) :
    Prop :=
  ∃ done v rest, params = done ++ v :: rest ∧
    ev = ⟨.prepare n text, true⟩ :: boundFrom (.bind n) 1 done
      ++ [⟨.bind n (1 + done.length) v, false⟩]

/-- A statement that is prepared to be run once gets the values, or refuses one of them. -/
theorem delivered_or_refused {α : Type} {r : Except DbError α} {ev : List (Event Callable)}
    (h : StatementLog n text params (fun _ ev => ∃ run, Runs n run ∧ ev = [run]) r ev)
    (hprepared : ⟨.prepare m text', true⟩ ∈ ev) :
    m = n ∧ (Delivered m text' params ev ∨ Undelivered m text' params ev) := by
  have huses : StatementLog n text params (fun _ ev => ∀ e ∈ ev, Uses n e) r ev := by
    refine h.mono fun r ev hev e he => ?_
    obtain ⟨run, hrun, rfl⟩ := hev
    rw [List.mem_singleton.mp he]
    exact Or.inl hrun
  rcases huses.mem_cases _ hprepared with ⟨done, heq⟩ | ⟨position, v, done, heq⟩ | hused | heq
  · cases heq
    refine ⟨rfl, ?_⟩
    cases h with
    | abandoned e done v rest split => exact Or.inr ⟨done, v, rest, split, rfl⟩
    | closed r ev used =>
        obtain ⟨run, hrun, rfl⟩ := used
        exact Or.inl ⟨run, hrun, rfl⟩
    | refused e => cases List.mem_singleton.mp hprepared
  · cases heq
  · exact absurd hused (not_uses_prepare _ _ _ _)
  · cases heq

end Delivery

namespace Session

/-- Each statement that is prepared in between is a fresh one, and gets the parameters unless
it refuses one. -/
def Delivers (s t : Session (Traced σ)) : Prop :=
  ∃ ev, t.backend.log = s.backend.log ++ ev ∧ ∀ n text, ⟨.prepare n text, true⟩ ∈ ev →
    n = s.backend.log.length ∧ (Delivered n text s.params ev ∨ Undelivered n text s.params ev)

theorem delivers_nothing {s t : Session (Traced σ)} (h : t.backend = s.backend) : Delivers s t :=
  ⟨[], by rw [h, List.append_nil], fun _ _ hprepared => absurd hprepared List.not_mem_nil⟩

/-- What is asked of the held call prepares no statement. -/
theorem delivers_call {s t : Session (Traced σ)}
    (h : ∃ ev, t.backend.log = s.backend.log ++ ev ∧ ∀ e ∈ ev, ∃ n, ToCall (σ := σ) n e) :
    Delivers s t := by
  obtain ⟨ev, hlog, hev⟩ := h
  refine ⟨ev, hlog, fun n text hprepared => ?_⟩
  obtain ⟨m, hm⟩ := hev _ hprepared
  cases hm

/-- A statement that is run with the parameters of the session gets them. -/
theorem delivers_run {α : Type} (operation : Operation) (text : String)
    {request : Nat → Request (Backend.Callable σ)} (hruns : ∀ n done, Runs n ⟨request n, done⟩)
    (a : Action (Backend.Statement σ × σ) α) (s : Session (Traced σ)) :
    Delivers s (onConnection (runStatement (σ := Traced σ) text s.params
      (use (fun n _ => request n) a)) (s.settle operation text)).2 := by
  have honce : Logs (fun n _ ev => ∃ run, Runs n run ∧ ev = [run])
      (use (fun n _ => request n) a) := by
    intro p
    obtain ⟨hn, ev, hlog, held, hev⟩ := logs_use (fun n _ => request n) a p
    exact ⟨hn, ev, hlog, _, hruns _ _, hev⟩
  rcases onConnection_log text s.params honce (s.settle operation text) with
    hsame | ⟨r, ev, hlog, hev⟩
  · rw [hsame]
    exact delivers_nothing (settle_backend _ _ s)
  · rw [settle_backend] at hlog hev
    exact ⟨ev, hlog, fun n text' hprepared => delivered_or_refused hev hprepared⟩

theorem delivers_executeChange (operation : Operation) :
    Obeys (Delivers (σ := σ)) (executeChange operation) :=
  obeys_executeChange_of_run delivers_nothing fun s text _ =>
    delivers_run operation text (fun _ _ => Or.inl rfl) _ s

theorem delivers_runSelect : Obeys (Delivers (σ := σ)) runSelect :=
  obeys_runSelect_of_run delivers_nothing fun s text _ =>
    delivers_run .select text (fun _ _ => Or.inr (Or.inl rfl)) _ s

/-- Only a CREATE is executed without the parameters. -/
theorem delivers_execute {s : Session (Traced σ)} (h : s.operation ≠ .create) :
    Delivers s (execute s).2 := by
  have hactive : Delivers s (executeActive s).2 := by
    unfold executeActive
    cases hop : s.operation with
    | none => exact delivers_nothing rfl
    | select => exact delivers_nothing rfl
    | insert => exact delivers_executeChange .insert s
    | update => exact delivers_executeChange .update s
    | delete => exact delivers_executeChange .delete s
    | create => exact absurd hop h
    | procedure => exact delivers_call (log_executeCall s)
  exact hactive

theorem delivers_terminal {t : Terminal} (ht : t.isBatch = false) {s : Session (Traced σ)}
    (h : s.operation ≠ .create) : Delivers s (perform t.method s).2 := by
  have hrefl : ∀ s : Session (Traced σ), Delivers s s := fun _ => delivers_nothing rfl
  have hcall : ∀ allResults, Obeys (Delivers (σ := σ)) (runCall allResults) :=
    fun allResults s => delivers_call (log_runCall allResults s)
  cases t with
  | execute => exact delivers_execute h
  | executeBatch records => cases ht
  | query => exact obeys_query hrefl id delivers_runSelect (hcall false) s
  | queryUnique =>
      have h : Delivers s (queryUnique s).2 := obeys_select? hrefl id _ _ delivers_runSelect s
      exact h
  | queryCount =>
      have h : Delivers s (queryCount s).2 := obeys_select? hrefl id _ _ delivers_runSelect s
      exact h
  | queryProcedure allResults =>
      exact obeys_queryProcedure hrefl id allResults (hcall allResults) s

end Session

/-! ### Statements that bind by position -/

/-- `held` tells what is bound to a statement: nothing at first, and later what binding each
value at its position has made of it. -/
structure BindsByPosition (held : Backend.Statement σ → List Value) : Prop where
  prepared : ∀ {text : String} {b b' : σ} {st : Backend.Statement σ},
    Backend.prepare text b = (.ok st, b') → held st = []
  bound : ∀ {position : Nat} {v : Value} {s s' : Backend.Statement σ × σ},
    Backend.bind position v s = (.ok (), s') →
      Params.bindAt (held s.1) position v = .ok (held s'.1)

theorem QueuesBound.bindsByPosition {held : Backend.Statement σ → List Value}
    {queue : Backend.Statement σ → List (List Value)} (h : QueuesBound held queue) :
    BindsByPosition held where
  prepared hst := (h.prepared hst).1
  bound hb := h.bound hb

/-- A statement that is opened with a list holds that list. -/
theorem BindsByPosition.held_opened {held : Backend.Statement σ → List Value}
    (h : BindsByPosition held) {text : String} {params : List Value} {b b' : σ}
    {st : Backend.Statement σ} (hopened : Session.opened text params b = (.ok st, b')) :
    held st = params := by
  rcases hp : Backend.prepare text b with ⟨e | fresh, c⟩
  · simp only [Session.opened, hp] at hopened
    cases hopened
  · rcases hb : bindAll Backend.bind params (fresh, c) with ⟨e | _, st', c'⟩
    · simp only [Session.opened, hp, hb] at hopened
      cases hopened
    · simp only [Session.opened, hp, hb] at hopened
      cases hopened
      have hheld : held st = params ++ (held fresh).drop params.length :=
        held_bindAll (fun s : Backend.Statement σ × σ => held s.1) h.bound hb
      rwa [h.prepared hp, List.drop_nil, List.append_nil] at hheld

namespace Session

/--
**The parameters are what was written last, and a statement gets them in order.**  After every
run of methods, the list is exactly as long as the highest position that was written since the
parameters were last emptied, and holds at each position what was written there last, or NULL.
An execution, unless it runs a CREATE or a batch, hands it to a statement that it has just
prepared: every value in order from position 1 on, before the statement is run, and no further
than a value that is refused.  A statement that binds by position then holds exactly the list.
-/
theorem params_by_position (product : Product) (b : σ) (ms : List Method) :
    let s := run ms (traced product b)
    let ws := placementsOf ms (traced product b) []
    (s.params.length = ws.highest ∧
        ∀ position, 1 ≤ position → position ≤ ws.highest →
          s.params[position - 1]? = some (ws.last position)) ∧
      (∀ t : Terminal, t.isBatch = false → s.operation ≠ .create →
        Delivers s (perform t.method s).2) ∧
      ∀ held, BindsByPosition (σ := σ) held → ∀ text st b',
        opened text s.params s.backend.inner = (.ok st, b') → held st = s.params := by
  intro s ws
  have hparams : s.params = ws.laidOut := params_run ms rfl
  refine ⟨⟨?_, fun position hfirst hlast => ?_⟩, fun t ht hcreate => ?_,
    fun held hheld text st b' hopened => hheld.held_opened hopened⟩
  · rw [hparams, Placements.length_laidOut]
  · have hposition : position - 1 + 1 = position := Nat.sub_add_cancel hfirst
    rw [hparams, Placements.getElem?_laidOut, if_pos (by omega), hposition]
  · exact delivers_terminal ht hcreate

/-- A DELETE with its third parameter set before its first; the second is never set. -/
theorem unset_position_is_null :
    let ms : List Method := [.sql "delete from book where a = ? and b = ? and c = ?",
      .paramAt 3 (.bool true), .paramAt 0 .null, .paramAt 1 (.bool false)]
    let s := run ms (traced .postgreSql ({} : Postgres.Connection))
    Terminal.execute.isBatch = false ∧ s.operation ≠ .create ∧
      s.params = [.bool false, .null, .bool true] ∧ s.params.length = 3 ∧
      s.params[1]? = some .null ∧ Delivers s (perform Terminal.execute.method s).2 ∧
      ∀ (text : String) (st : Postgres.Statement) b',
        opened text s.params s.backend.inner = (.ok st, b') → st.params = s.params := by
  intro ms s
  obtain ⟨⟨hlength, hposition⟩, hdelivers, hheld⟩ :=
    params_by_position .postgreSql ({} : Postgres.Connection) ms
  have hoperation : s.operation ≠ .create := by decide
  exact ⟨rfl, hoperation, rfl, hlength, hposition 2 (by decide) (by decide),
    hdelivers .execute rfl hoperation, hheld _ Postgres.queuesBound.bindsByPosition⟩

/-- A CREATE is prepared and run, and its parameter is not handed to it. -/
theorem create_is_run_unbound :
    ¬ ∀ ms : List Method,
      let s := run ms (traced .postgreSql ({} : Scripted.Connection))
      Delivers s (perform .execute s).2 := by
  intro h
  obtain ⟨ev, hlog, h⟩ := h [.sql "create table book (id int)", .param .null]
  have hev : [⟨.prepare 0 "create table book (id int)", true⟩, ⟨.execute 0, true⟩,
      ⟨.closeStatement 0, true⟩] = ev := hlog
  subst hev
  rcases h 0 "create table book (id int)" (List.mem_cons_self ..) with
    ⟨-, ⟨run, -, hev⟩ | ⟨done, v, rest, -, hev⟩⟩
  · cases hev
  · cases done <;> cases hev

end Session

end SqlSession
