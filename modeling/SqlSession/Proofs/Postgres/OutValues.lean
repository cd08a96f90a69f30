/-
The values of out parameters.

Positions are registered in any order, and registered anew with other types, before a run and after
it.  A run takes the positions that are registered then, reads their values off the first row of
its result in ascending order of position, and keeps that row to itself.  So the value at a
position is told by the types that the uses have registered (`Call.typeAt?`) and by how many of
them are below it (`rank`), whatever the order was.

Two things make this hold over any uses of a call: what is registered with it ascends and answers
with the latest types (`Call.Registers`), and the values are given up before every run, so a run
that fails or finds no row leaves none.
-/
import Mathlib.Data.List.Induction
import Mathlib.Data.List.Nodup
import SqlSession.Proofs.Postgres.Server
import SqlSession.Proofs.Postgres.Uses

namespace SqlSession.Postgres

/-! ### The first row -/

/-- The first row that a text gives which is prepared next and run once. -/
def Server.firstRow? (s : Server) : Option (List Value) :=
  match s.prepareReply 0 with
  | .refuse => none
  | .prepared _ columns runs =>
    (runs[0]?.getD (RunReply.rows [])).cells.head?.bind fun row =>
      (decodeCells 0 columns row).toOption

theorem head?_of_decodeResult {columns : List Column} {cells : List Cells} {rs : ResultSet}
    (h : decodeResult columns cells = .ok rs) :
    rs.rows.head? = cells.head?.bind fun row => (decodeCells 0 columns row).toOption := by
  cases cells with
  | nil =>
      cases h
      rfl
  | cons row rest =>
      simp only [decodeResult, decodeRows] at h
      cases hrow : decodeCells 0 columns row with
      | error e =>
          rw [hrow] at h
          cases h
      | ok values =>
          rw [hrow] at h
          cases hrest : decodeRows columns rest with
          | error e =>
              rw [hrest] at h
              cases h
          | ok others =>
              rw [hrest] at h
              cases h
              rw [List.head?_cons, List.head?_cons, Option.bind_some, hrow]
              rfl

theorem replyTo_of_runOnce {p p' : Prepared} {params : List Value} {s s' : Server}
    {reply : RunReply} (h : Statement.runOnce p params s = (.ok reply, p', s')) :
    reply = p.replyTo 0 := by
  unfold Statement.runOnce at h
  split at h
  · cases h
  · exact Server.replyTo_of_run h

namespace Call

variable {call : Call} {c : Connection}

/-- A result with columns begins with the first row, and without columns there is nothing in it. -/
theorem firstRow?_of_runFresh {result : CallResult} {c' : Connection}
    (h : runFresh call c = (.ok result, c')) :
    (∃ rs, result = .rows rs ∧ rs.rows.head? = c.server.firstRow?) ∨
      (∃ n, result = .count n) ∧ c.server.firstRow?.getD [] = [] := by
  unfold runFresh Connection.ask at h
  rcases hprepare : c.server.prepare (Sql.numberPlaceholders call.text) with ⟨f | p, s⟩
  · rw [hprepare] at h
    cases h
  · obtain ⟨params, columns, runs, hreply, rfl⟩ := Server.prepareReply_of_prepare hprepare
    simp only [hprepare] at h
    rcases hrun : Statement.runOnce _ call.params s with ⟨f | reply, p', s'⟩
    · rw [hrun] at h
      cases h
    · obtain rfl := replyTo_of_runOnce hrun
      rw [hrun] at h
      unfold Server.firstRow?
      simp only [hreply]
      cases columns with
      | nil =>
          cases h
          refine Or.inr ⟨⟨_, rfl⟩, ?_⟩
          cases (runs[0]?.getD (RunReply.rows [])).cells <;> rfl
      | cons column columns =>
          simp only [List.isEmpty_cons, Bool.false_eq_true, if_false, Prod.mk.injEq] at h
          cases hdecode : decodeResult (column :: columns)
              (Prepared.replyTo 0 ⟨_, params, column :: columns, runs⟩).cells with
          | error e =>
              rw [hdecode] at h
              cases h.1
          | ok rs =>
              rw [hdecode] at h
              cases h.1
              exact Or.inl ⟨rs, rfl, head?_of_decodeResult hdecode⟩

/-! ### Registered positions -/

/-- The positions ascend. -/
abbrev Ascending (registered : List (Nat × TypeCode)) : Prop :=
  registered.Pairwise fun e e' => e.1 < e'.1

variable {registered : List (Nat × TypeCode)} {position : Nat} {type : TypeCode}

theorem lookup_cons_eq {α : Type} (i j : Nat) (a : α) (rest : List (Nat × α)) :
    ((j, a) :: rest).lookup i = if i = j then some a else rest.lookup i := by
  by_cases h : i = j
  · simp [h]
  · have hne : (i == j) = false := by simpa using h
    rw [List.lookup_cons, hne, if_neg h]

theorem lookup_insertPosition (position : Nat) (type : TypeCode)
    (registered : List (Nat × TypeCode)) (i : Nat) :
    (insertPosition position type registered).lookup i =
      if i = position then some type else registered.lookup i := by
  induction registered with
  | nil => simp only [insertPosition, lookup_cons_eq]
  | cons entry rest ih =>
      obtain ⟨j, t⟩ := entry
      by_cases hbelow : position < j
      · simp only [insertPosition, hbelow, if_true, lookup_cons_eq]
      · by_cases hsame : position = j
        · subst hsame
          by_cases h : i = position <;> simp [insertPosition, lookup_cons_eq, h]
        · simp only [insertPosition, hbelow, hsame, if_false, lookup_cons_eq, ih]
          by_cases h : i = j
          · simp [h, Ne.symm hsame]
          · simp [h]

theorem mem_insertPosition {e : Nat × TypeCode} (h : e ∈ insertPosition position type registered) :
    e = (position, type) ∨ e ∈ registered := by
  induction registered with
  | nil => simpa [insertPosition] using h
  | cons entry rest ih =>
      obtain ⟨j, t⟩ := entry
      by_cases hbelow : position < j
      · simpa [insertPosition, hbelow] using h
      · by_cases hsame : position = j
        · simp only [insertPosition, hbelow, if_false, if_pos hsame, List.mem_cons] at h
          exact h.imp_right (List.mem_cons_of_mem _)
        · simp only [insertPosition, hbelow, hsame, if_false, List.mem_cons] at h ⊢
          rcases h with rfl | h
          · exact Or.inr (Or.inl rfl)
          · exact (ih h).imp_right Or.inr

theorem ascending_insertPosition (h : Ascending registered) :
    Ascending (insertPosition position type registered) := by
  induction registered with
  | nil => exact List.pairwise_singleton _ _
  | cons entry rest ih =>
      obtain ⟨j, t⟩ := entry
      obtain ⟨hhead, hrest⟩ := List.pairwise_cons.mp h
      by_cases hbelow : position < j
      · have hall : ∀ e ∈ (j, t) :: rest, position < e.1 := by
          intro e he
          rcases List.mem_cons.mp he with rfl | he
          · exact hbelow
          · exact Nat.lt_trans hbelow (hhead e he)
        simp only [insertPosition, hbelow, if_true]
        exact List.pairwise_cons.mpr ⟨hall, h⟩
      · by_cases hsame : position = j
        · subst hsame
          simp only [insertPosition, Nat.lt_irrefl, if_true, if_false]
          exact List.pairwise_cons.mpr ⟨hhead, hrest⟩
        · have hall : ∀ e ∈ insertPosition position type rest, j < e.1 := by
            intro e he
            rcases mem_insertPosition he with rfl | he
            · show j < position
              omega
            · exact hhead e he
          simp only [insertPosition, hbelow, hsame, if_false]
          exact List.pairwise_cons.mpr ⟨hall, ih hrest⟩

/-- The value at a position is the one with as many before it as there are positions below. -/
theorem lookup_typedOutValues (h : Ascending registered) (row : List Value) (i : Nat) :
    (typedOutValues registered row).lookup i =
      (registered.lookup i).bind fun type =>
        row[registered.countP (·.1 < i)]?.map (·.convertTo type) := by
  induction registered generalizing row with
  | nil => simp [typedOutValues]
  | cons entry rest ih =>
      obtain ⟨j, t⟩ := entry
      obtain ⟨hhead, hrest⟩ := List.pairwise_cons.mp h
      cases row with
      | nil => cases hi : ((j, t) :: rest).lookup i <;> simp [typedOutValues]
      | cons v row =>
          have ih := ih hrest row
          simp only [typedOutValues, List.zipWith_cons_cons] at ih ⊢
          by_cases hi : i = j
          · -- it heads the list, and nothing behind it is below
            subst hi
            have hnone : rest.countP (·.1 < i) = 0 := by
              refine List.countP_eq_zero.mpr fun e he => ?_
              have := hhead e he
              simp only [decide_eq_true_eq]
              omega
            simp [hnone]
          · cases hlookup : rest.lookup i with
            | none => simp [lookup_cons_eq, hi, ih, hlookup]
            | some type =>
                -- it is further on, so the head is one of those below
                obtain ⟨e, he, hie⟩ := List.lookup_isSome_iff.mp (by rw [hlookup]; rfl)
                have hji : j < i := by
                  rw [beq_iff_eq.mp hie]
                  exact hhead e he
                simp [lookup_cons_eq, hi, ih, hlookup, hji]

/-! ### What is registered -/

/-- The type that the use registers at a position. -/
def Use.typeAt? (position : Nat) : Use → Option TypeCode
  | .register i type => if i = position ∧ i ≠ 0 then some type else none
  | _ => none

/-- The type that is registered at a position after the uses: the latest one. -/
def typeAt? (uses : List (Connection × Use)) (position : Nat) : Option TypeCode :=
  uses.reverse.findSome? fun u => u.2.typeAt? position

/-- How many positions below one have a type. -/
def rank (types : Nat → Option TypeCode) (position : Nat) : Nat :=
  (List.range position).countP fun i => (types i).isSome

variable {uses : List (Connection × Use)} {u : Use} {t : Call × Connection}

theorem typeAt?_append (uses uses' : List (Connection × Use)) (i : Nat) :
    typeAt? (uses ++ uses') i = (typeAt? uses' i).or (typeAt? uses i) := by
  simp only [typeAt?, List.reverse_append, List.findSome?_append]

theorem typeAt?_singleton (c : Connection) (u : Use) (i : Nat) :
    typeAt? [(c, u)] i = u.typeAt? i := by
  simp [typeAt?]

/-- What is registered is what the uses have registered, in ascending order. -/
structure Registers (uses : List (Connection × Use)) (registered : List (Nat × TypeCode)) :
    Prop where
  ascending : Ascending registered
  lookup : ∀ i, registered.lookup i = typeAt? uses i

/-- A use that registers nothing. -/
theorem Registers.concat (h : Registers uses registered) (hnone : ∀ i, u.typeAt? i = none) :
    Registers (uses ++ [(c, u)]) registered := by
  refine ⟨h.ascending, fun i => ?_⟩
  rw [typeAt?_append, typeAt?_singleton, hnone i, Option.none_or, h.lookup]

theorem Registers.register (h : Registers uses registered) (hposition : position ≠ 0) :
    Registers (uses ++ [(c, .register position type)])
      (insertPosition position type registered) := by
  refine ⟨ascending_insertPosition h.ascending, fun i => ?_⟩
  rw [lookup_insertPosition, typeAt?_append, typeAt?_singleton, h.lookup, Use.typeAt?]
  by_cases hi : i = position
  · simp [hi, hposition]
  · simp [hi, Ne.symm hi]

theorem Registers.use (h : Registers uses t.1.registered) :
    Registers (uses ++ [(t.2, u)]) (Call.use u t).1.registered := by
  cases u with
  | register position type =>
      by_cases hposition : position = 0
      · have hkept : (Call.use (.register position type) t).1 = t.1 := by
          simp [Call.use, Call.register, hposition]
        rw [hkept]
        exact h.concat fun i => by simp [Use.typeAt?, hposition]
      · simp only [Call.use, Call.register, hposition, if_false]
        exact h.register hposition
  | bind position v =>
      simp only [Call.use, Call.bind]
      split <;> exact h.concat fun _ => rfl
  | execute =>
      have hkept : (Call.use .execute t).1.registered = t.1.registered :=
        (congrArg registered (bare_execute t) :)
      rw [hkept]
      exact h.concat fun _ => rfl
  | query =>
      have hkept : (Call.use .query t).1.registered = t.1.registered :=
        (congrArg registered (bare_query t) :)
      rw [hkept]
      exact h.concat fun _ => rfl
  | resultSet | moreResults | close => exact h.concat fun _ => rfl

theorem registers_useAll (procedure : String) (uses : List (Connection × Use)) :
    Registers uses (useAll use uses (ofProcedure procedure)).registered := by
  induction uses using List.reverseRecOn with
  | nil => exact ⟨List.Pairwise.nil, fun _ => rfl⟩
  | append_singleton uses u ih =>
      rw [useAll_append]
      exact ih.use (t := (_, u.1))

/-- The positions below one are as many as have been registered below it. -/
theorem Registers.countP_lt (h : Registers uses registered) (position : Nat) :
    registered.countP (·.1 < position) = rank (typeAt? uses) position := by
  -- Both sides count a list without repetitions, and the two lists have the same members.
  have hkeys : (registered.map Prod.fst).Nodup :=
    List.pairwise_map.mpr (h.ascending.imp Nat.ne_of_lt)
  have hleft : ((registered.map Prod.fst).filter (· < position)).Nodup := hkeys.filter _
  have hright : ((List.range position).filter fun i => (typeAt? uses i).isSome).Nodup :=
    List.nodup_range.filter _
  have hsame : ((registered.map Prod.fst).filter (· < position)).Perm
      ((List.range position).filter fun i => (typeAt? uses i).isSome) := by
    refine (List.perm_ext_iff_of_nodup hleft hright).mpr fun i => ?_
    have hmem : i ∈ registered.map Prod.fst ↔ (typeAt? uses i).isSome = true := by
      rw [← h.lookup, List.lookup_isSome_iff, List.mem_map]
      exact exists_congr fun e => and_congr_right fun _ => by rw [beq_iff_eq, eq_comm]
    rw [List.mem_filter, List.mem_filter, List.mem_range, hmem, decide_eq_true_eq, and_comm]
  calc registered.countP (·.1 < position)
      = (registered.map Prod.fst).countP (· < position) := by
        rw [List.countP_map]
        rfl
    _ = ((registered.map Prod.fst).filter (· < position)).length := List.countP_eq_length_filter
    _ = ((List.range position).filter fun i => (typeAt? uses i).isSome).length := hsame.length_eq
    _ = rank (typeAt? uses) position := List.countP_eq_length_filter.symm

/-! ### Runs -/

/-- The use runs the call. -/
def Use.runs : Use → Bool
  | .execute | .query => true
  | _ => false

/-- Where positions are registered, the first row is read and none is a result. -/
theorem withResult_rows (h : call.registered ≠ []) (rs : ResultSet) :
    call.withResult (.rows rs) =
      { call with
        results := {}
        outValues := (rs.rows.head?.map (typedOutValues call.registered)).getD call.outValues } := by
  obtain ⟨labels, rows⟩ := rs
  simp only [withResult, List.isEmpty_iff, h, if_false]
  cases rows <;> rfl

/-- A run that succeeds reads the first row, and one that fails leaves nothing. -/
theorem outValues_execute (h : call.isOpen = true) (c : Connection) :
    (execute (call, c)).2.1.outValues =
      if (execute (call, c)).1.isOk then
        typedOutValues call.registered (c.server.firstRow?.getD [])
      else [] := by
  have hnone : typedOutValues call.registered [] = [] := List.zipWith_nil_right
  rcases hrun : runFresh call.bare c with ⟨e | result, c'⟩
  · rw [execute_of_failed h hrun]
    rfl
  · rw [execute_of_run h hrun]
    show (call.bare.withResult result).outValues = typedOutValues call.registered _
    rcases firstRow?_of_runFresh hrun with ⟨rs, rfl, hrow⟩ | ⟨⟨n, rfl⟩, hrow⟩
    · by_cases hempty : call.registered = []
      · simp [withResult, bare, hempty, typedOutValues]
      · have hbare : call.bare.registered ≠ [] := hempty
        rw [withResult_rows hbare, ← hrow]
        cases rs.rows.head? with
        | none => exact hnone.symm
        | some row => rfl
    · rw [hrow, hnone]
      rfl

theorem outValues_run (h : u.runs = true) (t : Call × Connection) :
    (use u t).1.outValues = (execute t).2.1.outValues := by
  cases u with
  | execute => rfl
  | query => exact query_eq_execute (fun _ _ => rfl) t
  | _ => cases h

/-- There is no result set, and none is to come. -/
structure Rowless (results : CallResults) : Prop where
  current : results.hasRows = false
  pending : results.pending = []

theorem Rowless.take {results : CallResults} (h : Rowless results) :
    results.take = (none, results) := by
  obtain ⟨current, pending⟩ := results
  rcases current with _ | _ | _
  · rfl
  · cases h.current
  · rfl

theorem Rowless.next {results : CallResults} (h : Rowless results) : results.next = {} := by
  rw [CallResults.next, h.pending]
  rfl

theorem rowless_empty : Rowless {} :=
  ⟨rfl, rfl⟩

theorem rowless_execute (h : call.isOpen = true) (hregistered : call.registered ≠ [])
    (c : Connection) : Rowless (execute (call, c)).2.1.results := by
  rcases hrun : runFresh call.bare c with ⟨e | result, c'⟩
  · rw [execute_of_failed h hrun]
    exact rowless_empty
  · rw [execute_of_run h hrun]
    show Rowless (call.bare.withResult result).results
    cases result with
    | count n => exact ⟨rfl, rfl⟩
    | rows rs =>
        have hbare : call.bare.registered ≠ [] := hregistered
        rw [withResult_rows hbare]
        exact rowless_empty

theorem found_of_execute {found : Bool} (h : (execute t).1 = .ok found) :
    found = (execute t).2.1.results.hasRows := by
  obtain ⟨call, c⟩ := t
  by_cases hopen : call.isOpen = true
  · rcases hrun : runFresh call.bare c with ⟨e | result, c'⟩
    · rw [execute_of_failed hopen hrun] at h
      cases h
    · rw [execute_of_run hopen hrun] at h ⊢
      cases h
      rfl
  · rw [execute_of_closed (by simpa using hopen)] at h
    cases h

/-- Where a run gives no result, asking for one is running and no more. -/
theorem query_of_rowless (h : Rowless (execute t).2.1.results) :
    query t = ((execute t).1.map fun _ => .empty, (execute t).2) := by
  rcases hrun : execute t with ⟨e | found, t'⟩
  · exact Action.bind_of_error hrun
  · have hfound := found_of_execute (by rw [hrun])
    rw [h.current] at hfound
    subst hfound
    exact Action.bind_of_ok hrun

theorem rowless_run (h : u.runs = true) (ht : Rowless (execute t).2.1.results) :
    Rowless (use u t).1.results := by
  cases u with
  | execute => exact ht
  | query =>
      rw [use, query_of_rowless ht]
      exact ht
  | _ => cases h

/-! ### What the other uses leave alone -/

theorem isOpen_use (h : u ≠ .close) (t : Call × Connection) :
    (use u t).1.isOpen = t.1.isOpen := by
  cases u with
  | close => exact absurd rfl h
  | execute => exact (congrArg isOpen (bare_execute t) :)
  | query => exact (congrArg isOpen (bare_query t) :)
  | bind position v =>
      simp only [use, bind]
      split <;> rfl
  | register position type =>
      simp only [use, register]
      split <;> rfl
  | resultSet | moreResults => rfl

theorem isOpen_useAll_of_unclosed (huses : ∀ u ∈ uses, u.2 ≠ .close) (call : Call) :
    (useAll use uses call).isOpen = call.isOpen :=
  useAll_keeps (fun u hu => isOpen_use (huses u hu)) call

theorem outValues_use (h : u.runs = false) (t : Call × Connection) :
    (use u t).1.outValues = t.1.outValues := by
  cases u with
  | execute | query => cases h
  | bind position v =>
      simp only [use, bind]
      split <;> rfl
  | register position type =>
      simp only [use, register]
      split <;> rfl
  | resultSet | moreResults | close => rfl

theorem outValues_useAll (huses : ∀ u ∈ uses, u.2.runs = false) (call : Call) :
    (useAll use uses call).outValues = call.outValues :=
  useAll_keeps (fun u hu => outValues_use (huses u hu)) call

theorem rowless_use (h : u.runs = false) (ht : Rowless t.1.results) :
    Rowless (use u t).1.results := by
  cases u with
  | execute | query => cases h
  | bind position v =>
      simp only [use, bind]
      split <;> exact ht
  | register position type =>
      simp only [use, register]
      split <;> exact ht
  | resultSet =>
      show Rowless t.1.results.take.2
      rw [ht.take]
      exact ht
  | moreResults =>
      show Rowless t.1.results.next
      rw [ht.next]
      exact rowless_empty
  | close => exact rowless_empty

theorem rowless_useAll (huses : ∀ u ∈ uses, u.2.runs = false) (h : Rowless call.results) :
    Rowless (useAll use uses call).results := by
  refine useAll_induction (P := fun left : Call => Rowless left.results) ?_ h
  intro u hu left hleft
  exact rowless_use (t := (left, u.1)) (huses u hu) hleft

/--
**Out values are paired with the first row by rank.**  Take any uses of a call up to a run, by
either of the uses that run it, and any uses after that up to the next run.  If the run succeeds
and there is a first row, then the value at a position that was registered before the run is the
one in the row with as many before it as there were positions below, in the type that was
registered last before the run; there is none if the row is too short.  If the run fails or there
is no first row, no position has a value, whatever earlier runs have found.  And where a position
was registered before the run, neither the run nor what comes after it delivers a result set.
-/
theorem out_values_by_rank (procedure : String) (before after : List (Connection × Use))
    (c : Connection) (run : Use) (hbefore : ∀ u ∈ before, u.2 ≠ .close) (hrun : run.runs = true)
    (hafter : ∀ u ∈ after, u.2.runs = false) :
    let call := useAll use before (ofProcedure procedure)
    let uses := before ++ (c, run) :: after
    let left := useAll use uses (ofProcedure procedure)
    let out := execute (call, c)
    (∀ found row, out.1 = .ok found → c.server.firstRow? = some row →
        ∀ i type, typeAt? before i = some type →
          left.outValue i = .ok (row[rank (typeAt? before) i]?.map (·.convertTo type))) ∧
      (out.1.isOk = false ∨ c.server.firstRow? = none →
        ∀ i, (typeAt? uses i).isSome → left.outValue i = .ok none) ∧
      ((∃ i, (typeAt? before i).isSome) →
        out.1 ≠ .ok true ∧ query (call, c) = (out.1.map fun _ => .empty, out.2) ∧
          ∀ c', (resultSet (left, c')).1 = .ok none ∧ (moreResults (left, c')).1 = .ok false) := by
  intro call uses left out
  have hopen : call.isOpen = true := isOpen_useAll_of_unclosed hbefore _
  have hcall : Registers before call.registered := registers_useAll procedure before
  have hleft : Registers uses left.registered := registers_useAll procedure uses
  have hran : left = useAll use after (use run (call, c)).1 := useAll_append ..
  have hvalues : left.outValues =
      if out.1.isOk then typedOutValues call.registered (c.server.firstRow?.getD []) else [] := by
    rw [hran, outValues_useAll hafter, outValues_run hrun, outValues_execute hopen]
  refine ⟨?_, ?_, ?_⟩
  · intro found row hfound hrow i type htype
    have hi : (left.registered.lookup i).isSome = true := by
      rw [hleft.lookup, typeAt?_append, htype, Option.or_some]
      rfl
    have hok : out.1.isOk = true := by
      rw [hfound]
      rfl
    rw [outValue, if_pos hi, hvalues, if_pos hok, hrow, Option.getD_some,
      lookup_typedOutValues hcall.ascending, hcall.lookup, htype, hcall.countP_lt]
    rfl
  · intro hnone i hi
    have hempty : left.outValues = [] := by
      rcases hnone with hfailed | hrow
      · rw [hvalues, hfailed, if_neg Bool.false_ne_true]
      · rw [hvalues, hrow]
        exact ite_eq_right_iff.mpr fun _ => List.zipWith_nil_right
    rw [outValue, hleft.lookup, if_pos hi, hempty]
    rfl
  · rintro ⟨i, hi⟩
    have hregistered : call.registered ≠ [] := by
      intro hempty
      rw [← hcall.lookup, hempty] at hi
      cases hi
    have hrowless := rowless_execute hopen hregistered c
    have hend : Rowless left.results := by
      rw [hran]
      exact rowless_useAll hafter (rowless_run hrun hrowless)
    refine ⟨fun hfound => ?_, query_of_rowless hrowless, fun c' => ⟨?_, ?_⟩⟩
    · have hrows := found_of_execute hfound
      rw [hrowless.current] at hrows
      cases hrows
    · rw [resultSet, hend.take]
    · rw [moreResults, hend.next]
      rfl

/-- The higher of two positions is registered first, and with another type between two runs. -/
theorem later_type_of_higher_position :
    let columns : List Column := [⟨"label", .int4⟩, ⟨"total", .text⟩]
    let row : Cells := [some [0, 0, 0, 7], some (Text.utf8Bytes "42")]
    let c : Connection := { server := { prepares := [.prepared [] columns [.rows [row]]] } }
    let before : List (Connection × Use) :=
      [(c, .register 5 .varchar), (c, .execute), (c, .register 2 .varchar),
        (c, .register 5 .bigInt)]
    let after : List (Connection × Use) := [(c, .register 2 .integer), (c, .moreResults)]
    let left := useAll use (before ++ (c, .execute) :: after) (ofProcedure "stock")
    left.outValue 2 = .ok (some (.text "7")) ∧ left.outValue 5 = .ok (some (.int 42)) ∧
      (resultSet (left, c)).1 = .ok none := by
  intro columns row c before after left
  have hbefore : ∀ u ∈ before, u.2 ≠ .close := by simp [before]
  have hafter : ∀ u ∈ after, u.2.runs = false := by simp [after, Use.runs]
  obtain ⟨hpaired, -, hkept⟩ :=
    out_values_by_rank "stock" before after c .execute hbefore rfl hafter
  have hfound : (execute (useAll use before (ofProcedure "stock"), c)).1 = .ok false := by
    decide +kernel
  have hrow : c.server.firstRow? = some [.int 7, .text "42"] := by decide +kernel
  have hlabel := hpaired _ _ hfound hrow 2 .varchar rfl
  have htotal := hpaired _ _ hfound hrow 5 .bigInt rfl
  exact ⟨hlabel.trans (by decide +kernel), htotal.trans (by decide +kernel),
    ((hkept ⟨2, rfl⟩).2.2 c).1⟩

end Call

end SqlSession.Postgres
