/-
What the methods do to a draft.

A draft has a text once that is settled, and it has fields and aliases, which an execution
looks at again however old the text is.  Three things happen to a draft: it is begun anew,
its fields or aliases are set, and its text is put together.  `stays_perform` says that
nothing else does: a method that neither begins a draft anew nor sets fields or aliases
leaves its shape alone, and its text too unless there is none yet, when the method may
settle the draft on the text that its parts compile to.
-/
import SqlSession.Proofs.Execution
import SqlSession.Proofs.Terminal

namespace SqlSession

open SqlSession.Action

/-- The parts of a statement that its executions look at when the text is already there. -/
structure Shape where
  fields : List String
  aliases : Option (List String)
  deriving DecidableEq

/-- The text is what a statement of the kind and shape compiles to, with some other parts. -/
def Compiles (d : Dialect) (kind : Kind) (shape : Shape) (text : String) : Prop :=
  match kind with
  | .select => ∃ source condition order limit schema,
      Sql.compileSelect d { shape with source, condition, order, limit, schema } = .ok text
  | .insert => ∃ schema table, Sql.compileInsert d schema table shape.fields = .ok text
  | .update => ∃ schema table condition,
      Sql.compileUpdate d schema table shape.fields condition = .ok text
  | .delete => ∃ schema table condition, Sql.compileDelete d schema table condition = .ok text

/-- The method begins the draft of the kind anew, or drops it. -/
def Method.restarts (kind : Kind) : Method → Bool
  | .select _ => kind == .select
  | .insert _ => kind == .insert
  | .update _ => kind == .update
  | .delete _ => kind == .delete
  | .sql raw => Sql.classify raw == kind.operation
  | .reset | .close => true
  | _ => false

/-- The method sets fields or aliases. -/
def Method.reshapes : Method → Bool
  | .fields _ | .aliases _ => true
  | _ => false

namespace Session

variable {σ : Type} [Backend σ] {α : Type} {kind : Kind}

/-- The text that the draft of the kind is settled on. -/
def settledText (kind : Kind) (s : Session σ) : Option String :=
  match kind with
  | .select => s.selecting.text
  | .insert => s.inserting.text
  | .update => s.updating.text
  | .delete => s.deleting.text

/-- The shape of the draft of the kind. -/
def shape (kind : Kind) (s : Session σ) : Shape :=
  match kind with
  | .select => ⟨s.selecting.parts.fields, s.selecting.parts.aliases⟩
  | .insert => ⟨s.inserting.parts.fields, none⟩
  | .update => ⟨s.updating.parts.fields, none⟩
  | .delete => ⟨[], none⟩

/-- The text and the shape of the draft of the kind, and the product it is written for. -/
def draftView (kind : Kind) (s : Session σ) : Product × Option String × Shape :=
  (s.product, s.settledText kind, s.shape kind)

/-- What an unsettled draft compiles to is compiled from its shape. -/
theorem compiles_of_unsettled {s : Session σ} {text : String} (hnone : s.settledText kind = none)
    (h : s.draftText kind.operation = .ok text) : Compiles s.dialect kind (s.shape kind) text := by
  cases kind with
  | select =>
      have hnone : s.selecting.text = none := hnone
      simp only [Kind.operation, draftText, Draft.compiled, hnone] at h
      exact ⟨_, _, _, _, _, h⟩
  | insert =>
      have hnone : s.inserting.text = none := hnone
      simp only [Kind.operation, draftText, Draft.compiled, hnone] at h
      exact ⟨_, _, h⟩
  | update =>
      have hnone : s.updating.text = none := hnone
      simp only [Kind.operation, draftText, Draft.compiled, hnone] at h
      exact ⟨_, _, _, h⟩
  | delete =>
      have hnone : s.deleting.text = none := hnone
      simp only [Kind.operation, draftText, Draft.compiled, hnone] at h
      exact ⟨_, _, _, h⟩

/-- A settled draft stands for its text. -/
theorem draftText_of_settled {s : Session σ} {text : String}
    (h : s.settledText kind = some text) : s.draftText kind.operation = .ok text := by
  cases kind <;> simp only [Kind.operation, draftText, Draft.compiled] <;>
    simp only [settledText] at h <;> rw [h]

/-! ### Methods that leave the shape alone -/

/-- The draft keeps its shape; its text stays as it is or is settled. -/
structure Stays (kind : Kind) (s t : Session σ) : Prop where
  product : t.product = s.product
  shape : t.shape kind = s.shape kind
  text : t.settledText kind = s.settledText kind ∨
    ∃ text, s.draftText kind.operation = .ok text ∧ t.settledText kind = some text

theorem stays_of_same {s t : Session σ} (h : t.draftView kind = s.draftView kind) :
    Stays kind s t := by
  obtain ⟨hproduct, h⟩ := Prod.mk.inj h
  obtain ⟨htext, hshape⟩ := Prod.mk.inj h
  exact ⟨hproduct, hshape, Or.inl htext⟩

theorem stays_settle {operation : Operation} {s : Session σ} {text : String}
    (h : s.draftText operation = .ok text) : Stays kind s (s.settle operation text) := by
  by_cases hop : operation = kind.operation
  · subst hop
    exact
      { product := by cases kind <;> rfl
        shape := by cases kind <;> rfl
        text := Or.inr ⟨text, h, by cases kind <;> rfl⟩ }
  · refine stays_of_same ?_
    cases kind <;> cases operation <;> first | rfl | exact absurd rfl hop

theorem view_onConnection (a : Action σ α) : Keeps (draftView kind) (onConnection a) :=
  keeps_onConnection (fun s b => by cases kind <;> rfl) a

theorem view_ifOpen (closed : α) (a : Action σ α) : Keeps (draftView kind) (ifOpen closed a) :=
  keeps_ifOpen (fun s b => by cases kind <;> rfl) closed a

theorem view_onCall (action : String) (a : Action (Backend.Callable σ × σ) α) :
    Keeps (draftView kind) (onCall action a) :=
  keeps_onCall (fun s b call => by cases kind <;> rfl) action a

/-- What comes after a draft is settled leaves the drafts alone. -/
theorem stays_after_settle {operation : Operation} {s t : Session σ} {text : String}
    (h : s.draftText operation = .ok text)
    (ht : t.draftView kind = (s.settle operation text).draftView kind) : Stays kind s t := by
  obtain ⟨hproduct, ht⟩ := Prod.mk.inj ht
  obtain ⟨htext, hshape⟩ := Prod.mk.inj ht
  have hs : Stays kind s _ := stays_settle h
  exact ⟨hproduct.trans hs.product, hshape.trans hs.shape, by rw [htext]; exact hs.text⟩

theorem stays_executeChange (operation : Operation) (s : Session σ) :
    Stays kind s (executeChange operation s).2 := by
  cases h : s.draftText operation with
  | error e => rw [executeChange_of_error h]; exact stays_of_same rfl
  | ok text =>
      rw [executeChange_of_text h]
      exact stays_after_settle h (view_onConnection _ _)

theorem stays_executeCreate (s : Session σ) : Stays kind s (executeCreate s).2 := by
  cases h : s.draftText .create with
  | error e => rw [executeCreate_of_error h]; exact stays_of_same rfl
  | ok text =>
      rw [executeCreate_of_text h, bind_pure_snd]
      exact stays_after_settle h (view_onConnection _ _)

theorem stays_insertBatch (records : List Record) (s : Session σ) :
    Stays kind s (insertBatch records s).2 := by
  cases h : s.draftText .insert with
  | error e => rw [insertBatch_of_error records h]; exact stays_of_same rfl
  | ok text =>
      rw [insertBatch_of_text records h]
      exact stays_after_settle h (view_onConnection _ _)

theorem stays_runSelect (s : Session σ) : Stays kind s (runSelect s).2 := by
  cases h : s.draftText .select with
  | error e => rw [runSelect_of_error h]; exact stays_of_same rfl
  | ok text =>
      cases hl : s.selectLabels with
      | error e => rw [runSelect_of_unread h hl]; exact stays_settle h
      | ok labels =>
          rw [runSelect_of_text h hl, bind_pure_snd]
          exact stays_after_settle h (view_onConnection _ _)

theorem stays_executeCall (s : Session σ) : Stays kind s (executeCall s).2 := by
  rw [executeCall_eq]
  exact stays_of_same (view_onCall _ _ s)

theorem stays_runCall (allResults : Bool) (s : Session σ) :
    Stays kind s (runCall allResults s).2 := by
  cases hl : s.callLabels with
  | error e => rw [runCall_of_unread allResults hl]; exact stays_of_same rfl
  | ok labels =>
      rw [runCall_of_labels allResults hl]
      exact stays_of_same (view_onCall _ _ s)

theorem stays_terminal (t : Terminal) (s : Session σ) :
    Stays kind s (perform t.method s).2 := by
  refine obeys_terminal (fun s => stays_of_same rfl) ?_ stays_executeChange stays_executeCreate
    stays_executeCall stays_insertBatch stays_runSelect stays_runCall t s
  intro s t h
  cases kind <;> exact ⟨h.product, h.shape, h.text⟩

theorem view_releaseCall (s : Session σ) : (releaseCall s).draftView kind = s.draftView kind := by
  unfold releaseCall
  split <;> cases kind <;> rfl

theorem view_call (procedure : String) : Keeps (draftView kind) (call (σ := σ) procedure) := by
  intro s
  cases hopen : s.isOpen with
  | false => rw [call_of_closed procedure hopen]
  | true =>
      rcases hp : Backend.prepareCall procedure s.backend with ⟨e | handle, b⟩
      · rw [call_of_error hopen hp]
        cases kind <;> rfl
      · rw [call_of_ok hopen hp]
        exact view_releaseCall { s with backend := b }

theorem view_sql {text : String} (h : Sql.classify text ≠ kind.operation) (s : Session σ) :
    (sql text s).draftView kind = s.draftView kind := by
  unfold sql
  cases hop : Sql.classify text <;> cases kind <;> first | rfl | exact absurd hop h

theorem view_outParam (position : Nat) (type : OutType) :
    Keeps (draftView kind) (outParam (σ := σ) position type) := by
  intro s
  unfold outParam
  split
  · refine (Keeps.bind_eq (fun _ s => ?_) s).trans (view_onCall _ _ s)
    cases kind <;> rfl
  · rfl

/-- A method that neither begins the draft anew nor sets fields or aliases keeps its shape,
and its text if it has one. -/
theorem stays_perform {m : Method} (hstart : m.restarts kind = false)
    (hshape : m.reshapes = false) (s : Session σ) : Stays kind s (perform m s).2 := by
  cases m with
  | select fields => exact stays_of_same (by cases kind <;> first | rfl | cases hstart)
  | insert table => exact stays_of_same (by cases kind <;> first | rfl | cases hstart)
  | update table => exact stays_of_same (by cases kind <;> first | rfl | cases hstart)
  | delete table => exact stays_of_same (by cases kind <;> first | rfl | cases hstart)
  | sql text => exact stays_of_same (view_sql (beq_eq_false_iff_ne.mp hstart) s)
  | reset => cases hstart
  | close => cases hstart
  | fields fields => cases hshape
  | aliases aliases => cases hshape
  | call procedure => exact stays_of_same (view_call procedure s)
  | text k =>
      show Stays kind s (compile k.operation s).2
      cases h : s.draftText k.operation with
      | error e => rw [compile_of_error h]; exact stays_of_same rfl
      | ok text => rw [compile_of_text h]; exact stays_settle h
  | execute => exact stays_terminal .execute s
  | executeBatch records => exact stays_terminal (.executeBatch records) s
  | query => exact stays_terminal .query s
  | queryUnique => exact stays_terminal .queryUnique s
  | queryCount => exact stays_terminal .queryCount s
  | queryProcedure allResults => exact stays_terminal (.queryProcedure allResults) s
  | outParam position type => exact stays_of_same (view_outParam position type s)
  | isValid => exact stays_of_same (view_ifOpen _ _ s)
  | catalog request => exact stays_of_same (view_onConnection _ s)
  | beginTransaction => exact stays_of_same (view_ifOpen _ _ s)
  | commit => exact stays_of_same (view_ifOpen _ _ s)
  | rollback => exact stays_of_same (view_ifOpen _ _ s)
  | commitTransaction =>
      refine stays_of_same ((Keeps.bind_eq (fun _ => ?_) s).trans (view_ifOpen _ _ s))
      exact view_ifOpen _ _
  | condition condition =>
      refine stays_of_same ?_
      show (setCondition condition s).draftView kind = _
      unfold setCondition
      split <;> cases kind <;> rfl
  | _ => exact stays_of_same (by cases kind <;> rfl)

/-- Setting fields or aliases leaves a settled text as it is. -/
theorem settledText_of_reshapes {m : Method} (h : m.reshapes = true) (s : Session σ) :
    (perform m s).2.settledText kind = s.settledText kind := by
  cases m with
  | fields fields =>
      show (setFields fields s).settledText kind = _
      unfold setFields
      split <;> cases kind <;> rfl
  | aliases aliases =>
      show (setAliases aliases s).settledText kind = _
      unfold setAliases
      split <;> cases kind <;> rfl
  | _ => cases h

theorem product_reset (s : Session σ) : (reset s).product = s.product := by
  show (releaseCall s).product = s.product
  unfold releaseCall
  split <;> rfl

theorem product_close (s : Session σ) : (close s).2.product = s.product :=
  (keeps_ifOpen (fun _ _ => rfl) () Backend.close (reset s)).trans (product_reset s)

theorem product_of_stays {m : Method} (hstart : m.restarts .select = false)
    (hshape : m.reshapes = false) (s : Session σ) : (perform m s).2.product = s.product := by
  have h : Stays .select s (perform m s).2 := stays_perform hstart hshape s
  exact h.product

/-- No method changes the product. -/
theorem keeps_product (m : Method) : Keeps (fun s : Session σ => s.product) (perform m) := by
  intro s
  cases m with
  | sql text =>
      show (sql text s).product = s.product
      unfold sql
      cases Sql.classify text <;> rfl
  | reset => exact product_reset s
  | close => exact product_close s
  | fields fields =>
      show (setFields fields s).product = s.product
      unfold setFields
      split <;> rfl
  | aliases aliases =>
      show (setAliases aliases s).product = s.product
      unfold setAliases
      split <;> rfl
  | select | insert | update | delete => rfl
  | _ => exact product_of_stays rfl rfl s

end Session

end SqlSession
