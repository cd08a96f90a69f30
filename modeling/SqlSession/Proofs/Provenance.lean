/-
Where the text of a draft comes from.

A session does not remember whether the text of a draft was compiled or given by the caller,
nor what the fields and aliases were when it was compiled.  `Origin` is proof-only state that
does: it goes along with a run, and no method looks at it.  The invariant is that a text with
an origin is compiled from the shape that the origin names, and that the draft still has that
shape unless fields or aliases were set since.

What an execution runs is the settled text, or else the text that it compiles itself, whose
origin is the shape of that moment.
-/
import SqlSession.Proofs.Drafting

namespace SqlSession

open SqlSession.Action

/-- How the text of a draft was compiled. -/
structure Origin where
  /-- The shape that it was compiled from. -/
  shape : Shape
  /-- Fields or aliases were set since. -/
  reshaped : Bool
  deriving DecidableEq

namespace Session

variable {σ : Type} [Backend σ] {kind : Kind}

/-- The origin of a draft's text after a method; a text that the caller has given has none. -/
def nextOrigin (kind : Kind) (m : Method) (s : Session σ) (o : Option Origin) : Option Origin :=
  if m.restarts kind then none
  else if s.settledText kind = none ∧ (perform m s).2.settledText kind ≠ none then
    some ⟨s.shape kind, false⟩
  else if m.reshapes then o.map fun o => { o with reshaped := true }
  else o

/-- The origin of a draft's text after some methods. -/
def origin (kind : Kind) : List Method → Session σ → Option Origin → Option Origin
  | [], _, o => o
  | m :: ms, s, o => origin kind ms (perform m s).2 (nextOrigin kind m s o)

/-- The text is compiled from the shape of its origin, which is still the shape of the draft
unless that was set since. -/
structure Sound (kind : Kind) (s : Session σ) (o : Option Origin) : Prop where
  compiled : ∀ origin, o = some origin → ∃ text, s.settledText kind = some text ∧
    Compiles s.dialect kind origin.shape text
  unchanged : ∀ origin, o = some origin → origin.reshaped = false → s.shape kind = origin.shape

theorem sound_none (s : Session σ) : Sound kind s none :=
  ⟨nofun, nofun⟩

theorem dialect_perform (m : Method) (s : Session σ) : (perform m s).2.dialect = s.dialect :=
  congrArg Product.dialect (keeps_product m s)

/-- A text that is already there stays there, unless the draft is begun anew. -/
theorem settledText_perform {m : Method} (hstart : m.restarts kind = false) {s : Session σ}
    {text : String} (h : s.settledText kind = some text) :
    (perform m s).2.settledText kind = some text := by
  cases hshape : m.reshapes with
  | true => rw [settledText_of_reshapes hshape, h]
  | false =>
      rcases (stays_perform hstart hshape s).text with hsame | ⟨text', hdraft, htext⟩
      · rw [hsame, h]
      · rw [draftText_of_settled h] at hdraft
        cases hdraft
        exact htext

/-- A text that a method puts together is compiled from the shape that the draft had, and
still has. -/
theorem sound_compiled {m : Method} (hstart : m.restarts kind = false) {s : Session σ}
    (hnone : s.settledText kind = none) (hsome : (perform m s).2.settledText kind ≠ none) :
    Sound kind (perform m s).2 (some ⟨s.shape kind, false⟩) := by
  cases hshape : m.reshapes with
  | true =>
      rw [settledText_of_reshapes hshape] at hsome
      exact absurd hnone hsome
  | false =>
      have hstays := stays_perform hstart hshape s
      rcases hstays.text with hsame | ⟨text, hdraft, htext⟩
      · exact absurd (hsame.trans hnone) hsome
      · constructor
        · intro origin ho
          cases ho
          refine ⟨text, htext, ?_⟩
          rw [dialect_perform]
          exact compiles_of_unsettled hnone hdraft
        · intro origin ho _
          cases ho
          exact hstays.shape

theorem sound_step (m : Method) {s : Session σ} {o : Option Origin} (h : Sound kind s o) :
    Sound kind (perform m s).2 (nextOrigin kind m s o) := by
  unfold nextOrigin
  cases hstart : m.restarts kind with
  | true => exact sound_none _
  | false =>
      simp only [Bool.false_eq_true, if_false]
      split
      · rename_i hnew
        exact sound_compiled hstart hnew.1 hnew.2
      · have hcompiled : ∀ origin, o = some origin →
            ∃ text, (perform m s).2.settledText kind = some text ∧
              Compiles (perform m s).2.dialect kind origin.shape text := by
          intro origin ho
          obtain ⟨text, htext, hcompiles⟩ := h.compiled origin ho
          rw [dialect_perform]
          exact ⟨text, settledText_perform hstart htext, hcompiles⟩
        cases hshape : m.reshapes with
        | true =>
            simp only [if_true]
            constructor
            · intro origin ho
              obtain ⟨origin', ho', rfl⟩ := Option.map_eq_some_iff.mp ho
              exact hcompiled origin' ho'
            · intro origin ho
              obtain ⟨origin', -, rfl⟩ := Option.map_eq_some_iff.mp ho
              exact nofun
        | false =>
            simp only [Bool.false_eq_true, if_false]
            refine ⟨hcompiled, fun origin ho hf => ?_⟩
            exact (stays_perform hstart hshape s).shape.trans (h.unchanged origin ho hf)

theorem sound_origin (ms : List Method) {s : Session σ} {o : Option Origin}
    (h : Sound kind s o) : Sound kind (run ms s) (origin kind ms s o) := by
  induction ms generalizing s o with
  | nil => exact h
  | cons m ms ih => exact ih (sound_step m h)

/-! ### What an execution runs -/

/-- The origin of the text that an execution runs now. -/
def runningOrigin (kind : Kind) (s : Session σ) (o : Option Origin) : Option Origin :=
  if s.settledText kind = none then some ⟨s.shape kind, false⟩ else o

/-- The text that an execution runs is compiled from the shape of its origin. -/
theorem Sound.running {s : Session σ} {o : Option Origin} (h : Sound kind s o) {text : String}
    (htext : s.draftText kind.operation = .ok text) {origin : Origin}
    (ho : runningOrigin kind s o = some origin) :
    Compiles s.dialect kind origin.shape text ∧
      (origin.reshaped = false → s.shape kind = origin.shape) := by
  unfold runningOrigin at ho
  split at ho
  · rename_i hnone
    cases ho
    exact ⟨compiles_of_unsettled hnone htext, fun _ => rfl⟩
  · obtain ⟨text', hsettled, hcompiles⟩ := h.compiled origin ho
    rw [draftText_of_settled hsettled] at htext
    cases htext
    exact ⟨hcompiles, h.unchanged origin ho⟩

end Session

end SqlSession
