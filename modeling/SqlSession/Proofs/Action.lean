/-
What actions do to their state.

`Obeys R` says that an action moves the state along `R` whatever it answers, which is the
form of every law about runs that may stop at any request; for a relation that chains, the
parts of an action are looked at one by one.  `Simulates f` says that two actions answer
alike on states that `f` relates and leave such states behind.
-/
import SqlSession.Action

namespace SqlSession.Action

variable {σ τ α β γ : Type}

/-! ### Relations that an action keeps to -/

/-- The state before and the state after are related, whether the action succeeds or fails. -/
def Obeys (R : σ → σ → Prop) (a : Action σ α) : Prop :=
  ∀ s, R s (a s).2

/-- The action leaves a part of the state as it is. -/
abbrev Keeps (part : σ → β) (a : Action σ α) : Prop :=
  Obeys (fun s t => part t = part s) a

/-- A relation between states that allows doing nothing and doing one thing after another. -/
structure Chains (R : σ → σ → Prop) : Prop where
  refl : ∀ s, R s s
  trans : ∀ {s t u}, R s t → R t u → R s u

theorem chains_keeps (part : σ → β) : Chains (fun s t : σ => part t = part s) :=
  ⟨fun _ => rfl, fun h h' => h'.trans h⟩

theorem Obeys.of_fixed {R : σ → σ → Prop} (hR : Chains R) {a : Action σ α}
    (h : ∀ s, (a s).2 = s) : Obeys R a := by
  intro s
  rw [h s]
  exact hR.refl s

/-- An action in two steps ends where its second step ends, if it gets there. -/
theorem bind_cases (a : Action σ α) (f : α → Action σ β) (s : σ) :
    (∃ x, (a s).1 = .ok x ∧ (a >>= f) s = f x (a s).2) ∨
      (∃ e, (a s).1 = .error e ∧ (a >>= f) s = (.error e, (a s).2)) := by
  rcases h : a s with ⟨_ | x, t⟩
  · exact Or.inr ⟨_, rfl, bind_of_error h⟩
  · exact Or.inl ⟨x, rfl, bind_of_ok h⟩

/-- Working on the answer leaves the state alone. -/
theorem bind_pure_snd (a : Action σ α) (g : α → β) (s : σ) :
    ((a >>= fun x => pure (g x)) s).2 = (a s).2 := by
  rcases bind_cases a (fun x => pure (g x)) s with ⟨x, -, h⟩ | ⟨e, -, h⟩ <;> rw [h]
  rfl

theorem Obeys.bind {R : σ → σ → Prop} (hR : Chains R) {a : Action σ α}
    {f : α → Action σ β} (ha : Obeys R a) (hf : ∀ x, Obeys R (f x)) : Obeys R (a >>= f) := by
  intro s
  rcases bind_cases a f s with ⟨x, -, h⟩ | ⟨e, -, h⟩
  · rw [h]
    exact hR.trans (ha s) (hf x _)
  · rw [h]
    exact ha s

/-- What the second step leaves alone is as the first step has left it. -/
theorem Keeps.bind_eq {part : σ → γ} {a : Action σ α} {f : α → Action σ β}
    (hf : ∀ x, Keeps part (f x)) (s : σ) : part ((a >>= f) s).2 = part (a s).2 := by
  rcases bind_cases a f s with ⟨x, -, h⟩ | ⟨e, -, h⟩
  · rw [h]
    exact hf x _
  · rw [h]

/-! ### Actions that answer alike -/

/-- On states that `f` relates, the actions give the same answer and leave states that `f`
relates. -/
def Simulates (f : τ → σ) (a : Action τ α) (b : Action σ α) : Prop :=
  ∀ t, b (f t) = ((a t).1, f (a t).2)

namespace Simulates

variable {f : τ → σ}

theorem pure (x : α) : Simulates f (pure x : Action τ α) (pure x) :=
  fun _ => rfl

theorem view {v : τ → α} {w : σ → α} (h : ∀ t, w (f t) = v t) :
    Simulates f (view v) (view w) := by
  intro t
  simp only [Action.view, h t]

theorem bind {a : Action τ α} {b : Action σ α} {k : α → Action τ β} {l : α → Action σ β}
    (h : Simulates f a b) (hk : ∀ x, Simulates f (k x) (l x)) :
    Simulates f (a >>= k) (b >>= l) := by
  intro t
  have hb := h t
  rcases bind_cases a k t with ⟨x, hx, hk'⟩ | ⟨e, he, hk'⟩
  · rw [hx] at hb
    rw [hk', bind_of_ok hb]
    exact hk x _
  · rw [he] at hb
    rw [hk', bind_of_error hb]

theorem andThen {a : Action τ α} {b : Action σ α} {k : τ → τ} {l : σ → σ} (h : Simulates f a b)
    (hk : ∀ t, l (f t) = f (k t)) : Simulates f (a.andThen k) (b.andThen l) := by
  intro t
  simp only [Action.andThen, h t, hk]

end Simulates

end SqlSession.Action
