/-
Actions run on a state: how a sequence of steps comes out, and relations between the state before and
the state after that every step keeps. `Keeps.bind` is what carries such a relation through a whole
operation.
-/
import HostedGit.Provider

namespace HostedGit.Action

variable {ε σ α β : Type}

/-! ## Running a step -/

/-- A sequence goes on with the answer of its first step, or ends with that step's error. -/
theorem bind_apply (x : ExceptT ε (StateM σ) α) (f : α → ExceptT ε (StateM σ) β) (s : σ) :
    (x >>= f) s = match x s with
      | (.ok a, s') => f a s'
      | (.error e, s') => (.error e, s') := by
  show StateT.bind x (ExceptT.bindCont f) s = _
  unfold StateT.bind
  rcases x s with ⟨_ | a, s'⟩ <;> rfl

@[simp] theorem throw_apply (e : Error) (s : σ) : (throw e : Action σ α) s = (.error e, s) := rfl

@[simp] theorem get_apply (s : σ) : (getThe σ : Action σ σ) s = (.ok s, s) := rfl

@[simp] theorem log_apply [Journal σ] (level : LogLevel) (text : String) (s : σ) :
    (log level text : Action σ Unit) s = (.ok (), Journal.add ⟨level, text⟩ s) := rfl

/-- A sequence whose first step is answered. -/
theorem bind_ok {x : ExceptT ε (StateM σ) α} {f : α → ExceptT ε (StateM σ) β} {s s' : σ} {a : α}
    (h : x s = (.ok a, s')) : (x >>= f) s = f a s' := by
  rw [bind_apply, h]

/-- A sequence whose first step fails. -/
theorem bind_error {x : ExceptT ε (StateM σ) α} {f : α → ExceptT ε (StateM σ) β} {s s' : σ} {e : ε}
    (h : x s = (.error e, s')) : (x >>= f) s = (.error e, s') := by
  rw [bind_apply, h]

/-- What is made of the answer of a step is made of nothing else. -/
theorem bind_pure_apply (x : ExceptT ε (StateM σ) α) (f : α → β) (s : σ) :
    (x >>= fun a => pure (f a)) s = ((x s).1.map f, (x s).2) := by
  rw [bind_apply]
  rcases x s with ⟨_ | a, s'⟩ <;> rfl

/-- A sequence ends as its last step does, or its first step has failed. -/
theorem bind_cases {x : ExceptT ε (StateM σ) α} {f : α → ExceptT ε (StateM σ) β} {s s' : σ} {r : Except ε β}
    (h : (x >>= f) s = (r, s')) :
    (∃ a s₁, x s = (.ok a, s₁) ∧ f a s₁ = (r, s')) ∨ ∃ e, x s = (.error e, s') ∧ r = .error e := by
  rw [bind_apply] at h
  split at h
  · rename_i a s₁ hx; exact .inl ⟨a, s₁, hx, h⟩
  · rename_i e s₁ hx
    cases h; exact .inr ⟨e, hx, rfl⟩

/-- A sequence that is answered has steps that are answered. -/
theorem bind_answered {x : ExceptT ε (StateM σ) α} {f : α → ExceptT ε (StateM σ) β} {s s' : σ} {b : β}
    (h : (x >>= f) s = (.ok b, s')) : ∃ a s₁, x s = (.ok a, s₁) ∧ f a s₁ = (.ok b, s') := by
  rcases bind_cases h with answered | ⟨e, -, he⟩
  · exact answered
  · cases he

/-- Two steps that end alike are both answered, or both fail. -/
theorem same_cases {x x' : Action σ α} {s s' : σ} (h : (x s).1 = (x' s').1) :
    (∃ e s₁ s₁', x s = (.error e, s₁) ∧ x' s' = (.error e, s₁')) ∨
      ∃ a s₁ s₁', x s = (.ok a, s₁) ∧ x' s' = (.ok a, s₁') := by
  rcases hx : x s with ⟨r, s₁⟩
  rcases hx' : x' s' with ⟨r', s₁'⟩
  rw [hx, hx'] at h
  cases h
  cases r with
  | error e => exact .inl ⟨e, s₁, s₁', rfl, rfl⟩
  | ok a => exact .inr ⟨a, s₁, s₁', rfl, rfl⟩

/-! ## Steps that fail -/

/-- A step fails, and its error is as it should be. -/
def Fails (P : Error → Prop) (x : Action σ α) (s : σ) : Prop := ∃ e s', x s = (.error e, s') ∧ P e

theorem Fails.bind {P : Error → Prop} {x : Action σ α} {s : σ} (h : Fails P x s) (f : α → Action σ β) :
    Fails P (x >>= f) s := by
  obtain ⟨e, s', hx, he⟩ := h
  exact ⟨e, s', bind_error hx, he⟩

theorem Fails.of_eq {P : Error → Prop} {x y : Action σ α} {s s' : σ} (hy : Fails P y s') (h : x s = y s') :
    Fails P x s := by
  obtain ⟨e, s'', hx, he⟩ := hy
  exact ⟨e, s'', h.trans hx, he⟩

theorem Fails.mono {P Q : Error → Prop} {x : Action σ α} {s : σ} (h : Fails P x s) (hPQ : ∀ e, P e → Q e) :
    Fails Q x s := by
  obtain ⟨e, s', hx, he⟩ := h
  exact ⟨e, s', hx, hPQ e he⟩

/-- Whatever a step fails with is as it should be. -/
def FailsOnly (P : Error → Prop) (x : Action σ α) : Prop := ∀ ⦃s e s'⦄, x s = (.error e, s') → P e

theorem FailsOnly.of_ok {P : Error → Prop} {x : Action σ α} (h : ∀ s, ∃ a s', x s = (.ok a, s')) :
    FailsOnly P x := by
  intro s e s' he
  obtain ⟨a, s₁, hx⟩ := h s
  rw [hx] at he
  cases he

theorem FailsOnly.pure {P : Error → Prop} (a : α) : FailsOnly P (pure a : Action σ α) := nofun

theorem FailsOnly.log [Journal σ] {P : Error → Prop} (level : LogLevel) (text : String) :
    FailsOnly P (log level text : Action σ Unit) := nofun

theorem FailsOnly.throw {P : Error → Prop} {e : Error} (he : P e) : FailsOnly P (throw e : Action σ α) := by
  intro s e' s' h
  cases h
  exact he

/-- Nothing comes after a step that fails. -/
theorem FailsOnly.throw_bind {P : Error → Prop} {e : Error} (he : P e) (f : α → Action σ β) :
    FailsOnly P (MonadExcept.throw e >>= f) := by
  intro s e' s' h
  rw [bind_error (throw_apply e s)] at h
  cases h
  exact he

theorem FailsOnly.bind {P : Error → Prop} {x : Action σ α} {f : α → Action σ β} (hx : FailsOnly P x)
    (hf : ∀ a, FailsOnly P (f a)) : FailsOnly P (x >>= f) := by
  intro s e s' h
  rcases bind_cases h with ⟨a, s₁, -, h⟩ | ⟨e', h, he⟩
  · exact hf a h
  · cases he
    exact hx h

theorem FailsOnly.mono {P Q : Error → Prop} {x : Action σ α} (hx : FailsOnly P x) (hPQ : ∀ e, P e → Q e) :
    FailsOnly Q x := fun _ _ _ h => hPQ _ (hx h)

/-- A sequence that ends in no error of its first step's has that step behind it. -/
theorem FailsOnly.answered {P : Error → Prop} {x : Action σ α} {f : α → Action σ β} {s s' : σ}
    {r : Except Error β} (hx : FailsOnly P x) (h : (x >>= f) s = (r, s')) (hr : ∀ e, r = .error e → ¬ P e) :
    ∃ a s₁, x s = (.ok a, s₁) ∧ f a s₁ = (r, s') := by
  rcases bind_cases h with answered | ⟨e, he, rfl⟩
  · exact answered
  · exact absurd (hx he) (hr e rfl)

/-! ## Relations that every step keeps -/

/-- However the step ends, the state before is related to the state after. -/
def Keeps (R : σ → σ → Prop) (x : Action σ α) : Prop := ∀ s, R s (x s).2

theorem Keeps.of_eq {R : σ → σ → Prop} {x : Action σ α} (hx : Keeps R x) {s s' : σ} {r : Except Error α}
    (h : x s = (r, s')) : R s s' := by
  have := hx s
  rwa [h] at this

theorem Keeps.bind {R : σ → σ → Prop} (trans : ∀ {a b c}, R a b → R b c → R a c) {x : Action σ α}
    {f : α → Action σ β} (hx : Keeps R x) (hf : ∀ a, Keeps R (f a)) : Keeps R (x >>= f) := by
  intro s
  have h := hx s
  rw [bind_apply]
  split
  · rename_i a s₁ hs; rw [hs] at h; exact trans h (hf a s₁)
  · rename_i e s₁ hs; rw [hs] at h; exact h

end HostedGit.Action
