/-
  KernelMemory.Proofs.Lockstep — two runs of the same steps, from related states.

  What steps do may not hang on all of the state they start from.  If two states agree on what the
  steps look at, the runs take the same turns and end with the same result, in states that agree
  again.  Steps made of steps with that property have it.

  One run may have less to spend than the other, and fail where the other goes on.  Then the other
  follows it as far as it got (`Follows`).

  Main results:
    * `Lockstep.bind`, `Lockstep.attempt`, `lockstep_get` — what is made of steps in lockstep;
    * `Follows.bind`, `Follows.of_ok` — a run that follows another, and one that followed to the end.
-/

import KernelMemory.Proofs.Endings

namespace KernelMemory

namespace Steps

variable {σ α β : Type} {R : σ → σ → Prop}

/-- Two runs ended alike: with the same result or the same failure, in related states. -/
def SameEnd (R : σ → σ → Prop) :
    EStateM.Result Failure σ α → EStateM.Result Failure σ α → Prop
  | .ok a s, .ok b t => b = a ∧ R s t
  | .error f s, .error g t => g = f ∧ R s t
  | _, _ => False

/-- From related states the steps end alike. -/
def Lockstep (R : σ → σ → Prop) (steps : Steps σ α) : Prop :=
  ∀ s t, R s t → SameEnd R (steps s) (steps t)

/-! ## Steps that do not look at the state -/

theorem lockstep_pure (a : α) : Lockstep R (pure a : Steps σ α) := fun _ _ h => ⟨rfl, h⟩

theorem lockstep_refuse (error : MemoryError) : Lockstep R (refuse error : Steps σ α) :=
  fun _ _ h => ⟨rfl, h⟩

theorem lockstep_stop (fault : Fault) : Lockstep R (stop fault : Steps σ α) :=
  fun _ _ h => ⟨rfl, h⟩

theorem lockstep_ofResult (result : Except MemoryError α) :
    Lockstep R (ofResult result : Steps σ α) := by
  cases result with
  | ok a => exact lockstep_pure a
  | error error => exact lockstep_refuse error

theorem lockstep_lift (result : Except Fault α) : Lockstep R (liftM result : Steps σ α) := by
  cases result with
  | ok a => exact lockstep_pure a
  | error fault => exact lockstep_stop fault

/-- A change that keeps states related. -/
theorem lockstep_modify {change : σ → σ} (h : ∀ s t, R s t → R (change s) (change t)) :
    Lockstep R (modify change : Steps σ Unit) := fun s t hst => ⟨rfl, h s t hst⟩

/-- A change that tells the same of related states. -/
theorem lockstep_modifyGet {change : σ → α × σ}
    (h : ∀ s t, R s t → (change t).1 = (change s).1 ∧ R (change s).2 (change t).2) :
    Lockstep R (modifyGet change : Steps σ α) := fun s t hst => h s t hst

/-! ## Runs that may fail -/

/-- The second run ended like the first, unless the first failed in a way that is excused. -/
def Followed (excused : Failure → Prop) (R : σ → σ → Prop) :
    EStateM.Result Failure σ α → EStateM.Result Failure σ α → Prop
  | .ok a s, .ok b t => b = a ∧ R s t
  | .ok _ _, .error _ _ => False
  | .error f _, .ok _ _ => excused f
  | .error f s, .error g t => excused f ∨ g = f ∧ R s t

/-- From related states the second run follows the first. -/
def Follows (excused : Failure → Prop) (R : σ → σ → Prop) (steps : Steps σ α) : Prop :=
  ∀ s t, R s t → Followed excused R (steps s) (steps t)

variable {excused : Failure → Prop}

theorem SameEnd.followed {x y : EStateM.Result Failure σ α} (h : SameEnd R x y) :
    Followed excused R x y := by
  cases x with
  | ok a s =>
    cases y with
    | ok b t => exact h
    | error g t => exact h.elim
  | error f s =>
    cases y with
    | ok b t => exact h.elim
    | error g t => exact .inr h

theorem Followed.sameEnd {x y : EStateM.Result Failure σ α}
    (h : Followed (fun _ => False) R x y) : SameEnd R x y := by
  cases x with
  | ok a s =>
    cases y with
    | ok b t => exact h
    | error g t => exact h.elim
  | error f s =>
    cases y with
    | ok b t => exact h.elim
    | error g t => exact h.resolve_left id

/-- Runs in lockstep follow each other, whatever is excused. -/
theorem Lockstep.follows {steps : Steps σ α} (h : Lockstep R steps) : Follows excused R steps :=
  fun s t hst => (h s t hst).followed

/-- Where nothing is excused, both runs end alike. -/
theorem Follows.lockstep {steps : Steps σ α} (h : Follows (fun _ => False) R steps) :
    Lockstep R steps := fun s t hst => (h s t hst).sameEnd

/-- A run that follows one that succeeded succeeds, with the same result. -/
theorem Follows.of_ok {steps : Steps σ α} (h : Follows excused R steps) {s s' t : σ} {a : α}
    (hst : R s t) (e : steps s = .ok a s') : ∃ t', steps t = .ok a t' ∧ R s' t' := by
  have hsteps := h s t hst
  rw [e] at hsteps
  cases ht : steps t with
  | ok b t' =>
    rw [ht] at hsteps
    obtain ⟨rfl, hst'⟩ := hsteps
    exact ⟨t', rfl, hst'⟩
  | error g t' =>
    rw [ht] at hsteps
    exact hsteps.elim

/-! ## What is made of steps -/

theorem Follows.bind {steps : Steps σ α} {next : α → Steps σ β} (h : Follows excused R steps)
    (hnext : ∀ a, Follows excused R (next a)) : Follows excused R (steps >>= next) := by
  intro s t hst
  have hsteps := h s t hst
  simp only [Bind.bind, EStateM.bind]
  cases hs : steps s with
  | ok a s' =>
    cases ht : steps t with
    | ok b t' =>
      rw [hs, ht] at hsteps
      obtain ⟨rfl, hst'⟩ := hsteps
      exact hnext b s' t' hst'
    | error g t' =>
      rw [hs, ht] at hsteps
      exact hsteps.elim
  | error f s' =>
    cases ht : steps t with
    | ok b t' =>
      -- the first run failed already, whatever the second comes to
      rw [hs, ht] at hsteps
      have hexcused : excused f := hsteps
      simp only
      cases next b t' with
      | ok c t'' => exact hexcused
      | error g t'' => exact .inl hexcused
    | error g t' =>
      rw [hs, ht] at hsteps
      exact hsteps

theorem Follows.bind_option {steps : Steps σ (Option α)} {next : Option α → Steps σ β}
    (h : Follows excused R steps) (hsome : ∀ a, Follows excused R (next (some a)))
    (hnone : Follows excused R (next none)) : Follows excused R (steps >>= next) := by
  apply h.bind
  intro result
  cases result with
  | none => exact hnone
  | some a => exact hsome a

theorem Lockstep.bind {steps : Steps σ α} {next : α → Steps σ β} (h : Lockstep R steps)
    (hnext : ∀ a, Lockstep R (next a)) : Lockstep R (steps >>= next) :=
  (h.follows.bind fun a => (hnext a).follows).lockstep

/-- A refusal that becomes a value becomes the same in both runs. -/
theorem Lockstep.attempt {steps : Steps σ α} (h : Lockstep R steps) :
    Lockstep R (Steps.attempt steps) := by
  intro s t hst
  have hsteps := h s t hst
  unfold Steps.attempt
  cases hs : steps s with
  | ok a s' =>
    cases ht : steps t with
    | ok b t' =>
      rw [hs, ht] at hsteps
      exact ⟨congrArg _ hsteps.1, hsteps.2⟩
    | error g t' =>
      rw [hs, ht] at hsteps
      exact hsteps.elim
  | error f s' =>
    cases ht : steps t with
    | ok b t' =>
      rw [hs, ht] at hsteps
      exact hsteps.elim
    | error g t' =>
      rw [hs, ht] at hsteps
      obtain ⟨rfl, hst'⟩ := hsteps
      cases g with
      | refused error => exact ⟨rfl, hst'⟩
      | fault fault => exact ⟨rfl, hst'⟩

/-- What is read of the state is the same in both, as far as the rest looks at it. -/
theorem lockstep_get {next : σ → Steps σ α} (hsame : ∀ s t, R s t → next t = next s)
    (h : ∀ s, Lockstep R (next s)) : Lockstep R (get >>= next) := by
  intro s t hst
  show SameEnd R (next s s) (next t t)
  rw [hsame s t hst]
  exact h s s t hst

end Steps

end KernelMemory
