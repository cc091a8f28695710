/-
  KernelMemory.Proofs.Keeping — relations between the states that steps go through.

  Some facts hold of steps from any state, in order or not, and whatever becomes of them: what
  the steps cannot touch, or can change in one direction only, and which errors they can be
  refused for.  The first are relations between states that are reflexive and transitive.  If
  every small step goes along such a relation, so does what is made of them.

  Main results:
    * `Keeps.bind`, `Keeps.attempt_bind` — what is made of steps that keep a relation keeps it;
    * `Keeps.of_attempt` — the state that steps were seen to end in.
-/

import Mathlib.Order.Defs.Unbundled
import KernelMemory.Proofs.Endings

namespace KernelMemory

namespace Steps

variable {σ α β : Type} {R : σ → σ → Prop} {E : MemoryError → Prop}

/-- From every state the steps go to one related to it, whatever becomes of them, and they are
refused for errors of a kind only. -/
def Keeps (R : σ → σ → Prop) (E : MemoryError → Prop) (steps : Steps σ α) : Prop :=
  ∀ s, Ends steps s (fun _ s' => R s s') fun f s' => R s s' ∧ ∀ error, f = .refused error → E error

/-- Steps that are at most refused keep what holds of every end. -/
theorem keeps_of_refusal {steps : Steps σ α} (h : ∀ s, Ends steps s (fun _ s' => R s s')
    (onRefusal fun error s' => R s s' ∧ E error)) : Keeps R E steps := by
  intro s
  refine (h s).mono (fun _ _ hr => hr) fun f s' hf => ?_
  cases f with
  | refused error =>
    refine ⟨hf.1, fun other heq => ?_⟩
    injection heq with heq
    rw [← heq]
    exact hf.2
  | fault fault => exact hf.elim

/-- Nothing has to be said of faults. -/
theorem Keeps.at_return {steps : Steps σ α} (h : Keeps R E steps) (s : σ) :
    Ends steps s (fun _ s' => R s s') (onReturn fun error s' => R s s' ∧ E error) :=
  (h s).mono (fun _ _ hr => hr) fun f s' hf => by
    cases f with
    | refused error => exact ⟨hf.1, hf.2 error rfl⟩
    | fault fault => trivial

theorem Keeps.of_error {steps : Steps σ α} (h : Keeps R E steps) {s s' : σ} {error : MemoryError}
    (e : steps s = .error (.refused error) s') : E error := ((h s).of_error e).2 error rfl

/-- Where a run of the steps ended, unless by a fault, and what it was refused for. -/
theorem Keeps.of_attempt {steps : Steps σ α} (h : Keeps R E steps) {s s' : σ}
    {result : Except MemoryError α} (e : attempt steps s = .ok result s') :
    R s s' ∧ ∀ error, result = .error error → E error := by
  have hs := h s
  unfold Ends at hs
  unfold attempt at e
  cases hsteps : steps s with
  | ok a t =>
    rw [hsteps] at hs e
    cases e
    exact ⟨hs, fun _ heq => nomatch heq⟩
  | error f t =>
    rw [hsteps] at hs e
    cases f with
    | refused error =>
      cases e
      refine ⟨hs.1, fun other heq => ?_⟩
      injection heq with heq
      exact hs.2 other (by rw [heq])
    | fault fault => cases e

theorem Keeps.mono {R' : σ → σ → Prop} {E' : MemoryError → Prop} {steps : Steps σ α}
    (h : Keeps R E steps) (hr : ∀ {s s'}, R s s' → R' s s') (he : ∀ error, E error → E' error) :
    Keeps R' E' steps :=
  fun s => (h s).mono (fun _ _ hs => hr hs) fun _ _ hs => ⟨hr hs.1, fun error heq => he error (hs.2 error heq)⟩

/-- What the steps end in does not hang on what is made of their result. -/
theorem Keeps.result {steps : Steps σ α} (h : Keeps R E steps) (f : α → β) :
    Keeps R E (do return f (← steps)) := by
  intro s
  rw [ends_bind]
  exact (h s).mono (fun _ _ hr => hr) fun _ _ hr => hr

theorem keeps_modify {change : σ → σ} (h : ∀ s, R s (change s)) :
    Keeps R E (modify change : Steps σ Unit) := h

/-! ## Steps that change nothing -/

section

variable [Std.Refl R]

theorem keeps_pure (a : α) : Keeps R E (pure a : Steps σ α) := fun s => Std.Refl.refl s

theorem keeps_get : Keeps R E (get : Steps σ σ) := fun s => Std.Refl.refl s

theorem keeps_refuse {error : MemoryError} (h : E error) : Keeps R E (refuse error : Steps σ α) := by
  intro s
  rw [ends_refuse]
  refine ⟨Std.Refl.refl s, fun other heq => ?_⟩
  injection heq with heq
  rw [← heq]
  exact h

theorem keeps_stop (fault : Fault) : Keeps R E (stop fault : Steps σ α) :=
  fun s => ⟨Std.Refl.refl s, fun _ heq => nomatch heq⟩

theorem keeps_ofResult {result : Except MemoryError α}
    (h : ∀ error, result = .error error → E error) : Keeps R E (ofResult result : Steps σ α) := by
  cases result with
  | ok a => exact keeps_pure a
  | error error => exact keeps_refuse (h error rfl)

theorem keeps_lift (result : Except Fault α) : Keeps R E (liftM result : Steps σ α) := by
  cases result with
  | ok a => exact keeps_pure a
  | error fault => exact keeps_stop fault

end

/-! ## What is made of steps -/

section

variable [IsTrans σ R]

theorem Keeps.bind {steps : Steps σ α} {next : α → Steps σ β} (h : Keeps R E steps)
    (hnext : ∀ a, Keeps R E (next a)) : Keeps R E (steps >>= next) := by
  intro s
  rw [ends_bind]
  refine (h s).mono (fun a t ht => ?_) fun _ _ ht => ht
  exact (hnext a t).mono (fun _ _ hu => IsTrans.trans _ _ _ ht hu)
    fun _ _ hu => ⟨IsTrans.trans _ _ _ ht hu.1, hu.2⟩

theorem Keeps.bind_option {steps : Steps σ (Option α)} {next : Option α → Steps σ β}
    (h : Keeps R E steps) (hsome : ∀ a, Keeps R E (next (some a))) (hnone : Keeps R E (next none)) :
    Keeps R E (steps >>= next) := by
  apply h.bind
  intro result
  cases result with
  | none => exact hnone
  | some a => exact hsome a

/-- A refusal that becomes a value is one of those the steps can be refused for. -/
theorem Keeps.attempt_bind {E' : MemoryError → Prop} {steps : Steps σ α}
    {next : Except MemoryError α → Steps σ β} (h : Keeps R E steps)
    (hnext : ∀ result, (∀ error, result = .error error → E error) → Keeps R E' (next result)) :
    Keeps R E' (Steps.attempt steps >>= next) := by
  -- the rest goes on from where the steps ended
  have hrest : ∀ {s t : σ} (result : Except MemoryError α), R s t →
      (∀ error, result = .error error → E error) →
        Ends (next result) t (fun _ u => R s u)
          (fun f u => R s u ∧ ∀ error, f = .refused error → E' error) :=
    fun {s t} result ht hresult => (hnext result hresult t).mono
      (fun _ _ hu => IsTrans.trans _ _ _ ht hu) fun _ _ hu => ⟨IsTrans.trans _ _ _ ht hu.1, hu.2⟩
  intro s
  rw [ends_bind, ends_attempt]
  refine (h s).mono (fun a t ht => hrest (.ok a) ht fun _ heq => nomatch heq) fun f t ht => ?_
  cases f with
  | refused error =>
    refine hrest (.error error) ht.1 fun other heq => ?_
    injection heq with heq
    exact ht.2 other (by rw [heq])
  | fault fault => exact ⟨ht.1, fun _ heq => nomatch heq⟩

end

end Steps

end KernelMemory
