/-
  KernelMemory.Proofs.Endings — how steps end, as a statement about the steps.

  `Ends steps s ok failed` says that the steps, run from `s`, either end with a result of
  which `ok` holds or stop with a failure of which `failed` holds.  The lemmas follow the
  ways steps are put together, so that a claim about an operation becomes one about the
  small operations it is made of.

  Main results:
    * `ends_bind` — steps one after another;
    * `ends_attempt` — a refusal that becomes a value;
    * `Ends.mono` — weaker statements about the end;
    * `overflowsIff_iff_ends` — for which reason, and no other, steps break a contract.
-/

import KernelMemory.Outcome

namespace KernelMemory

namespace Steps

variable {σ α β : Type}

/-- How steps end from a state. -/
def Ends (steps : Steps σ α) (s : σ) (ok : α → σ → Prop) (failed : Failure → σ → Prop) : Prop :=
  match steps s with
  | .ok a s' => ok a s'
  | .error failure s' => failed failure s'

/-- No fault, and `refused` holds of a refusal. -/
def onRefusal (refused : MemoryError → σ → Prop) : Failure → σ → Prop
  | .refused error, s => refused error s
  | .fault _, _ => False

@[simp] theorem onRefusal_refused (refused : MemoryError → σ → Prop) (error : MemoryError)
    (s : σ) : onRefusal refused (.refused error) s ↔ refused error s := Iff.rfl

@[simp] theorem onRefusal_fault (refused : MemoryError → σ → Prop) (fault : Fault) (s : σ) :
    onRefusal refused (.fault fault) s ↔ False := Iff.rfl

/-- `refused` holds of a refusal; the one fault is an address that leaves the word. -/
def onOverflow (refused : MemoryError → σ → Prop) : Failure → σ → Prop
  | .refused error, s => refused error s
  | .fault fault, _ => fault = .addOverflow

@[simp] theorem onOverflow_refused (refused : MemoryError → σ → Prop) (error : MemoryError)
    (s : σ) : onOverflow refused (.refused error) s ↔ refused error s := Iff.rfl

@[simp] theorem onOverflow_fault (refused : MemoryError → σ → Prop) (fault : Fault) (s : σ) :
    onOverflow refused (.fault fault) s ↔ fault = .addOverflow := Iff.rfl

/-- `refused` holds of a refusal; nothing is said of faults. -/
def onReturn (refused : MemoryError → σ → Prop) : Failure → σ → Prop
  | .refused error, s => refused error s
  | .fault _, _ => True

@[simp] theorem onReturn_refused (refused : MemoryError → σ → Prop) (error : MemoryError)
    (s : σ) : onReturn refused (.refused error) s ↔ refused error s := Iff.rfl

@[simp] theorem onReturn_fault (refused : MemoryError → σ → Prop) (fault : Fault) (s : σ) :
    onReturn refused (.fault fault) s ↔ True := Iff.rfl

/-- What holds anyway holds of the end. -/
theorem ends_of_forall {steps : Steps σ α} {s : σ} {ok : α → σ → Prop} {failed : Failure → σ → Prop}
    (hok : ∀ a s', ok a s') (hfailed : ∀ f s', failed f s') : Ends steps s ok failed := by
  unfold Ends
  split
  · exact hok _ _
  · exact hfailed _ _

/-- Steps end as they do. -/
theorem ends_self (steps : Steps σ α) (s : σ) :
    Ends steps s (fun a s' => steps s = .ok a s') (fun f s' => steps s = .error f s') := by
  unfold Ends
  split
  · assumption
  · assumption

theorem Ends.mono {steps : Steps σ α} {s : σ} {ok ok' : α → σ → Prop}
    {failed failed' : Failure → σ → Prop} (h : Ends steps s ok failed)
    (hok : ∀ a s', ok a s' → ok' a s') (hfailed : ∀ f s', failed f s' → failed' f s') :
    Ends steps s ok' failed' := by
  unfold Ends at *
  split
  · rename_i a s' heq; rw [heq] at h; exact hok a s' h
  · rename_i f s' heq; rw [heq] at h; exact hfailed f s' h

/-- `Ends.mono` for steps that are at most refused. -/
theorem Ends.weaken {steps : Steps σ α} {s : σ} {ok ok' : α → σ → Prop}
    {refused refused' : MemoryError → σ → Prop} (h : Ends steps s ok (onRefusal refused))
    (hok : ∀ a s', ok a s' → ok' a s') (hrefused : ∀ e s', refused e s' → refused' e s') :
    Ends steps s ok' (onRefusal refused') :=
  h.mono hok fun f s' hf => by
    cases f with
    | refused error => exact hrefused error s' hf
    | fault fault => exact hf

/-- `Ends.weaken` for steps that may leave the word. -/
theorem Ends.weaken_overflow {steps : Steps σ α} {s : σ} {ok ok' : α → σ → Prop}
    {refused refused' : MemoryError → σ → Prop} (h : Ends steps s ok (onOverflow refused))
    (hok : ∀ a s', ok a s' → ok' a s') (hrefused : ∀ e s', refused e s' → refused' e s') :
    Ends steps s ok' (onOverflow refused') :=
  h.mono hok fun f s' hf => by
    cases f with
    | refused error => exact hrefused error s' hf
    | fault fault => exact hf

/-- `Ends.weaken` where nothing is said of faults. -/
theorem Ends.weaken_return {steps : Steps σ α} {s : σ} {ok ok' : α → σ → Prop}
    {refused refused' : MemoryError → σ → Prop} (h : Ends steps s ok (onReturn refused))
    (hok : ∀ a s', ok a s' → ok' a s') (hrefused : ∀ e s', refused e s' → refused' e s') :
    Ends steps s ok' (onReturn refused') :=
  h.mono hok fun f s' hf => by
    cases f with
    | refused error => exact hrefused error s' hf
    | fault fault => trivial

/-- What is said of faults can be left out. -/
theorem Ends.at_return {steps : Steps σ α} {s : σ} {ok : α → σ → Prop}
    {refused : MemoryError → σ → Prop} (h : Ends steps s ok (onOverflow refused)) :
    Ends steps s ok (onReturn refused) :=
  h.mono (fun _ _ => id) fun f s' hf => by
    cases f with
    | refused error => exact hf
    | fault fault => trivial

/-- Steps that are at most refused never leave the word. -/
theorem Ends.overflow {steps : Steps σ α} {s : σ} {ok : α → σ → Prop}
    {refused : MemoryError → σ → Prop} (h : Ends steps s ok (onRefusal refused)) :
    Ends steps s ok (onOverflow refused) :=
  h.mono (fun _ _ => id) fun f s' hf => by
    cases f with
    | refused error => exact hf
    | fault fault => exact hf.elim

/-- What is said of one end in two ways holds of it in both. -/
theorem Ends.and {steps : Steps σ α} {s : σ} {ok ok' : α → σ → Prop}
    {failed failed' : Failure → σ → Prop} (h : Ends steps s ok failed)
    (h' : Ends steps s ok' failed') :
    Ends steps s (fun a s' => ok a s' ∧ ok' a s') (fun f s' => failed f s' ∧ failed' f s') := by
  unfold Ends at *
  split
  · rename_i a s' heq; rw [heq] at h h'; exact ⟨h, h'⟩
  · rename_i f s' heq; rw [heq] at h h'; exact ⟨h, h'⟩

theorem Ends.of_ok {steps : Steps σ α} {s s' : σ} {a : α} {ok : α → σ → Prop}
    {failed : Failure → σ → Prop} (h : Ends steps s ok failed) (e : steps s = .ok a s') :
    ok a s' := by
  rw [Ends, e] at h; exact h

theorem Ends.of_error {steps : Steps σ α} {s s' : σ} {f : Failure} {ok : α → σ → Prop}
    {failed : Failure → σ → Prop} (h : Ends steps s ok failed) (e : steps s = .error f s') :
    failed f s' := by
  rw [Ends, e] at h; exact h

/-- How steps end can be found out by running them. -/
instance (steps : Steps σ α) (s : σ) (ok : α → σ → Prop) (failed : Failure → σ → Prop)
    [∀ a s', Decidable (ok a s')] [∀ f s', Decidable (failed f s')] :
    Decidable (Ends steps s ok failed) :=
  match e : steps s with
  | .ok a s' => decidable_of_iff (ok a s') (by rw [Ends, e])
  | .error f s' => decidable_of_iff (failed f s') (by rw [Ends, e])

/-- Steps that cannot fail end with a result. -/
theorem exists_of_ends {steps : Steps σ α} {s : σ} {ok : α → σ → Prop}
    (h : Ends steps s ok (fun _ _ => False)) : ∃ a s', steps s = .ok a s' ∧ ok a s' := by
  unfold Ends at h
  split at h
  · exact ⟨_, _, ‹_›, h⟩
  · exact h.elim

/-- Steps that cannot end with a result fail. -/
theorem exists_error_of_ends {steps : Steps σ α} {s : σ} {failed : Failure → σ → Prop}
    (h : Ends steps s (fun _ _ => False) failed) : ∃ f s', steps s = .error f s' ∧ failed f s' := by
  unfold Ends at h
  split at h
  · exact h.elim
  · exact ⟨_, _, ‹_›, h⟩

/-! ## Faults -/

/-- The steps leave the word exactly if there is the cause, and break no other contract. -/
def OverflowsIff (steps : Steps σ α) (s : σ) (cause : Prop) : Prop :=
  ∀ fault, (∃ s', steps s = .error (.fault fault) s') ↔ fault = .addOverflow ∧ cause

/-- With the cause the fault is an overflow, and without it there is none. -/
def onCause (cause : Prop) : Failure → σ → Prop
  | .refused _, _ => ¬ cause
  | .fault fault, _ => fault = .addOverflow ∧ cause

theorem overflowsIff_iff_ends {steps : Steps σ α} {s : σ} {cause : Prop} :
    OverflowsIff steps s cause ↔ Ends steps s (fun _ _ => ¬ cause) (onCause cause) := by
  unfold OverflowsIff Ends
  cases hsteps : steps s with
  | ok a s' =>
    constructor
    · intro h hcause
      obtain ⟨_, hfault⟩ := (h .addOverflow).mpr ⟨rfl, hcause⟩
      cases hfault
    · intro h fault
      exact ⟨fun ⟨_, hfault⟩ => (nomatch hfault), fun hboth => absurd hboth.2 h⟩
  | error failure s' =>
    cases failure with
    | refused error =>
      constructor
      · intro h hcause
        obtain ⟨_, hfault⟩ := (h .addOverflow).mpr ⟨rfl, hcause⟩
        cases hfault
      · intro h fault
        exact ⟨fun ⟨_, hfault⟩ => (nomatch hfault), fun hboth => absurd hboth.2 h⟩
    | fault found =>
      constructor
      · intro h
        exact (h found).mp ⟨s', rfl⟩
      · intro h fault
        constructor
        · intro hfault
          obtain ⟨t, heq⟩ := hfault
          injection heq with heq
          injection heq with heq
          rw [← heq]
          exact h
        · intro hboth
          exact ⟨s', by rw [hboth.1, h.1]⟩

/-- Steps that are at most refused never leave the word. -/
theorem Ends.overflowsIff {steps : Steps σ α} {s : σ} {ok : α → σ → Prop}
    {refused : MemoryError → σ → Prop} {cause : Prop} (h : Ends steps s ok (onRefusal refused))
    (hcause : ¬ cause) : OverflowsIff steps s cause :=
  overflowsIff_iff_ends.mpr <| h.mono (fun _ _ _ => hcause) fun f _ hf => by
    cases f with
    | refused error => exact hcause
    | fault fault => exact hf.elim

/-! ## One step after another -/

/-- The steps before the last ones end where these start. -/
theorem bind_eq_ok_iff {steps : Steps σ α} {next : α → Steps σ β} {s s' : σ} {b : β} :
    (steps >>= next) s = .ok b s' ↔ ∃ a t, steps s = .ok a t ∧ next a t = .ok b s' := by
  simp only [bind, EStateM.bind]
  cases steps s with
  | ok a t =>
    constructor
    · exact fun hnext => ⟨a, t, rfl, hnext⟩
    · rintro ⟨_, _, ⟨⟩, hnext⟩
      exact hnext
  | error f t =>
    constructor
    · rintro ⟨⟩
    · rintro ⟨_, _, ⟨⟩, -⟩

/-- After steps that end, the next ones run. -/
theorem bind_of_ok {steps : Steps σ α} {next : α → Steps σ β} {s s' : σ} {a : α}
    (e : steps s = .ok a s') : (steps >>= next) s = next a s' := by
  simp only [bind, EStateM.bind, e]

/-- After steps that stop, they do not. -/
theorem bind_of_error {steps : Steps σ α} {next : α → Steps σ β} {s s' : σ} {f : Failure}
    (e : steps s = .error f s') : (steps >>= next) s = .error f s' := by
  simp only [bind, EStateM.bind, e]

/-- A change of the state ends with its result. -/
theorem modifyGet_of_eq {change : σ → α × σ} {s : σ} {a : α} (s' : σ) (e : change s = (a, s')) :
    (modifyGet change : Steps σ α) s = .ok a s' := by
  show EStateM.Result.ok (change s).1 (change s).2 = _
  rw [e]

/-- A checked computation that succeeds changes nothing. -/
theorem lift_of_ok {result : Except Fault α} {a : α} (e : result = .ok a) (s : σ) :
    (liftM result : Steps σ α) s = .ok a s := by
  rw [e]
  rfl

theorem ends_bind (steps : Steps σ α) (next : α → Steps σ β) (s : σ) (ok : β → σ → Prop)
    (failed : Failure → σ → Prop) :
    Ends (steps >>= next) s ok failed
      ↔ Ends steps s (fun a s' => Ends (next a) s' ok failed) failed := by
  simp only [Ends, bind, EStateM.bind]
  cases steps s <;> rfl

theorem ends_pure (a : α) (s : σ) (ok : α → σ → Prop) (failed : Failure → σ → Prop) :
    Ends (pure a : Steps σ α) s ok failed ↔ ok a s := Iff.rfl

theorem ends_map (f : α → β) (steps : Steps σ α) (s : σ) (ok : β → σ → Prop)
    (failed : Failure → σ → Prop) :
    Ends (f <$> steps) s ok failed ↔ Ends steps s (fun a s' => ok (f a) s') failed := by
  simp only [Ends, Functor.map, EStateM.map]
  cases steps s <;> rfl

theorem ends_get (s : σ) (ok : σ → σ → Prop) (failed : Failure → σ → Prop) :
    Ends (get : Steps σ σ) s ok failed ↔ ok s s := Iff.rfl

theorem ends_modify (change : σ → σ) (s : σ) (ok : Unit → σ → Prop)
    (failed : Failure → σ → Prop) :
    Ends (modify change : Steps σ Unit) s ok failed ↔ ok () (change s) := Iff.rfl

theorem ends_modifyGet (change : σ → α × σ) (s : σ) (ok : α → σ → Prop)
    (failed : Failure → σ → Prop) :
    Ends (modifyGet change : Steps σ α) s ok failed ↔ ok (change s).1 (change s).2 := Iff.rfl

/-! ## Stopping -/

theorem ends_refuse (error : MemoryError) (s : σ) (ok : α → σ → Prop)
    (failed : Failure → σ → Prop) :
    Ends (refuse error : Steps σ α) s ok failed ↔ failed (.refused error) s := Iff.rfl

theorem ends_ofResult (result : Except MemoryError α) (s : σ) (ok : α → σ → Prop)
    (failed : Failure → σ → Prop) :
    Ends (ofResult result) s ok failed
      ↔ (∀ a, result = .ok a → ok a s) ∧ ∀ e, result = .error e → failed (.refused e) s := by
  cases result with
  | ok a => simp [ofResult, ends_pure]
  | error e => simp [ofResult, ends_refuse]

/-- A result that is there goes on with its value. -/
theorem ends_ofResult_ok {result : Except MemoryError α} {a : α} (e : result = .ok a) (s : σ)
    (ok : α → σ → Prop) (failed : Failure → σ → Prop) :
    Ends (ofResult result) s ok failed ↔ ok a s := by
  subst e; exact Iff.rfl

/-- A checked computation that succeeds goes on with its value. -/
theorem ends_lift_ok {result : Except Fault α} {a : α} (e : result = .ok a) (s : σ)
    (ok : α → σ → Prop) (failed : Failure → σ → Prop) :
    Ends (liftM result : Steps σ α) s ok failed ↔ ok a s := by
  subst e; exact Iff.rfl

/-- A sum that fits goes on, and one that leaves the word stops the steps. -/
theorem ends_add (a b : Nat) (s : σ) (ok : Nat → σ → Prop) (failed : Failure → σ → Prop) :
    Ends (liftM (Word.add a b) : Steps σ Nat) s ok failed
      ↔ (a + b < Word.bound → ok (a + b) s)
        ∧ (Word.bound ≤ a + b → failed (.fault .addOverflow) s) := by
  by_cases hlt : a + b < Word.bound
  · rw [ends_lift_ok (Word.add_eq_ok_iff.mpr ⟨hlt, rfl⟩)]
    exact ⟨fun h => ⟨fun _ => h, fun hle => absurd hlt (Nat.not_lt.mpr hle)⟩, fun h => h.1 hlt⟩
  · have hadd : Word.add a b = .error .addOverflow := by rw [Word.add, if_neg hlt]
    rw [hadd]
    exact ⟨fun h => ⟨fun h' => absurd h' hlt, fun _ => h⟩, fun h => h.2 (Nat.not_lt.mp hlt)⟩

/-- A refusal that becomes a value; a fault still stops the steps. -/
theorem ends_attempt (steps : Steps σ α) (s : σ) (ok : Except MemoryError α → σ → Prop)
    (failed : Failure → σ → Prop) :
    Ends (attempt steps) s ok failed
      ↔ Ends steps s (fun a s' => ok (.ok a) s') (fun f s' =>
          match f with
          | .refused e => ok (.error e) s'
          | .fault fault => failed (.fault fault) s') := by
  simp only [Ends, attempt]
  cases steps s with
  | ok a s' => rfl
  | error f s' => cases f <;> rfl

/-- What is attempted is not refused. -/
theorem attempt_ne_refused {steps : Steps σ α} {s s' : σ} {error : MemoryError}
    (e : attempt steps s = .error (.refused error) s') : False := by
  unfold attempt at e
  split at e
  · cases e
  · cases e
  · injection e with hfault
    cases hfault

/-- What was attempted and gave a result gives it. -/
theorem eq_ok_of_attempt {steps : Steps σ α} {s s' : σ} {a : α}
    (e : attempt steps s = .ok (.ok a) s') : steps s = .ok a s' := by
  unfold attempt at e
  cases hsteps : steps s with
  | ok b t =>
    rw [hsteps] at e
    injection e with hb ht
    injection hb with hb
    rw [hb, ht]
  | error f t =>
    rw [hsteps] at e
    cases f with
    | refused error =>
      injection e with hb
      cases hb
    | fault fault => cases e

/-- The result and the state that steps were seen to end with are as they are said to be. -/
theorem Ends.of_return {steps : Steps σ α} {s s' : σ} {result : Except MemoryError α}
    {ok : α → σ → Prop} {refused : MemoryError → σ → Prop}
    (h : Ends steps s ok (onReturn refused)) (e : attempt steps s = .ok result s') :
    match result with
    | .ok a => ok a s'
    | .error error => refused error s' := by
  unfold Ends at h
  unfold attempt at e
  cases hsteps : steps s with
  | ok a s₁ =>
    rw [hsteps] at h e
    cases e
    exact h
  | error f s₁ =>
    rw [hsteps] at h e
    cases f with
    | refused error =>
      cases e
      exact h
    | fault fault => cases e

theorem Ends.of_attempt {steps : Steps σ α} {s s' : σ} {result : Except MemoryError α}
    {ok : α → σ → Prop} {refused : MemoryError → σ → Prop}
    (h : Ends steps s ok (onOverflow refused)) (e : attempt steps s = .ok result s') :
    match result with
    | .ok a => ok a s'
    | .error error => refused error s' := h.at_return.of_return e

/-- The state is as it is said to be, whatever the result. -/
theorem Ends.state_of_return {steps : Steps σ α} {s s' : σ} {result : Except MemoryError α}
    {P : σ → Prop} (h : Ends steps s (fun _ s' => P s') (onReturn fun _ s' => P s'))
    (e : attempt steps s = .ok result s') : P s' := by
  have hends := h.of_return e
  cases result with
  | ok a => exact hends
  | error error => exact hends

theorem Ends.state_of_attempt {steps : Steps σ α} {s s' : σ} {result : Except MemoryError α}
    {P : σ → Prop} (h : Ends steps s (fun _ s' => P s') (onOverflow fun _ s' => P s'))
    (e : attempt steps s = .ok result s') : P s' := h.at_return.state_of_return e

end Steps

end KernelMemory
