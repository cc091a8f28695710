/-
  KernelMemory.Proofs.Interrupts — what becomes of the interrupt flag, in whatever order guards
  are dropped.

  A guard takes note of the flag and clears it; when it is dropped, it sets the flag if it was set
  then.  So a flag that was set at the start is neither doubled nor lost: either it is set, or one
  guard has it.  Dropping that guard sets it, also where other guards are alive, and one of them
  may hold a lock.

  Main results:
    * `effect_of_perform` — what a call can do, and nothing else;
    * `interrupts_come_back` — without guards, the flag is as it was at the start;
    * `off_unless_exposed` — the one way to enable interrupts while a lock is held;
    * `enabled_under_lock` — a run that does.
-/

import Mathlib.Data.List.Induction
import KernelMemory.Lock

namespace KernelMemory

/-- What a processor does with locks and guards. -/
inductive SectionCall where
  /-- Make a bare interrupt guard. -/
  | disable
  /-- Take a lock. -/
  | acquire (lock : LockId)
  /-- Take a lock if it is free. -/
  | tryAcquire (lock : LockId)
  /-- Drop a guard. -/
  | drop (name : Nat)
  deriving DecidableEq, Repr

namespace Sections

variable {initial : Bool} {s t : Sections} {name : Nat} {guard : Guard} {call : SectionCall}
  {calls : List SectionCall} {newer older : List (Nat × Guard)}

/-! ## Runs -/

/-- Makes a call.  Taking a lock that is held on the same processor never ends. -/
def perform (s : Sections) : SectionCall → Option Sections
  | .disable => some s.disable
  | .acquire lock => s.acquire lock
  | .tryAcquire lock => some (s.tryAcquire lock).2
  | .drop name => some (s.drop name)

/-- Makes calls one after another. -/
def run (s : Sections) (calls : List SectionCall) : Option Sections := calls.foldlM perform s

/-- A run comes to a state, between two of its calls or at an end. -/
def Visits (s : Sections) (calls : List SectionCall) (t : Sections) : Prop :=
  ∃ before after, calls = before ++ after ∧ s.run before = some t

/-- A run makes a call in a state. -/
def Makes (s : Sections) (calls : List SectionCall) (t : Sections) (call : SectionCall) : Prop :=
  ∃ before after, calls = before ++ call :: after ∧ s.run before = some t

theorem run_append_singleton (s : Sections) (calls : List SectionCall) (call : SectionCall) :
    s.run (calls ++ [call]) = (s.run calls).bind fun t => t.perform call := by
  simp [run]

/-- What a call leads to is visited. -/
theorem Makes.visits (h : s.Makes calls t call) {u : Sections} (e : t.perform call = some u) :
    s.Visits calls u := by
  obtain ⟨before, after, rfl, hrun⟩ := h
  refine ⟨before ++ [call], after, (List.append_cons before call after), ?_⟩
  rw [run_append_singleton, hrun]
  exact e

/-- What holds at the start and is kept by every call that the run makes holds all the way. -/
theorem Visits.induction {Holds : Sections → Prop} (h : s.Visits calls t) (start : Holds s)
    (keeps : ∀ {t u : Sections} {call : SectionCall}, s.Makes calls t call → Holds t →
      t.perform call = some u → Holds u) : Holds t := by
  obtain ⟨before, after, heq, hrun⟩ := h
  -- induction on the calls made so far; those to come stay, so that the calls are still the run's
  induction before using List.reverseRecOn generalizing after t with
  | nil =>
    cases hrun
    exact start
  | append_singleton before call ih =>
    rw [run_append_singleton, Option.bind_eq_some_iff] at hrun
    obtain ⟨u, hu, e⟩ := hrun
    rw [← List.append_cons] at heq
    exact keeps ⟨before, after, heq, hu⟩ (ih (call :: after) heq hu) e

/-! ## What a call does -/

/-- Every guard has a name of its own, and the next one will have a new name. -/
structure Named (s : Sections) : Prop where
  distinct : s.guards.Pairwise fun a b => a.1 ≠ b.1
  used : ∀ entry ∈ s.guards, entry.1 < s.next

theorem named_start (initial : Bool) : (start initial).Named := ⟨.nil, nofun⟩

theorem drop_of_gone (h : s.guards.lookup name = none) : s.drop name = s := by
  rw [drop, h]

/-- Names tell guards apart. -/
theorem Named.ne_of_alive (h : s.Named) (alive : s.guards = newer ++ (name, guard) :: older) :
    (∀ entry ∈ newer, entry.1 ≠ name) ∧ ∀ entry ∈ older, entry.1 ≠ name := by
  have hdistinct := h.distinct
  rw [alive, List.pairwise_append, List.pairwise_cons] at hdistinct
  obtain ⟨-, ⟨holder, -⟩, hnewer⟩ := hdistinct
  exact ⟨fun entry he => hnewer entry he (name, guard) List.mem_cons_self,
    fun entry he => (holder entry he).symm⟩

theorem Named.lookup_eq (h : s.Named) (alive : s.guards = newer ++ (name, guard) :: older) :
    s.guards.lookup name = some guard :=
  List.lookup_eq_some_iff.mpr ⟨newer, older, alive, fun entry he =>
    bne_iff_ne.mpr ((h.ne_of_alive alive).1 entry he).symm⟩

/-- Dropping a guard removes it and no other. -/
theorem Named.drop_eq (h : s.Named) (alive : s.guards = newer ++ (name, guard) :: older) :
    s.drop name = ⟨guard.wereEnabled || s.interrupts, newer ++ older, s.next⟩ := by
  obtain ⟨hnewer, holder⟩ := h.ne_of_alive alive
  have hfilter : s.guards.filter (fun entry => entry.1 != name) = newer ++ older := by
    rw [alive, List.filter_append, List.filter_cons_of_neg (by simp),
      List.filter_eq_self.mpr fun entry he => bne_iff_ne.mpr (hnewer entry he),
      List.filter_eq_self.mpr fun entry he => bne_iff_ne.mpr (holder entry he)]
  rw [drop, h.lookup_eq alive, hfilter]

/-- The guards that are left. -/
theorem sublist_of_alive (alive : s.guards = newer ++ (name, guard) :: older) :
    (newer ++ older).Sublist s.guards := by
  rw [alive]
  exact (List.Sublist.refl newer).append (List.sublist_cons_self _ older)

/-- A new guard has a new name. -/
theorem Named.push (h : s.Named) (lock : Option LockId) : (s.push lock).Named where
  distinct := List.pairwise_cons.mpr
    ⟨fun entry he => (Nat.ne_of_lt (h.used entry he)).symm, h.distinct⟩
  used := fun entry he => by
    rcases List.mem_cons.mp he with rfl | he
    · exact Nat.lt_succ_self _
    · exact Nat.lt_succ_of_lt (h.used entry he)

/-- A guard that is dropped at once leaves everything as it was, but for its name. -/
theorem Named.drop_push (h : s.Named) (lock : Option LockId) :
    (s.push lock).drop s.next = { s with next := s.next + 1 } := by
  have halive : (s.push lock).guards = [] ++ (s.next, ⟨s.interrupts, lock⟩) :: s.guards := rfl
  rw [(h.push lock).drop_eq halive]
  simp [Sections.push]

/-- What a call comes to. -/
inductive Effect (s : Sections) : SectionCall → Sections → Prop where
  /-- A guard is made. -/
  | made {call : SectionCall} (lock : Option LockId) : Effect s call (s.push lock)
  /-- A lock was not free. -/
  | passed {call : SectionCall} : Effect s call { s with next := s.next + 1 }
  /-- A guard was dropped before. -/
  | gone {call : SectionCall} : Effect s call s
  /-- A guard is dropped. -/
  | dropped {name : Nat} {guard : Guard} {newer older : List (Nat × Guard)}
      (alive : s.guards = newer ++ (name, guard) :: older) :
      Effect s (.drop name) ⟨guard.wereEnabled || s.interrupts, newer ++ older, s.next⟩

/-- A call does one of these things. -/
theorem effect_of_perform (h : s.Named) (e : s.perform call = some t) : Effect s call t := by
  cases call with
  | disable =>
    cases e
    exact .made none
  | acquire lock =>
    simp only [perform, acquire] at e
    split at e
    · cases e
    · cases e
      exact .made (some lock)
  | tryAcquire lock =>
    cases e
    unfold tryAcquire
    split
    · show Effect s _ ((s.push none).drop s.next)
      rw [h.drop_push]
      exact .passed
    · exact .made (some lock)
  | drop name =>
    cases e
    cases hlookup : s.guards.lookup name with
    | none =>
      rw [drop_of_gone hlookup]
      exact .gone
    | some guard =>
      obtain ⟨newer, older, halive, -⟩ := List.lookup_eq_some_iff.mp hlookup
      rw [h.drop_eq halive]
      exact .dropped halive

/-! ## The flag and who has it -/

/-- The flag of the start is set, or one guard has it; without it, neither is the case. -/
structure Kept (initial : Bool) (s : Sections) : Prop where
  named : s.Named
  flag : s.guards.countP (fun entry => entry.2.wereEnabled) + s.interrupts.toNat = initial.toNat

theorem kept_start (initial : Bool) : Kept initial (start initial) :=
  ⟨named_start initial, Nat.zero_add _⟩

theorem Effect.named (e : Effect s call t) (h : s.Named) : t.Named := by
  cases e with
  | made lock => exact h.push lock
  | passed => exact ⟨h.distinct, fun entry he => Nat.lt_succ_of_lt (h.used entry he)⟩
  | gone => exact h
  | @dropped name guard newer older alive =>
    have hsub := sublist_of_alive alive
    exact ⟨h.distinct.sublist hsub, fun entry he => h.used entry (hsub.subset he)⟩

/-- A guard that is made takes the flag over, and one that is dropped gives it back. -/
theorem Effect.kept (e : Effect s call t) (h : Kept initial s) : Kept initial t := by
  refine ⟨e.named h.named, ?_⟩
  have hflag := h.flag
  cases e with
  | made lock =>
    show List.countP _ ((s.next, ⟨s.interrupts, lock⟩) :: s.guards) + 0 = initial.toNat
    rw [List.countP_cons]
    cases hs : s.interrupts <;> simp [hs] at hflag ⊢ <;> omega
  | passed => exact hflag
  | gone => exact hflag
  | @dropped name guard newer older alive =>
    rw [alive, List.countP_append, List.countP_cons] at hflag
    -- the flag is not set while the guard has it
    have hone : initial.toNat ≤ 1 := Bool.toNat_le initial
    show List.countP _ (newer ++ older) + (guard.wereEnabled || s.interrupts).toNat = initial.toNat
    rw [List.countP_append]
    cases hg : guard.wereEnabled <;> cases hs : s.interrupts <;>
      simp [hg, hs] at hflag ⊢ <;> omega

theorem Visits.kept (h : (start initial).Visits calls t) : Kept initial t :=
  h.induction (kept_start initial) fun _ hkept e => (effect_of_perform hkept.named e).kept hkept

/-- Once no guard is alive the flag is as it was at the start; and a flag that was not set then is
never set on the way. -/
theorem interrupts_come_back (h : (start initial).Visits calls t) :
    (t.guards = [] → t.interrupts = initial) ∧ (initial = false → t.interrupts = false) := by
  have hflag := h.kept.flag
  refine ⟨fun hnone => ?_, fun hoff => ?_⟩
  · rw [hnone, List.countP_nil, Nat.zero_add] at hflag
    cases initial <;> cases hs : t.interrupts <;> simp [hs] at hflag ⊢
  · rw [hoff, Bool.toNat_false, Nat.add_eq_zero_iff] at hflag
    exact Bool.toNat_eq_zero.mp hflag.2

/-- Guards of two locks and a bare one between them, dropped the first one first; an attempt on a
lock that is held. -/
theorem interrupts_come_back_tangled : ∃ t,
    (start true).Visits [.acquire 0, .disable, .acquire 1, .tryAcquire 0, .drop 0, .drop 2, .drop 1] t
      ∧ t.guards = [] ∧ t.interrupts = true := by
  obtain ⟨t, hvisits, hnone⟩ : ∃ t,
      (start true).Visits
        [.acquire 0, .disable, .acquire 1, .tryAcquire 0, .drop 0, .drop 2, .drop 1] t
        ∧ t.guards = [] := ⟨_, ⟨_, [], (List.append_nil _).symm, rfl⟩, rfl⟩
  exact ⟨t, hvisits, hnone, (interrupts_come_back hvisits).1 hnone⟩

/-! ## Interrupts while a lock is held -/

/-- A lock is held. -/
def HoldsLock (s : Sections) : Prop := ∃ lock, s.isHeld lock = true

/-- To drop this guard is to enable interrupts while a lock is held: when the guard was made they
were enabled, and another guard holds a lock. -/
def Exposes (s : Sections) (name : Nat) : Prop :=
  ∃ guard, s.guards.lookup name = some guard ∧ guard.wereEnabled = true ∧ (s.drop name).HoldsLock

theorem HoldsLock.of_subset (h : t.HoldsLock) (hsub : t.guards ⊆ s.guards) : s.HoldsLock := by
  obtain ⟨lock, hheld⟩ := h
  obtain ⟨entry, he, heq⟩ := List.any_eq_true.mp hheld
  exact ⟨lock, List.any_eq_true.mpr ⟨entry, hsub he, heq⟩⟩

/-- What is exposed is a lock held with interrupts enabled. -/
theorem Exposes.enabled (h : s.Exposes name) :
    (s.drop name).HoldsLock ∧ (s.drop name).interrupts = true := by
  obtain ⟨guard, hlookup, hsaw, hheld⟩ := h
  refine ⟨hheld, ?_⟩
  rw [drop, hlookup]
  show (guard.wereEnabled || s.interrupts) = true
  rw [hsaw, Bool.true_or]

/-- Interrupts are disabled if a lock is held. -/
structure Covered (s : Sections) : Prop where
  named : s.Named
  off : s.HoldsLock → s.interrupts = false

theorem covered_start (initial : Bool) : (start initial).Covered :=
  ⟨named_start initial, fun ⟨_, hheld⟩ => nomatch hheld⟩

/-- Only dropping a guard enables interrupts, and only if they were enabled when it was made. -/
theorem Covered.perform (h : s.Covered) (e : s.perform call = some t)
    (hide : ∀ name, call = .drop name → ¬ s.Exposes name) : t.Covered := by
  have heffect := effect_of_perform h.named e
  refine ⟨heffect.named h.named, fun hheld => ?_⟩
  cases heffect with
  | made lock => rfl
  | passed => exact h.off hheld
  | gone => exact h.off hheld
  | @dropped name guard newer older alive =>
    cases hsaw : guard.wereEnabled with
    | false => exact h.off (hheld.of_subset (sublist_of_alive alive).subset)
    | true =>
      refine absurd ⟨guard, h.named.lookup_eq alive, hsaw, ?_⟩ (hide name rfl)
      rw [h.named.drop_eq alive]
      exact hheld

/-- So interrupts are disabled while a lock is held, if no guard is dropped that exposes one. -/
theorem Visits.covered (h : (start initial).Visits calls t)
    (hide : ∀ t name, (start initial).Makes calls t (.drop name) → ¬ t.Exposes name) :
    t.Covered := by
  refine h.induction (covered_start initial) fun {u v call} hmakes hcovered e => ?_
  refine hcovered.perform e ?_
  rintro name rfl
  exact hide u name hmakes

/-! ## Guards dropped newest first -/

/-- Interrupts are disabled under guards, and only the oldest guard can have found them enabled. -/
structure Stacked (s : Sections) : Prop where
  named : s.Named
  off : s.guards ≠ [] → s.interrupts = false
  inner : ∀ entry ∈ s.guards.dropLast, entry.2.wereEnabled = false

theorem stacked_start (initial : Bool) : (start initial).Stacked :=
  ⟨named_start initial, fun hne => absurd rfl hne, nofun⟩

theorem Stacked.push (h : s.Stacked) (lock : Option LockId) : (s.push lock).Stacked where
  named := h.named.push lock
  off := fun _ => rfl
  inner := fun entry he => by
    by_cases hnone : s.guards = []
    · rw [show (s.push lock).guards = (s.next, ⟨s.interrupts, lock⟩) :: s.guards from rfl,
        hnone] at he
      cases he
    · rw [show (s.push lock).guards = (s.next, ⟨s.interrupts, lock⟩) :: s.guards from rfl,
        List.dropLast_cons_of_ne_nil hnone] at he
      rcases List.mem_cons.mp he with rfl | he
      · exact h.off hnone
      · exact h.inner entry he

/-- The newest guard found interrupts enabled only if it is the only one. -/
theorem Stacked.drop_newest (h : s.Stacked) (newest : s.guards = (name, guard) :: older) :
    (s.drop name).Stacked := by
  have halive : s.guards = [] ++ (name, guard) :: older := newest
  have hoff : s.interrupts = false := h.off (by rw [newest]; exact List.cons_ne_nil _ _)
  have hinner := h.inner
  have hnamed : (s.drop name).Named := by
    rw [h.named.drop_eq halive]
    exact (Effect.dropped halive).named h.named
  rw [h.named.drop_eq halive] at hnamed ⊢
  cases older with
  | nil => exact ⟨hnamed, fun hne => absurd rfl hne, nofun⟩
  | cons next rest =>
    rw [newest, List.dropLast_cons_of_ne_nil (List.cons_ne_nil next rest)] at hinner
    have hsaw : guard.wereEnabled = false := hinner (name, guard) List.mem_cons_self
    refine ⟨hnamed, fun _ => ?_, fun entry he => hinner entry (List.mem_cons_of_mem _ he)⟩
    show (guard.wereEnabled || s.interrupts) = false
    rw [hsaw, hoff, Bool.or_false]

theorem Visits.stacked (h : (start initial).Visits calls t)
    (newest : ∀ t name, (start initial).Makes calls t (.drop name) →
      ∃ guard older, t.guards = (name, guard) :: older) : t.Stacked := by
  refine h.induction (stacked_start initial) fun {u v call} hmakes hstacked e => ?_
  cases effect_of_perform hstacked.named e with
  | made lock => exact hstacked.push lock
  | passed =>
    have hnamed := (effect_of_perform hstacked.named e).named hstacked.named
    exact ⟨hnamed, hstacked.off, hstacked.inner⟩
  | gone => exact hstacked
  | @dropped name guard newer older alive =>
    obtain ⟨_, _, hnewest⟩ := newest u name hmakes
    rw [← hstacked.named.drop_eq alive]
    exact hstacked.drop_newest hnewest

/-- Interrupts are disabled while a lock is held, all the way of a run, exactly if the run never drops
a guard that was made with interrupts enabled while another guard holds a lock.  It does not if it
drops guards newest first; then interrupts are disabled under bare guards too. -/
theorem off_unless_exposed (initial : Bool) (calls : List SectionCall) :
    ((∀ t, (start initial).Visits calls t → t.HoldsLock → t.interrupts = false)
      ↔ ∀ t name, (start initial).Makes calls t (.drop name) → ¬ t.Exposes name)
    ∧ ((∀ t name, (start initial).Makes calls t (.drop name) →
          ∃ guard older, t.guards = (name, guard) :: older) →
        ∀ t, (start initial).Visits calls t → t.guards ≠ [] → t.interrupts = false) := by
  refine ⟨⟨fun hoff t name hmakes hexposes => ?_, fun hide t hvisits => ?_⟩, fun newest t hvisits => ?_⟩
  · obtain ⟨hheld, henabled⟩ := hexposes.enabled
    rw [hoff _ (hmakes.visits rfl) hheld] at henabled
    cases henabled
  · exact (hvisits.covered hide).off
  · exact (hvisits.stacked newest).off

/-- A lock and a bare guard inside it, which is dropped first. -/
theorem off_unless_exposed_nested : ∃ t,
    (start true).Visits [.acquire 0, .disable, .drop 1, .drop 0] t ∧ t.HoldsLock
      ∧ t.guards ≠ [] ∧ t.interrupts = false := by
  have newest : ∀ t name,
      (start true).Makes [.acquire 0, .disable, .drop 1, .drop 0] t (.drop name) →
        ∃ guard older, t.guards = (name, guard) :: older := by
    rintro t name ⟨before, after, heq, hrun⟩
    match before, heq with
    | [_, _], heq => cases heq; cases hrun; exact ⟨_, _, rfl⟩
    | [_, _, _], heq => cases heq; cases hrun; exact ⟨_, _, rfl⟩
    | [], heq => cases heq
    | [_], heq => cases heq
    | _ :: _ :: _ :: _ :: rest, heq => simp at heq
  obtain ⟨t, hvisits, hheld, hsome⟩ : ∃ t,
      (start true).Visits [.acquire 0, .disable, .drop 1, .drop 0] t ∧ t.HoldsLock
        ∧ t.guards ≠ [] := ⟨_, ⟨[.acquire 0, .disable, .drop 1], _, rfl, rfl⟩, ⟨0, rfl⟩, nofun⟩
  exact ⟨t, hvisits, hheld, hsome, (off_unless_exposed true _).2 newest t hvisits hsome⟩

/-- The locks 0 and 1 are taken and the guard of lock 0 is dropped: then interrupts are enabled, and
lock 1 is held. -/
theorem enabled_under_lock : ∃ t,
    (start true).run [.acquire 0, .acquire 1, .drop 0] = some t ∧ t.isHeld 1 = true
      ∧ t.interrupts = true := ⟨_, rfl, rfl, rfl⟩

end Sections

end KernelMemory
