/-
  KernelMemory.Proofs.Manager.Rejections — calls that are turned away leave everything as it is.

  Most errors are found before anything is done.  Kernel memory is mapped only after all its views
  were checked, and user memory only after its range and its space were, for which the processor
  goes to the kernel space and comes back.  What is left are the errors of the walk: a range that
  was checked can stop anywhere, and what was mapped before stays mapped.

  Main results:
    * `Intact` — tables, free frames, memory, spaces and roots are as they were;
    * `ends_perform_turnedAway` — which errors leave the machine so;
    * `turned_away_intact` — in every state processors reach, also between two sections.
-/

import KernelMemory.Proofs.Manager.System

namespace KernelMemory

open Machine Manager Steps

variable {format : Format} {config : Config} {stock stock' : Stock} {m m' m'' : Machine}
  {cpu : CpuId} {call : Call}

/-! ## What is left as it was -/

namespace Machine

/-- Tables, free frames, memory, address spaces, and the roots of all processors are as they were. -/
structure Intact (m m' : Machine) : Prop where
  table : ∀ id, m'.store.arena.get? id = m.store.arena.get? id
  find : ∀ frame, m'.store.arena.find? frame = m.store.arena.find? frame
  free : m'.store.frames.freeSet = m.store.frames.freeSet
  memory : ∀ address, m'.memory.read address = m.memory.read address
  census : m'.census = m.census
  root : ∀ cpu, (m'.cpu cpu).root = (m.cpu cpu).root
  saved : ∀ cpu, savedRoot m' cpu = savedRoot m cpu

theorem Intact.refl (m : Machine) : Intact m m :=
  ⟨fun _ => rfl, fun _ => rfl, rfl, fun _ => rfl, rfl, fun _ => rfl, fun _ => rfl⟩

theorem Quiet.intact (h : Quiet m m') (root : ∀ cpu, (m'.cpu cpu).root = (m.cpu cpu).root)
    (saved : ∀ cpu, savedRoot m' cpu = savedRoot m cpu) : Intact m m' where
  table := fun id => by rw [h.store.arena]
  find := fun frame => by rw [h.store.arena]
  free := by rw [h.store.frames]
  memory := fun address => by rw [h.memory]
  census := h.census
  root := root
  saved := saved

/-- Between two operations no table waits, so writing those that wait changes nothing. -/
theorem intact_of_commit (h : m.Sound format stock) {spaces : Spaces}
    (hspaces : m.spaces = some spaces) {count : Nat} (e : commit format m = .ok count m') :
    Intact m m' := by
  unfold commit at e
  cases hcommit : m.store.arena.commit format m.memory with
  | error fault =>
    rw [hcommit] at e
    cases e
  | ok done =>
    obtain ⟨count', arena, memory⟩ := done
    rw [hcommit] at e
    injection e with _ e
    subst e
    obtain ⟨htable, hmemory⟩ := Arena.commit_again (h.spaces hspaces).shaped h.settled hcommit
    exact ⟨htable, fun frame => by rw [Arena.find?, (Arena.unmarked_commit hcommit).byFrame]; rfl,
      rfl, hmemory, rfl, fun _ => rfl, fun _ => rfl⟩

end Machine

/-- The frames that are free follow from the tables and from what callers hold. -/
theorem Manager.Refrained.intact (h : Refrained stock m m') (hs : m.Sound format stock) : Intact m m' where
  table := fun id => by rw [h.calm.arena]
  find := fun frame => by rw [h.calm.arena]
  free := by
    have hledger := h.calm.ledger
    rw [h.calm.arena] at hledger
    ext f
    rw [hledger.mem_freeSet_iff, hs.ledger.mem_freeSet_iff]
  memory := fun address => by rw [h.calm.memory]
  census := h.calm.census
  root := h.same.root
  saved := fun cpu => by rw [savedRoot, h.same.noted]

/-! ## Which errors turn a call away -/

/-- The errors that a call is refused for before it does anything. -/
def Call.TurnedAway : Call → MemoryError → Prop
  | .mapKernel .., error => error ∈ [.notInitialized, .addressOutOfRange]
  | .mapUser .., error => error ∈ [.notActive, .notInitialized, .nestedKernelEntry,
      .unknownAddressSpace, .kernelSpace, .notUserAddress, .addressOutOfRange]
  | .createSpace, _ | .deleteSpace _, _ | .switchTo _, _ | .enterKernel, _ | .leaveKernel, _ => True
  | _, _ => False

/-- None of the errors that turn a request to map user memory away is one of the walk. -/
theorem Call.TurnedAway.not_ofWalk {range : UserRange} {error : MemoryError}
    (h : range.call.TurnedAway error) : ¬ error.OfWalk := by
  rintro (rfl | rfl | rfl)
  all_goals simp [UserRange.call, TurnedAway] at h

namespace Manager

/-- The steps end with a result, or leave the machine intact if they are turned away. -/
def ClearOf (call : Call) (steps : MachineSteps α) (m : Machine) : Prop :=
  Ends steps m (fun _ _ => True) fun f m' =>
    ∀ error, f = .refused error → call.TurnedAway error → Intact m m'

theorem clearOf_mapKernel {address size : Nat} {policy : CachePolicy} (h : m.Sound format stock) :
    ClearOf (.mapKernel address size policy) (mapKernel format config cpu address size policy) m := by
  refine (ends_mapKernel_views h).mono (fun _ _ _ => trivial) fun f m' hf error heq hturned => ?_
  rw [heq, onRefusal_refused] at hf
  rcases hf with ⟨-, rfl⟩ | ⟨spaces, hspaces, -, hwalk | ⟨-, count, hcommit⟩⟩
  · exact .refl m'
  · rcases hwalk with rfl | rfl | rfl
    all_goals simp [Call.TurnedAway] at hturned
  · exact intact_of_commit h hspaces hcommit

/-- A processor that is let into the kernel space was not in it. -/
theorem savedRoot_of_enterKernel (e : enterKernel cpu m = .ok () m') : savedRoot m cpu = none := by
  cases hsaved : savedRoot m cpu with
  | none => rfl
  | some root =>
    rw [enterKernel_nested hsaved] at e
    cases e

/-- Going to the kernel space and back, with nothing done in between. -/
theorem intact_of_back {kernel : PhysAddr} (henter : savedRoot m cpu = none) (hq : Quiet m m')
    (hthere : Switched cpu ⟨kernel, some (m.cpu cpu).root⟩ m m') (hq' : Quiet m' m'')
    (hback : Switched cpu ⟨(m.cpu cpu).root, none⟩ m' m'') : Intact m m'' := by
  refine (hq.trans hq').intact (fun other => ?_) fun other => ?_
  · by_cases hother : other = cpu
    · rw [hother, hback.root]
    · rw [hback.others hother, hthere.others hother]
  · rw [savedRoot, hback.noted]
    split
    · rename_i hother
      rw [hother, henter]
      rfl
    · rename_i hother
      rw [hthere.noted, if_neg hother]

theorem clearOf_mapUser (range : UserRange) (h : m.Sound format stock) (hplaced : m.Placed) :
    ClearOf range.call
      (mapUser format config cpu range.space range.virt range.phys range.size) m := by
  unfold ClearOf
  rw [mapUser_eq_sections, ends_bind, ends_activeRoot]
  split
  · exact fun _ _ _ => .refl m
  · rw [ends_bind]
    refine (ends_enterKernel.and (ends_self _ _)).mono (fun _ m₁ hm₁ => ?_) fun f m₁ hm₁ => ?_
    · obtain ⟨⟨hq, spaces, hspaces, hthere⟩, henter⟩ := hm₁
      have hplaced₁ := placed_enter hplaced hq hspaces hthere
      have hsaved₁ := savedRoot_of_moved hthere.toMoved
      -- wherever mapping left the machine, its error is handed on
      have hback : ∀ {m₂ : Machine} (result : Except MemoryError Unit),
          MappedUser format range.space range.virt range.phys m₁ m₂ ∧ SameRoots m₁ m₂ →
          (∀ error, result = .error error → m₂ = m₁ ∨ error.OfWalk) →
          Ends (finishUser cpu range.virt range.size result) m₂ (fun _ _ => True) fun f m' =>
            ∀ error, f = .refused error → range.call.TurnedAway error → Intact m m' := by
        intro m₂ result hmapped hearly
        obtain ⟨htables, hsame⟩ := hmapped
        have hsaved₂ : savedRoot m₂ cpu = some (m.cpu cpu).root := by
          rw [savedRoot, hsame.noted]
          exact hsaved₁
        refine (ends_finishUser_result (placed_of_census hplaced₁ htables.census hsame) hsaved₂).mono
          (fun _ _ _ => trivial) fun f m' hf error heq hturned => ?_
        rw [heq, onOverflow_refused] at hf
        obtain ⟨⟨hq₂, hswitched⟩, hresult⟩ := hf
        obtain rfl := (hearly error hresult).resolve_right hturned.not_ofWalk
        exact intact_of_back (savedRoot_of_enterKernel henter) hq hthere hq₂ hswitched
      have hsound := hq.sound h
      rw [ends_bind, ends_attempt]
      refine ((ends_mapTask_request hsound).and (ends_mapTask hsound)).mono
        (fun _ m₂ h₂ => hback (.ok ()) h₂.2 fun _ heq => by cases heq) fun f m₂ h₂ => ?_
      cases f with
      | refused error =>
        refine hback (.error error) h₂.2 fun other heq => ?_
        injection heq with heq
        rw [← heq]
        exact h₂.1.imp_right And.left
      | fault fault => exact h₂.1.elim
    · cases f with
      | refused error =>
        obtain rfl := hm₁.1
        exact fun _ _ _ => .refl m₁
      | fault fault => exact hm₁.1.elim

/-- The errors that turn a call away leave the machine intact. -/
theorem clearOf_perform (h : m.Sound format stock) (hplaced : m.Placed) (call : Call) :
    ClearOf call (perform format config cpu call) m := by
  -- what is refused without a trace is so whatever the error
  have hall : ∀ {α : Type} {steps : MachineSteps α} (answer : α → Answer) {ok : α → Machine → Prop},
      Ends steps m ok (onRefusal fun _ m' => Intact m m') →
      ClearOf call (do return answer (← steps)) m := by
    intro α steps answer ok hends
    unfold ClearOf
    rw [ends_bind]
    refine hends.mono (fun _ _ _ => trivial) fun f m' hf error heq _ => ?_
    rw [heq] at hf
    exact hf
  -- other calls have no such errors
  have hother : (∀ error, ¬ call.TurnedAway error) → ClearOf call (perform format config cpu call) m :=
    fun hnone => ends_of_forall (fun _ _ => trivial) fun _ _ error _ hturned =>
      absurd hturned (hnone error)
  cases call with
  | mapKernel address size policy =>
    unfold ClearOf
    rw [perform, ends_bind]
    exact (clearOf_mapKernel h).mono (fun _ _ _ => trivial) fun _ _ hf => hf
  | mapUser space virt phys size =>
    unfold ClearOf
    rw [perform, ends_bind]
    exact (clearOf_mapUser ⟨space, virt, phys, size⟩ h hplaced).mono
      (fun _ _ _ => trivial) fun _ _ hf => hf
  | createSpace => exact hall .space ((ends_createSpace h).weaken (fun _ _ hm => hm) fun _ _ hm => hm.1.intact h)
  | deleteSpace space =>
    refine hall (fun _ => .done) ((ends_deleteSpace h hplaced).weaken (fun _ _ hm => hm) ?_)
    rintro _ m' ⟨rfl, -⟩
    exact .refl m'
  | enterKernel =>
    refine hall (fun _ => .done) (ends_enterKernel.weaken (fun _ _ hm => hm) ?_)
    rintro _ m' rfl
    exact .refl m'
  | leaveKernel =>
    refine hall (fun _ => .done) ((ends_leaveKernel hplaced).weaken (fun _ _ hm => hm) ?_)
    rintro _ m' ⟨rfl, -⟩
    exact .refl m'
  | switchTo space =>
    refine hall (fun _ => .done) ((ends_switchTo h).weaken (fun _ _ hm => hm) ?_)
    rintro _ m' rfl
    exact .refl m'
  | _ => exact hother fun _ => id

end Manager

/-! ## States -/

/-- In every state that processors reach, a call that is turned away leaves everything as it is; and
so does the section that maps user memory, if others come in between it and the rest of its call. -/
theorem turned_away_intact {poolPages : Nat} {s : System}
    (h : Reachable format config AnyCall poolPages s) {error : MemoryError}
    (turned : call.TurnedAway error) :
    (∀ {m'}, perform format config cpu call s.machine = .error (.refused error) m' →
        Intact s.machine m')
      ∧ ∀ {range : UserRange} {s' : System}, call = range.call →
        Step format config AnyCall cpu (.map range) s s' →
        s'.stage cpu = .mapped range (.error error) → s'.machine = s.machine := by
  refine ⟨fun e => ?_, fun {range s'} hcall hstep hstage => ?_⟩
  · exact (clearOf_perform h.sound.machine h.sound.placed call).of_error e error rfl turned
  · subst hcall
    cases hstep with
    | @map _ _ result m' stage ends =>
      simp only [Function.update_self, Stage.mapped.injEq, true_and] at hstage
      subst hstage
      have hends := (ends_mapTask_request h.sound.machine).overflow.of_attempt ends
      exact hends.resolve_right fun hwalk => turned.not_ofWalk hwalk.1

/-- For instance, the first address beyond reach is turned away once the manager is started. -/
theorem turned_away_beyond_reach : ∃ s m', Reachable .narrow {} AnyCall 0 s
    ∧ (Call.mapKernel (2 ^ 32) frameSize .writeBack).TurnedAway .addressOutOfRange
    ∧ perform .narrow {} 0 (.mapKernel (2 ^ 32) frameSize .writeBack) s.machine
      = .error (.refused .addressOutOfRange) m'
    ∧ Intact s.machine m' := by
  obtain ⟨m, stock, h, -, spaces, hspaces, -⟩ : ∃ m stock, Answered .narrow {} AnyCall 0
      [(0, .initFrames smallMap), (0, .init smallMap [])] m stock ∧ _ ∧ _ :=
    exists_started_smallMap rfl trivial trivial
  have hsound := h.reachable.sound.machine
  have hviews : mapViews .narrow {} ⟨spaces.kernelTable, true⟩ (2 ^ 32) frameSize .writeBack m.store
      = .error (.refused .addressOutOfRange) m.store := rfl
  have hattempt : attempt (onStore (mapViews .narrow {} ⟨spaces.kernelTable, true⟩ (2 ^ 32) frameSize
      .writeBack)) m = .ok (.error .addressOutOfRange) m := by
    simp only [attempt, onStore, hviews]
  obtain ⟨count, m', hcommit, -⟩ := exists_of_ends (ends_commit (m := m)
    ⟨hsound.ledger, (hsound.spaces hspaces).shaped⟩ hsound.settled.synced (fun _ _ => True)
    (fun _ _ => False) fun _ _ _ _ _ => trivial)
  have hcall : perform .narrow {} 0 (.mapKernel (2 ^ 32) frameSize .writeBack) m
      = .error (.refused .addressOutOfRange) m' := by
    refine bind_of_error ?_
    rw [mapKernel_eq, bind_of_ok (started_of_some hspaces), bind_of_ok hattempt, finishKernel,
      bind_of_ok hcommit]
    rfl
  have hturned : (Call.mapKernel (2 ^ 32) frameSize .writeBack).TurnedAway .addressOutOfRange := by
    simp [Call.TurnedAway]
  exact ⟨_, m', h.reachable, hturned, hcall, (turned_away_intact h.reachable hturned).1 hcall⟩

end KernelMemory
