/-
  KernelMemory.Proofs.Manager.KernelEntry — processors in the kernel space, and back.

  A processor enters the kernel space in a call of its own, or on the way of mapping user memory,
  and leaves it again.  The roots that processors go back to are in one table that all of them
  change, and a root is loaded only where another one is in use.  Still each processor finds its
  own way back, whatever the others do in the meantime, and the root that is published is the last
  one that was loaded.

  Main results:
    * `InKernel.step` — a processor in the kernel space stays there until it leaves;
    * `Step.feed` — what a step publishes;
    * `kernel_entries` — how processors enter and leave, in every state of every run.
-/

import KernelMemory.Proofs.Manager.TableFrames

namespace KernelMemory

open Machine Manager Steps TableStore

/-! ## Where a processor is turned away -/

namespace Manager

variable {format : Format} {config : Config} {m m' : Machine} {cpu : CpuId} {root : PhysAddr}

theorem perform_enterKernel_nested (h : savedRoot m cpu = some root) :
    perform format config cpu .enterKernel m = .error (.refused .nestedKernelEntry) m := by
  show (enterKernel cpu >>= fun _ => pure Answer.done) m = _
  exact bind_of_error (enterKernel_nested h)

theorem inKernel_of_savedRoot {spaces : Spaces} (hspaces : m.spaces = some spaces) :
    spaces.inKernel cpu = true ↔ ∃ root, savedRoot m cpu = some root := by
  rw [savedRoot, roots?_of_some hspaces]
  exact Option.isSome_iff_exists

theorem exists_spaces_of_savedRoot (h : savedRoot m cpu = some root) :
    ∃ spaces, m.spaces = some spaces := by
  cases hspaces : m.spaces with
  | none =>
    rw [savedRoot, roots?, hspaces] at h
    cases h
  | some spaces => exact ⟨spaces, rfl⟩

theorem perform_switchTo_nested (h : savedRoot m cpu = some root) (space : AddressSpace) :
    perform format config cpu (.switchTo space) m = .error (.refused .nestedKernelEntry) m := by
  obtain ⟨spaces, hspaces⟩ := exists_spaces_of_savedRoot h
  have hin : spaces.inKernel cpu = true := (inKernel_of_savedRoot hspaces).mpr ⟨root, h⟩
  show (switchTo cpu space >>= fun _ => pure Answer.done) m = _
  apply bind_of_error
  rw [switchTo_eq, Locked.switchTo, bind_of_ok (started_of_some hspaces), if_pos hin]
  rfl

/-- User memory is not mapped from the kernel space: another root is in use, or there is no way to
enter again. -/
theorem perform_mapUser_nested (h : savedRoot m cpu = some root) (range : UserRange) :
    ∃ error, (error = .notActive ∨ error = .nestedKernelEntry)
      ∧ perform format config cpu range.call m = .error (.refused error) m := by
  have hmap : ∃ error, (error = .notActive ∨ error = .nestedKernelEntry)
      ∧ mapUser format config cpu range.space range.virt range.phys range.size m
        = .error (.refused error) m := by
    have hroot : activeRoot cpu m = .ok (m.cpu cpu).root m := rfl
    unfold mapUser
    rw [bind_of_ok hroot]
    split
    · exact ⟨.notActive, .inl rfl, rfl⟩
    · exact ⟨.nestedKernelEntry, .inr rfl, bind_of_error (enterKernel_nested h)⟩
  obtain ⟨error, herror, e⟩ := hmap
  exact ⟨error, herror, bind_of_error e⟩

/-! ## What a processor is turned away for -/

/-- Before the manager is started, no processor is in the kernel space. -/
theorem ends_started_then {α : Type} {next : Spaces → MachineSteps α} {P : Prop}
    (h : ∀ spaces, m.spaces = some spaces → Ends (next spaces) m (fun _ _ => True)
      (fun f _ => f = .refused .nestedKernelEntry → P)) :
    Ends (started >>= next) m (fun _ _ => True)
      (fun f _ => f = .refused .nestedKernelEntry → P) := by
  rw [ends_bind]
  cases hspaces : m.spaces with
  | none =>
    unfold Ends started
    rw [bind_of_ok (show (get : MachineSteps Machine) m = .ok m m from rfl), hspaces]
    exact fun heq => nomatch heq
  | some spaces =>
    rw [ends_started_some hspaces]
    exact h spaces hspaces

theorem ends_enterKernel_nested :
    Ends (enterKernel cpu) m (fun _ _ => True)
      (fun f _ => f = .refused .nestedKernelEntry → ∃ root, savedRoot m cpu = some root) := by
  rw [enterKernel_eq]
  unfold Locked.enterKernel
  apply ends_started_then
  intro spaces hspaces
  split
  · rename_i hin
    exact fun _ => (inKernel_of_savedRoot hspaces).mp hin
  · rw [ends_bind, ends_activeRoot, ends_bind, ends_setSpaces]
    split
    · rw [ends_load]
      trivial
    · trivial

theorem ends_switchTo_nested {space : AddressSpace} :
    Ends (switchTo cpu space) m (fun _ _ => True)
      (fun f _ => f = .refused .nestedKernelEntry → ∃ root, savedRoot m cpu = some root) := by
  rw [switchTo_eq]
  unfold Locked.switchTo
  apply ends_started_then
  intro spaces hspaces
  split
  · rename_i hin
    exact fun _ => (inKernel_of_savedRoot hspaces).mp hin
  · rw [ends_bind, ends_get]
    split
    · exact fun heq => nomatch heq
    · rw [ends_bind, ends_activeRoot]
      split
      · rw [ends_load]
        trivial
      · trivial

/-- Once a processor is let in, mapping user memory is not refused for that any more. -/
theorem ends_mapUser_nested {space : AddressSpace} {virt phys size : Nat} :
    Ends (mapUser format config cpu space virt phys size) m (fun _ _ => True)
      (fun f _ => f = .refused .nestedKernelEntry → ∃ root, savedRoot m cpu = some root) := by
  unfold mapUser
  rw [ends_bind, ends_activeRoot]
  split
  · exact fun heq => nomatch heq
  · rw [ends_bind]
    refine ends_enterKernel_nested.mono (fun _ m₁ _ => ?_) fun _ _ h => h
    refine (draws_mapInside m₁).mono (fun _ _ _ => trivial) fun f _ hf heq => ?_
    exact absurd rfl (hf.2 .nestedKernelEntry heq)

/-- A call is refused for being in the kernel space already only where the processor is. -/
theorem savedRoot_of_perform {call : Call} (words : call.Words)
    (e : perform format config cpu call m = .error (.refused .nestedKernelEntry) m') :
    ∃ root, savedRoot m cpu = some root := by
  have haway : call.turnedAway := (turned_perform words).of_error e rfl
  have hends : ∀ {steps : MachineSteps Unit},
      Ends steps m (fun _ _ => True)
        (fun f _ => f = .refused .nestedKernelEntry → ∃ root, savedRoot m cpu = some root) →
      Ends (steps >>= fun _ => pure Answer.done) m (fun _ _ => True)
        (fun f _ => f = .refused .nestedKernelEntry → ∃ root, savedRoot m cpu = some root) := by
    intro steps h
    rw [ends_bind]
    exact h
  cases call with
  | enterKernel => exact (hends ends_enterKernel_nested).of_error e rfl
  | switchTo space => exact (hends ends_switchTo_nested).of_error e rfl
  | mapUser space virt phys size => exact (hends ends_mapUser_nested).of_error e rfl
  | _ => exact haway.elim

end Manager

/-! ## Actions -/

/-- Whether an action brings the processor to the kernel space. -/
def Action.enters : Action → Prop
  | .call .enterKernel | .enter _ => True
  | _ => False

/-- Whether an action brings the processor back from there. -/
def Action.leaves : Action → Prop
  | .call .leaveKernel | .leave _ => True
  | _ => False

/-- The roots that an action loads are loaded on its processor: the one that is in use at the end is
another than before, or was in use before a call that maps user memory left it for the kernel space
and came back. -/
def Loads (cpu : CpuId) (action : Action) (m m' : Machine) : Prop :=
  (m'.cpu cpu).root ≠ (m.cpu cpu).root
    ∨ ∃ range : UserRange, action = .call range.call ∧ PassesKernel cpu range.space m

section

variable {format : Format} {config : Config} {Rule : Call → Prop} {poolPages : Nat}
  {cpu other : CpuId} {action : Action} {stock stock' : Stock} {m m' : Machine} {s t u : System}

theorem kernelSpace_eq_census (m : Machine) : m.kernelSpace = m.census.map fun c => c.2.1 := by
  rw [Machine.kernelSpace, census, Option.map_map]
  rfl

/-- The kernel space stays what it is. -/
theorem Manager.Effect.kernelSpace (e : Effect format config cpu stock m action stock' m')
    (hstarted : m.spaces ≠ none) : m'.kernelSpace = m.kernelSpace := by
  have hcensus : m'.census = m.census → m'.kernelSpace = m.kernelSpace := fun heq => by
    rw [kernelSpace_eq_census, kernelSpace_eq_census, heq]
  have htasks : ∀ {spaces : Spaces} {tasks : List AddressSpace}, m.spaces = some spaces →
      m'.census = some (spaces.kernelTable, spaces.kernel, tasks) →
        m'.kernelSpace = m.kernelSpace := fun hspaces heq => by
    rw [kernelSpace_eq_census, kernelSpace_eq_census, heq, census_of_some hspaces]
    rfl
  cases e with
  | refrained hr _ => exact hcensus hr.calm.census
  | covered hc => exact hcensus hc.calm.census
  | started hi => exact absurd hi.started.unstarted hstarted
  | mappedKernel hk =>
    rcases hk.tables with hq | ⟨_, _, hr⟩
    · exact hcensus hq.census
    · exact hcensus hr.census
  | created hc _ =>
    obtain ⟨spaces, root, hspaces, -, -, heq⟩ := hc.rooted
    exact htasks hspaces heq
  | deleted hd _ _ =>
    obtain ⟨spaces, root, hspaces, -, -, -, -, -, heq⟩ := hd.pruned
    exact htasks hspaces heq
  | mappedUser hu => exact hcensus hu.tables.census
  | mapped hu _ => exact hcensus hu.census
  | moved _ hq _ _ => exact hcensus hq.census

/-- Once the manager is started, a processor that neither moves nor maps user memory in one go loads
no root. -/
theorem Manager.Effect.sameRoots (e : Effect format config cpu stock m action stock' m')
    (hstarted : m.spaces ≠ none) (hmoves : ¬ action.moves)
    (hmap : ∀ range : UserRange, action ≠ .call range.call) : SameRoots m m' := by
  cases e with
  | refrained hr _ => exact hr.same
  | covered hc => exact hc.same
  | started hi => exact absurd hi.started.unstarted hstarted
  | mappedKernel hk => exact hk.same
  | created _ hs => exact hs
  | deleted _ hs _ => exact hs
  | mappedUser _ => exact absurd rfl (hmap ⟨_, _, _, _⟩)
  | mapped _ hs => exact hs
  | moved hm _ _ _ => exact absurd hm hmoves

/-- The roots of the other processors stay, those they are on and those they go back to. -/
theorem Manager.Effect.elsewhere (e : Effect format config cpu stock m action stock' m')
    (hplaced : m.Placed) (hne : other ≠ cpu) :
    (m'.cpu other).root = (m.cpu other).root ∧ savedRoot m' other = savedRoot m other := by
  have hnoted : m'.roots? other = m.roots? other := e.others other hne
  refine ⟨?_, by rw [savedRoot, hnoted]⟩
  cases hroots : m.roots? other with
  | none =>
    -- a processor that was never noted is as it was powered on
    rw [hplaced.unknown hroots, (e.placed hplaced).unknown (hnoted.trans hroots)]
  | some roots =>
    rw [← hplaced.loaded hroots, ← (e.placed hplaced).loaded (hnoted.trans hroots)]

/-- Without the detour of mapping user memory in one go, what is published is the root of the
processor if that is another one. -/
theorem Manager.Effect.feed (e : Effect format config cpu stock m action stock' m')
    (hplaced : m.Placed) (hmap : ∀ range : UserRange, action ≠ .call range.call) :
    m'.rootFeed
      = if (m'.cpu cpu).root = (m.cpu cpu).root then m.rootFeed else (m'.cpu cpu).root := by
  have hsame : SameRoots m m' → m'.rootFeed
      = if (m'.cpu cpu).root = (m.cpu cpu).root then m.rootFeed else (m'.cpu cpu).root :=
    fun h => by rw [if_pos (h.root cpu), h.feed]
  cases e with
  | refrained hr _ => exact hsame hr.same
  | covered hc => exact hsame hc.same
  | started hi =>
    -- no table is in frame 0, so the first root is another than the one after power-on
    obtain ⟨id, -, -, hf⟩ := rootTable_of_alive hi.started.sound hi.alive
    have hpos := (hi.started.sound.ledger.table hf).2.1
    have hzero : (m.cpu cpu).root = 0 :=
      hplaced.unknown (by rw [roots?, hi.started.unstarted]; rfl)
    have hne : (m'.cpu cpu).root ≠ (m.cpu cpu).root := by
      rw [hi.moved.root, hzero]
      exact Nat.ne_of_gt hpos
    rw [hi.feed, if_neg hne, hi.moved.root]
  | mappedKernel hk => exact hsame hk.same
  | created _ hs => exact hsame hs
  | deleted _ hs _ => exact hsame hs
  | mappedUser _ => exact absurd rfl (hmap ⟨_, _, _, _⟩)
  | mapped _ hs => exact hsame hs
  | moved _ _ _ hs => rw [hs.feed, hs.root]

/-! ## In the kernel space -/

/-- The processor is in the kernel space, and will go back to a root. -/
structure Machine.InKernel (cpu : CpuId) (kernel : AddressSpace) (back : PhysAddr) (m : Machine) :
    Prop where
  space : m.kernelSpace = some kernel
  running : (m.cpu cpu).root = kernel.root
  saved : savedRoot m cpu = some back

variable {kernel : AddressSpace} {back : PhysAddr}

theorem Machine.InKernel.started (h : m.InKernel cpu kernel back) : m.spaces ≠ none :=
  started_of_kernelSpace h.space

theorem Machine.Switched.savedRoot {roots : CpuRoots} (h : Switched cpu roots m m') :
    savedRoot m' cpu = roots.saved := by
  rw [Manager.savedRoot, h.noted, if_pos rfl]
  rfl

/-- A processor that is let in is in the kernel space, and goes back to where it was. -/
theorem inKernel_of_enterKernel (e : enterKernel cpu m = .ok () m') :
    ∃ kernel, m.kernelSpace = some kernel ∧ m'.InKernel cpu kernel (m.cpu cpu).root := by
  obtain ⟨hq, spaces, hspaces, hswitched⟩ := ends_enterKernel.of_ok e
  have hspace : m.kernelSpace = some spaces.kernel := kernelSpace_of_some hspaces
  refine ⟨spaces.kernel, hspace, ?_, hswitched.root, hswitched.savedRoot⟩
  rw [kernelSpace_eq_census, hq.census, ← kernelSpace_eq_census]
  exact hspace

/-- Every call that looks where the processor is turns it away, and changes nothing. -/
theorem Machine.InKernel.refused (h : m.InKernel cpu kernel back) {call : Call}
    (haway : call.turnedAway) :
    ∃ error, perform format config cpu call m = .error (.refused error) m := by
  cases call with
  | enterKernel => exact ⟨_, perform_enterKernel_nested h.saved⟩
  | switchTo space => exact ⟨_, perform_switchTo_nested h.saved space⟩
  | mapUser space virt phys size =>
    obtain ⟨error, -, e⟩ := perform_mapUser_nested h.saved ⟨space, virt, phys, size⟩
    exact ⟨error, e⟩
  | _ => exact haway.elim

/-- Until the processor leaves, nothing it does brings any processor to another root. -/
theorem Step.sameRoots (hstep : Step format config Rule cpu action s t) (hs : s.Sound format)
    (h : s.machine.InKernel cpu kernel back) (hstay : ¬ action.leaves) :
    SameRoots s.machine t.machine := by
  have heffect := hstep.effect hs
  cases hstep with
  | @call _ call result m' idle permitted rule ends =>
    by_cases haway : call.turnedAway
    · obtain ⟨error, e⟩ : ∃ error, perform format config cpu call s.machine
          = .error (.refused error) s.machine := h.refused haway
      unfold attempt at ends
      rw [e] at ends
      cases ends
      exact .refl _
    · refine heffect.sameRoots h.started (fun hmoves => ?_) fun range heq => ?_
      · cases call with
        | leaveKernel => exact hstay trivial
        | enterKernel => exact haway trivial
        | switchTo space => exact haway trivial
        | _ => exact hmoves
      · injection heq with heq
        rw [heq] at haway
        exact haway trivial
  | check idle rule active => exact .refl _
  | enter stage ends =>
    rw [enterKernel_nested h.saved] at ends
    cases ends
  | turnedAway stage ends =>
    rw [enterKernel_nested h.saved] at ends
    cases ends
    exact .refl _
  | map stage ends =>
    exact heffect.sameRoots h.started (fun hmoves => hmoves) fun _ heq => nomatch heq
  | leave stage ends => exact absurd trivial hstay

/-- So it stays in the kernel space, whoever does what, until it leaves. -/
theorem Machine.InKernel.step (h : s.machine.InKernel cpu kernel back) (hs : s.Sound format)
    (hstep : Step format config Rule other action s t) (hstay : other = cpu → ¬ action.leaves) :
    t.machine.InKernel cpu kernel back := by
  have heffect := hstep.effect hs
  have hspace := (heffect.kernelSpace h.started).trans h.space
  by_cases heq : other = cpu
  · subst heq
    have hsame := hstep.sameRoots hs h (hstay rfl)
    exact ⟨hspace, (hsame.root other).trans h.running, by rw [savedRoot, hsame.noted]; exact h.saved⟩
  · obtain ⟨hroot, hsaved⟩ := heffect.elsewhere hs.placed (Ne.symm heq)
    exact ⟨hspace, hroot.trans h.running, hsaved.trans h.saved⟩

/-- Leaving, in a call or after user memory was mapped, brings the processor back. -/
theorem Machine.InKernel.left (h : s.machine.InKernel cpu kernel back) (hs : s.Sound format)
    (hstep : Step format config Rule cpu action s t) (hleave : action.leaves) :
    Switched cpu ⟨back, none⟩ s.machine t.machine := by
  have hends := ends_leaveKernel_of_saved hs.placed h.saved
  cases hstep with
  | @call _ call result m' idle permitted rule ends =>
    cases call with
    | leaveKernel =>
      have hcall : Ends (perform format config cpu .leaveKernel) s.machine
          (fun _ m' => Switched cpu ⟨back, none⟩ s.machine m')
          (onOverflow fun _ m' => Switched cpu ⟨back, none⟩ s.machine m') := by
        rw [perform, ends_bind]
        exact hends.mono (fun _ _ hdone => hdone.2) fun _ _ hf => hf.elim
      exact hcall.state_of_attempt ends
    | _ => exact hleave.elim
  | leave stage ends => exact ((ends_finishUser hs.placed h.saved).state_of_attempt ends).2
  | _ => exact hleave.elim

/-! ## What is published -/

theorem Step.mappedForUser {range : UserRange}
    (hstep : Step format config Rule cpu (.call range.call) s t) (hs : s.Sound format) :
    MappedForUser format cpu range.space range.virt range.phys s.machine t.machine := by
  cases hstep with
  | call idle permitted rule ends =>
    exact (ends_perform_mapUser hs.machine hs.placed range).state_of_attempt ends

/-- What is published is the root that was loaded last. -/
theorem Step.feed (hstep : Step format config Rule cpu action s t) (hs : s.Sound format) :
    (Loads cpu action s.machine t.machine → t.machine.rootFeed = (t.machine.cpu cpu).root)
      ∧ (¬ Loads cpu action s.machine t.machine → t.machine.rootFeed = s.machine.rootFeed) := by
  by_cases hmap : ∃ range : UserRange, action = .call range.call
  · obtain ⟨range, rfl⟩ := hmap
    have hdone := hstep.mappedForUser hs
    have hiff : Loads cpu (.call range.call) s.machine t.machine
        ↔ PassesKernel cpu range.space s.machine := by
      constructor
      · rintro (hne | ⟨asked, heq, hpass⟩)
        · exact absurd hdone.root hne
        · injection heq with heq
          injection heq with hspace
          rw [hspace]
          exact hpass
      · exact fun hpass => .inr ⟨range, rfl, hpass⟩
    rw [hiff, hdone.root]
    exact ⟨hdone.passed, hdone.stayed⟩
  · have hnot : ∀ range : UserRange, action ≠ .call range.call := fun range heq => hmap ⟨range, heq⟩
    have hfeed := (hstep.effect hs).feed hs.placed hnot
    have hiff : Loads cpu action s.machine t.machine
        ↔ (t.machine.cpu cpu).root ≠ (s.machine.cpu cpu).root :=
      ⟨fun h => h.resolve_right fun hrange => hmap (hrange.imp fun _ hboth => hboth.1), .inl⟩
    rw [hiff]
    exact ⟨fun hne => by rw [hfeed, if_neg hne], fun heq => by rw [hfeed, if_pos (not_not.mp heq)]⟩

/-! ## Runs -/

/-- What became of mapping user memory is not that the processor was in the kernel space already. -/
theorem Reachable.notNested (h : Reachable format config Rule poolPages s) {range : UserRange}
    {error : MemoryError} (hstage : s.stage cpu = .mapped range (.error error)) :
    NotNested error := by
  obtain ⟨t, m', -, -, ends⟩ := h.of_mapped hstage
  exact (draws_mapTask.of_attempt ends).2 error rfl

/-- A processor is refused what it is about to do: a call, to be let into the kernel space to map
user memory, or, at the end, to have mapped it. -/
inductive System.Refuses (format : Format) (config : Config) (s : System) (cpu : CpuId)
    (error : MemoryError) : Prop where
  | call {call : Call} {m' : Machine} (idle : s.stage cpu = .idle)
      (permitted : call.Permitted s.stock.held)
      (ends : perform format config cpu call s.machine = .error (.refused error) m')
  | enter {range : UserRange} {m' : Machine} (stage : s.stage cpu = .checked range)
      (ends : enterKernel cpu s.machine = .error (.refused error) m')
  | leave {range : UserRange} {result : Except MemoryError Unit} {m' : Machine}
      (stage : s.stage cpu = .mapped range result)
      (ends : finishUser cpu range.virt range.size result s.machine = .error (.refused error) m')

/-- A processor that is refused for being in the kernel space already entered it in a call. -/
theorem savedRoot_of_refuses (h : Reachable format config Rule poolPages s)
    (hrefuses : s.Refuses format config cpu .nestedKernelEntry) :
    (∃ root, savedRoot s.machine cpu = some root) ∧ ¬ (s.stage cpu).inside := by
  cases hrefuses with
  | call idle permitted ends =>
    refine ⟨savedRoot_of_perform permitted.words ends, ?_⟩
    rw [idle]
    exact fun hinside => hinside
  | enter stage ends =>
    refine ⟨ends_enterKernel_nested.of_error ends rfl, ?_⟩
    rw [stage]
    exact fun hinside => hinside
  | leave stage ends =>
    rcases draws_finishUser.of_error ends with hne | hresult
    · exact absurd rfl hne
    · rw [hresult] at stage
      exact absurd rfl (h.notNested stage)

/-- A run of all processors in which one of them does not leave the kernel space. -/
inductive Staying (format : Format) (config : Config) (Rule : Call → Prop) (cpu : CpuId) :
    System → System → Prop where
  | refl {s : System} : Staying format config Rule cpu s s
  | step {s t u : System} {other : CpuId} {action : Action}
      (before : Staying format config Rule cpu s t) (step : Step format config Rule other action t u)
      (stays : other = cpu → ¬ action.leaves) : Staying format config Rule cpu s u

theorem Staying.reachable (h : Staying format config Rule cpu s t)
    (hs : Reachable format config Rule poolPages s) : Reachable format config Rule poolPages t := by
  induction h with
  | refl => exact hs
  | step before hstep stays ih => exact ih.step hstep

theorem Staying.inKernel (h : Staying format config Rule cpu s t)
    (hs : Reachable format config Rule poolPages s) (hin : s.machine.InKernel cpu kernel back) :
    t.machine.InKernel cpu kernel back := by
  induction h with
  | refl => exact hin
  | step before hstep stays ih => exact ih.step (before.reachable hs).sound hstep stays

/-- The root loaded last on any processor in a run that ends in a state; at first, the one that all
processors are powered on with. -/
inductive LastLoaded (format : Format) (config : Config) (Rule : Call → Prop) (poolPages : Nat) :
    PhysAddr → System → Prop where
  | start : LastLoaded format config Rule poolPages Cpu.powerOn.root (System.powerOn poolPages)
  | loaded {root : PhysAddr} {s t : System} {cpu : CpuId} {action : Action}
      (before : LastLoaded format config Rule poolPages root s)
      (step : Step format config Rule cpu action s t) (loads : Loads cpu action s.machine t.machine) :
      LastLoaded format config Rule poolPages (t.machine.cpu cpu).root t
  | kept {root : PhysAddr} {s t : System} {cpu : CpuId} {action : Action}
      (before : LastLoaded format config Rule poolPages root s)
      (step : Step format config Rule cpu action s t) (none : ¬ Loads cpu action s.machine t.machine) :
      LastLoaded format config Rule poolPages root t

theorem Reachable.exists_lastLoaded (h : Reachable format config Rule poolPages s) :
    ∃ root, LastLoaded format config Rule poolPages root s := by
  induction h with
  | start => exact ⟨_, .start⟩
  | @step s t mover action before hstep ih =>
    obtain ⟨root, hroot⟩ := ih
    by_cases hloads : Loads mover action s.machine t.machine
    · exact ⟨_, .loaded hroot hstep hloads⟩
    · exact ⟨root, .kept hroot hstep hloads⟩

theorem LastLoaded.reachable {root : PhysAddr} (h : LastLoaded format config Rule poolPages root s) :
    Reachable format config Rule poolPages s := by
  induction h with
  | start => exact .start
  | loaded before hstep loads ih => exact ih.step hstep
  | kept before hstep none ih => exact ih.step hstep

theorem LastLoaded.feed {root : PhysAddr} (h : LastLoaded format config Rule poolPages root s) :
    s.machine.rootFeed = root := by
  induction h with
  | start => rfl
  | loaded before hstep loads ih => exact (hstep.feed before.reachable.sound).1 loads
  | kept before hstep none ih => exact ((hstep.feed before.reachable.sound).2 none).trans ih

/-- The states of the runs of one processor alone. -/
inductive Alone (format : Format) (config : Config) (Rule : Call → Prop) (poolPages : Nat)
    (cpu : CpuId) : System → Prop where
  | start : Alone format config Rule poolPages cpu (System.powerOn poolPages)
  | step {s t : System} {action : Action} (before : Alone format config Rule poolPages cpu s)
      (step : Step format config Rule cpu action s t) : Alone format config Rule poolPages cpu t

theorem Alone.reachable (h : Alone format config Rule poolPages cpu s) :
    Reachable format config Rule poolPages s := by
  induction h with
  | start => exact .start
  | step before hstep ih => exact ih.step hstep

theorem Alone.feed (h : Alone format config Rule poolPages cpu s) :
    s.machine.rootFeed = (s.machine.cpu cpu).root := by
  induction h with
  | start => rfl
  | @step s t action before hstep ih =>
    obtain ⟨hloaded, hkept⟩ := hstep.feed before.reachable.sound
    by_cases hloads : Loads cpu action s.machine t.machine
    · exact hloaded hloads
    · -- the processor is on the root it was on
      have hroot : (t.machine.cpu cpu).root = (s.machine.cpu cpu).root :=
        not_not.mp fun hne => hloads (.inl hne)
      rw [hkept hloads, ih, hroot]

/-! ## Entering and leaving -/

/-- A processor that entered the kernel space from `s` and did not leave it up to `u`. -/
structure KernelEntered (format : Format) (config : Config) (Rule : Call → Prop) (cpu : CpuId)
    (s u : System) : Prop where
  /-- It is on the kernel root, which is the same as it was. -/
  running : u.machine.kernelSpace = some ⟨(u.machine.cpu cpu).root⟩
  space : u.machine.kernelSpace = s.machine.kernelSpace
  /-- It goes back to the root it was on, whichever that was. -/
  saved : savedRoot u.machine cpu = some (s.machine.cpu cpu).root
  /-- It is not let in again, in a call or on the way of mapping user memory. -/
  entering : perform format config cpu .enterKernel u.machine
    = .error (.refused .nestedKernelEntry) u.machine
  turnedAway : ∀ {range : UserRange} {v : System},
    Step format config Rule cpu (.enter range) u v → v.machine = u.machine
  /-- It cannot go to another space. -/
  switching : ∀ space : AddressSpace, perform format config cpu (.switchTo space) u.machine
    = .error (.refused .nestedKernelEntry) u.machine
  /-- It cannot map user memory. -/
  mapping : ∀ range : UserRange, ∃ error, (error = .notActive ∨ error = .nestedKernelEntry)
    ∧ perform format config cpu range.call u.machine = .error (.refused error) u.machine
  /-- It can leave, and is back then, with no root to go back to. -/
  leaving : ∃ m', perform format config cpu .leaveKernel u.machine = .ok .done m'
    ∧ (m'.cpu cpu).root = (s.machine.cpu cpu).root ∧ savedRoot m' cpu = none
  /-- So it is when it leaves after mapping user memory. -/
  left : ∀ {action : Action} {v : System}, action.leaves → Step format config Rule cpu action u v →
    (v.machine.cpu cpu).root = (s.machine.cpu cpu).root ∧ savedRoot v.machine cpu = none

/-- How processors enter and leave the kernel space, and what is published of it. -/
structure KernelEntries (format : Format) (config : Config) (Rule : Call → Prop) (poolPages : Nat)
    (s : System) : Prop where
  /-- A processor that enters stays until it leaves, and then is back. -/
  entered : ∀ {cpu : CpuId} {action : Action} {t u : System}, action.enters →
    Step format config Rule cpu action s t → enterKernel cpu s.machine = .ok () t.machine →
      Staying format config Rule cpu t u → KernelEntered format config Rule cpu s u
  /-- A processor is refused for that only if it entered, in a call of its own. -/
  nested : ∀ {cpu : CpuId}, s.Refuses format config cpu .nestedKernelEntry →
    (∃ root, savedRoot s.machine cpu = some root) ∧ ¬ (s.stage cpu).inside
  /-- What one processor does changes the roots of no other. -/
  apart : ∀ {cpu other : CpuId} {action : Action} {t : System},
    Step format config Rule cpu action s t → other ≠ cpu →
      (t.machine.cpu other).root = (s.machine.cpu other).root
        ∧ savedRoot t.machine other = savedRoot s.machine other
  /-- The root that is published is the one loaded last, on any processor. -/
  published : (∃ root, LastLoaded format config Rule poolPages root s)
    ∧ ∀ {root : PhysAddr}, LastLoaded format config Rule poolPages root s → s.machine.rootFeed = root
  /-- If there is one processor only, it is its root. -/
  alone : ∀ {cpu : CpuId}, Alone format config Rule poolPages cpu s →
    s.machine.rootFeed = (s.machine.cpu cpu).root

theorem kernelEntered_of_inKernel (hu : u.Sound format) (hspace : s.machine.kernelSpace = some kernel)
    (h : u.machine.InKernel cpu kernel (s.machine.cpu cpu).root) :
    KernelEntered format config Rule cpu s u where
  running := by
    rw [h.running]
    exact h.space
  space := h.space.trans hspace.symm
  saved := h.saved
  entering := perform_enterKernel_nested h.saved
  turnedAway := fun {range v} hstep => by
    cases hstep with
    | enter stage ends =>
      rw [enterKernel_nested h.saved] at ends
      cases ends
    | turnedAway stage ends =>
      rw [enterKernel_nested h.saved] at ends
      cases ends
      rfl
  switching := perform_switchTo_nested h.saved
  mapping := perform_mapUser_nested h.saved
  leaving := by
    obtain ⟨_, m', e, -, hswitched⟩ := exists_of_ends (ends_leaveKernel_of_saved hu.placed h.saved)
    exact ⟨m', bind_of_ok e, hswitched.root, hswitched.savedRoot⟩
  left := fun {action v} hleave hstep => by
    have hswitched := h.left hu hstep hleave
    exact ⟨hswitched.root, hswitched.savedRoot⟩

/-- In every state that processors reach, those that enter the kernel space find their way back, and
what is published is what was loaded. -/
theorem kernel_entries (h : Reachable format config Rule poolPages s) :
    KernelEntries format config Rule poolPages s where
  entered := fun {cpu action t u} _ hstep hlet hstaying => by
    obtain ⟨kernel, hspace, hin⟩ := inKernel_of_enterKernel hlet
    have ht : Reachable format config Rule poolPages t := h.step hstep
    exact kernelEntered_of_inKernel (hstaying.reachable ht).sound hspace (hstaying.inKernel ht hin)
  nested := savedRoot_of_refuses h
  apart := fun hstep hne => (hstep.effect h.sound).elsewhere h.sound.placed hne
  published := ⟨h.exists_lastLoaded, fun hroot => hroot.feed⟩
  alone := fun halone => halone.feed

/-- In particular, the second processor enters from the root it was powered on with. -/
theorem kernel_entries_from_powerOn : ∃ s t,
    Reachable .narrow {} AnyCall 0 s ∧ (s.machine.cpu 1).root = Cpu.powerOn.root
      ∧ Step .narrow {} AnyCall 1 (.call .enterKernel) s t
      ∧ KernelEntries .narrow {} AnyCall 0 s
      ∧ KernelEntered .narrow {} AnyCall 1 s t := by
  obtain ⟨m, stock, h, -, spaces, hspaces, -, -, -, hothers⟩ : ∃ m stock,
      Answered .narrow {} AnyCall 0 [(0, .initFrames smallMap), (0, .init smallMap [])] m stock
        ∧ _ ∧ _ := exists_started_smallMap rfl trivial trivial
  have hnoted : m.roots? 1 = none := hothers 1 (by decide)
  have houtside : savedRoot m 1 = none := by
    rw [savedRoot, hnoted]
    rfl
  obtain ⟨m', e⟩ := exists_enterKernel hspaces houtside
  have hcall : perform .narrow {} 1 .enterKernel m = .ok .done m' := bind_of_ok e
  have hstep : Step .narrow {} AnyCall 1 (.call .enterKernel) ⟨m, stock, fun _ => .idle⟩ _ :=
    .of_ok rfl trivial trivial hcall
  have hentries := kernel_entries h.reachable
  exact ⟨_, _, h.reachable, h.reachable.sound.placed.unknown hnoted, hstep, hentries,
    hentries.entered (show Action.enters (.call .enterKernel) from trivial) hstep e .refl⟩

end

end KernelMemory
