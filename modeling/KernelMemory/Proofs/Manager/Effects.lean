/-
  KernelMemory.Proofs.Manager.Effects — what a processor does to the machine, action by action.

  A processor makes a call, or goes through the four sections that mapping user memory is made
  of; between two sections other processors may act.  Every action, whatever its result, has
  one of a few effects, and all of them keep the machine sound and the processors in place.

  Main results:
    * `ends_perform` — every call has an effect, and its one fault is an address that leaves
      the word; `ends_perform_of_ne` — only calls that map user memory have that;
    * `Effect.sound`, `Effect.placed`, `Effect.others` — what every effect keeps.
-/

import KernelMemory.Proofs.Manager.Starting

namespace KernelMemory

/-! ## Actions -/

/-- User memory that a processor is to map. -/
structure UserRange where
  space : AddressSpace
  virt : VirtAddr
  phys : PhysAddr
  size : Nat

/-- The call that maps the range. -/
def UserRange.call (range : UserRange) : Call :=
  .mapUser range.space range.virt range.phys range.size

/-- What a processor does without others coming in between. -/
inductive Action where
  | call (call : Call)
  /-- Mapping user memory: the root of the space is the one in use. -/
  | check (range : UserRange)
  /-- Mapping user memory: to the kernel space. -/
  | enter (range : UserRange)
  /-- Mapping user memory: the tables are changed. -/
  | map (range : UserRange)
  /-- Mapping user memory: back, and caches are told. -/
  | leave (range : UserRange)

/-- Whether an action only brings the processor to another root. -/
def Action.moves : Action → Prop
  | .call .enterKernel | .call .leaveKernel | .call (.switchTo _) | .enter _ | .leave _ => True
  | _ => False

/-- What is asked of a caller: the addresses of a boot map are words, and frames that are given
back are held. -/
def Call.Permitted (held : Set Nat) : Call → Prop
  | .initFrames map => map.stop < Word.bound
  | .freePage address => FrameAllocator.givenBack address 0 ⊆ held
  | .freeBlock address order => FrameAllocator.givenBack address order ⊆ held
  | _ => True

/-- Frames held after a call. -/
def Call.stockAfter (stock : Stock) (m : Machine) : Call → Except MemoryError Answer → Stock
  | .initFrames _, .ok (.first true) => m.store.frames.inUse
  | .allocatePage, .ok (.frame result) => Manager.handedOut stock 0 result
  | .allocateBlock order _, .ok (.frame result) => Manager.handedOut stock order result
  | .freePage address, _ => ⟨stock.held \ FrameAllocator.givenBack address 0, stock.total⟩
  | .freeBlock address order, _ => ⟨stock.held \ FrameAllocator.givenBack address order, stock.total⟩
  | _, _ => stock

namespace Manager

open Machine Steps

variable {format : Format} {config : Config} {stock stock' : Stock} {m m' : Machine} {cpu : CpuId}

/-! ## Effects -/

/-- What an action does to the machine and to the frames held. -/
inductive Effect (format : Format) (config : Config) (cpu : CpuId) (stock : Stock) (m : Machine) :
    Action → Stock → Machine → Prop where
  | refrained {action : Action} {stock' : Stock} {m' : Machine} (h : Refrained stock' m m')
      (total : stock'.total = stock.total) : Effect format config cpu stock m action stock' m'
  | covered {map : BootMap} {m' : Machine} (h : Covered map m m') :
      Effect format config cpu stock m (.call (.initFrames map)) m'.store.frames.inUse m'
  | started {map : BootMap} {windows : List DeviceWindow} {space : AddressSpace} {m' : Machine}
      (h : InitDone format config stock cpu space m m') :
      Effect format config cpu stock m (.call (.init map windows)) stock m'
  | mappedKernel {address size : Nat} {policy : CachePolicy} {m' : Machine}
      (h : MappedKernel format config m m') :
      Effect format config cpu stock m (.call (.mapKernel address size policy)) stock m'
  | created {space : AddressSpace} {m' : Machine} (h : Created format stock space m m')
      (same : SameRoots m m') : Effect format config cpu stock m (.call .createSpace) stock m'
  | deleted {space : AddressSpace} {m' : Machine} (h : Deleted format stock space m m')
      (same : SameRoots m m') (unused : ¬ m.Uses space.root) :
      Effect format config cpu stock m (.call (.deleteSpace space)) stock m'
  | mappedUser {space : AddressSpace} {virt phys size : Nat} {m' : Machine}
      (h : MappedForUser format cpu space virt phys m m') :
      Effect format config cpu stock m (.call (.mapUser space virt phys size)) stock m'
  | mapped {range : UserRange} {m' : Machine}
      (h : MappedUser format range.space range.virt range.phys m m') (same : SameRoots m m') :
      Effect format config cpu stock m (.map range) stock m'
  | moved {action : Action} {roots : CpuRoots} {m' : Machine} (moves : action.moves)
      (quiet : Quiet m m') (placed : m'.Placed) (switched : Switched cpu roots m m') :
      Effect format config cpu stock m action stock m'

/-- Doing nothing is an effect of any action. -/
theorem effect_refl (h : m.Sound format stock) (action : Action) :
    Effect format config cpu stock m action stock m := .refrained (refrained_refl h) rfl

theorem effect_still (hstill : Still m m') (h : m.Sound format stock) (action : Action) :
    Effect format config cpu stock m action stock m' :=
  .refrained ⟨hstill.quiet.calm h, hstill.quiet.image, hstill.same⟩ rfl

theorem Effect.sound {action : Action} (e : Effect format config cpu stock m action stock' m')
    (h : m.Sound format stock) : m'.Sound format stock' := by
  cases e with
  | refrained hr _ => exact hr.calm.sound h
  | covered hc => exact hc.calm.sound h
  | started hi => exact hi.started.sound
  | mappedKernel hk => exact hk.sound h
  | created hc _ => exact hc.sound h
  | deleted hd _ _ => exact hd.sound h
  | mappedUser hu => exact hu.tables.sound h
  | mapped hu _ => exact hu.sound h
  | moved _ hq _ _ => exact hq.sound h

/-- What is noted of other processors stays. -/
theorem Effect.others {action : Action} (e : Effect format config cpu stock m action stock' m') :
    OthersKept cpu m m' := by
  cases e with
  | refrained hr _ => exact othersKept_same hr.same
  | covered hc => exact othersKept_same hc.same
  | started hi => exact othersKept_moved hi.moved
  | mappedKernel hk => exact othersKept_same hk.same
  | created _ hs => exact othersKept_same hs
  | deleted _ hs _ => exact othersKept_same hs
  | mappedUser hu => exact hu.others
  | mapped _ hs => exact othersKept_same hs
  | moved _ _ _ hs => exact othersKept_moved hs.toMoved

theorem Effect.placed {action : Action} (e : Effect format config cpu stock m action stock' m')
    (hplaced : m.Placed) : m'.Placed := by
  cases e with
  | refrained hr _ => exact placed_of_census hplaced hr.calm.census hr.same
  | covered hc => exact placed_of_census hplaced hc.calm.census hc.same
  | started hi =>
    refine hplaced.move hi.moved (fun halive => ?_) (.inr hi.alive) fun hs => by cases hs
    obtain ⟨spaces, hspaces, -⟩ := halive
    rw [hi.started.unstarted] at hspaces
    cases hspaces
  | mappedKernel hk =>
    refine placed_of_census hplaced ?_ hk.same
    rcases hk.tables with hq | ⟨_, _, hr⟩
    · exact hq.census
    · exact hr.census
  | created hc hs => exact hplaced.keep hs fun _ => hc.alive
  | deleted hd hs hnot =>
    refine hplaced.keep hs fun huses halive => hd.alive halive ?_
    rintro rfl
    exact hnot huses
  | mappedUser hu => exact hu.placed
  | mapped hu hs => exact placed_of_census hplaced hu.census hs
  | moved _ _ hp _ => exact hp

/-! ## Calls -/

/-- Calls that map no user memory answer or are refused. -/
theorem ends_perform_of_ne {call : Call} (h : m.Sound format stock) (hplaced : m.Placed)
    (permitted : call.Permitted stock.held) (hne : ∀ range : UserRange, call ≠ range.call) :
    Ends (perform format config cpu call) m
      (fun answer m' =>
        Effect format config cpu stock m (.call call) (call.stockAfter stock m' (.ok answer)) m')
      (onRefusal fun error m' =>
        Effect format config cpu stock m (.call call) (call.stockAfter stock m' (.error error)) m') := by
  have hnone : ∀ {m'}, m' = m → Effect format config cpu stock m (.call call) stock m' := by
    rintro _ rfl
    exact effect_refl h _
  cases call with
  | initFrames map =>
    rw [perform_initFrames, ends_bind]
    refine (ends_initFrames h permitted).mono (fun first m' hm' => ?_) fun _ _ hf => hf.elim
    rw [ends_pure]
    rcases hm' with ⟨rfl, hc⟩ | ⟨rfl, hstill⟩
    · exact .covered hc
    · exact effect_still hstill h _
  | allocatePage =>
    rw [perform_allocatePage, ends_bind]
    refine (ends_allocatePage h).mono (fun result m' hm' => ?_) fun _ _ hf => hf.elim
    exact .refrained hm' (total_handedOut stock 0 result)
  | allocateBlock order zone =>
    rw [perform_allocateBlock, ends_bind]
    refine (ends_allocateBlock h).mono (fun result m' hm' => ?_) fun _ _ hf => hf.elim
    exact .refrained hm' (total_handedOut stock order result)
  | freePage address =>
    rw [perform_freePage, ends_bind]
    exact (ends_freeBlock h permitted).mono (fun _ m' hm' => .refrained hm' rfl)
      fun _ _ hf => hf.elim
  | freeBlock address order =>
    rw [perform_freeBlock, ends_bind]
    exact (ends_freeBlock h permitted).mono (fun _ m' hm' => .refrained hm' rfl)
      fun _ _ hf => hf.elim
  | init map windows =>
    rw [perform, ends_bind]
    refine (ends_init h).weaken (fun space m' hm' => ?_)
      fun _ m' hm' => .refrained hm'.refrained rfl
    rcases hm' with ⟨heq, -⟩ | hdone
    · exact hnone heq
    · exact .started hdone
  | mapKernel address size policy =>
    rw [perform, ends_bind]
    exact (ends_mapKernel h).weaken (fun _ m' hm' => .mappedKernel hm')
      fun _ m' hm' => .mappedKernel hm'
  | createSpace =>
    rw [perform, ends_bind]
    exact (ends_createSpace h).weaken
      (fun space m' hm' => .created hm'.1 hm'.2) fun _ m' hm' => .refrained hm'.1 rfl
  | deleteSpace space =>
    rw [perform, ends_bind]
    exact (ends_deleteSpace h hplaced).weaken
      (fun _ m' hm' => .deleted hm'.1 hm'.2.1 hm'.2.2) fun _ m' hm' => hnone hm'.1
  | mapUser space virt phys size => exact absurd rfl (hne ⟨space, virt, phys, size⟩)
  | enterKernel =>
    rw [perform, ends_bind]
    refine ends_enterKernel.weaken (fun _ m' hm' => ?_) fun _ m' hm' => hnone hm'
    obtain ⟨hq, spaces, hspaces, hswitched⟩ := hm'
    exact .moved trivial hq (placed_enter hplaced hq hspaces hswitched) hswitched
  | leaveKernel =>
    rw [perform, ends_bind]
    refine (ends_leaveKernel hplaced).weaken (fun _ m' hm' => ?_)
      fun _ m' hm' => hnone hm'.1
    obtain ⟨hq, saved, hsaved, hswitched⟩ := hm'
    exact .moved trivial hq (placed_leave hplaced hq hsaved hswitched) hswitched
  | switchTo space =>
    rw [perform, ends_bind]
    refine (ends_switchTo h).weaken (fun _ m' hm' => ?_)
      fun _ m' hm' => hnone hm'
    obtain ⟨hq, hsame | ⟨halive, hswitched⟩⟩ := hm'
    · exact .refrained ⟨hq.calm h, hq.image, hsame⟩ rfl
    · exact .moved trivial hq (placed_switch hplaced hq halive hswitched) hswitched

/-- Those that do can leave the word. -/
theorem ends_perform_mapUser (h : m.Sound format stock) (hplaced : m.Placed) (range : UserRange) :
    Ends (perform format config cpu range.call) m
      (fun _ m' => MappedForUser format cpu range.space range.virt range.phys m m')
      (onOverflow fun _ m' => MappedForUser format cpu range.space range.virt range.phys m m') := by
  unfold UserRange.call
  rw [perform, ends_bind]
  exact ends_mapUser h hplaced

/-- Any call answers, is refused, or leaves the word. -/
theorem ends_perform {call : Call} (h : m.Sound format stock) (hplaced : m.Placed)
    (permitted : call.Permitted stock.held) :
    Ends (perform format config cpu call) m
      (fun answer m' =>
        Effect format config cpu stock m (.call call) (call.stockAfter stock m' (.ok answer)) m')
      (onOverflow fun error m' =>
        Effect format config cpu stock m (.call call) (call.stockAfter stock m' (.error error)) m') := by
  by_cases hcall : ∃ range : UserRange, call = range.call
  · obtain ⟨range, rfl⟩ := hcall
    exact (ends_perform_mapUser h hplaced range).weaken_overflow (fun _ m' hm' => .mappedUser hm')
      fun _ m' hm' => .mappedUser hm'
  · exact (ends_perform_of_ne h hplaced permitted fun range heq => hcall ⟨range, heq⟩).overflow

end Manager

end KernelMemory
