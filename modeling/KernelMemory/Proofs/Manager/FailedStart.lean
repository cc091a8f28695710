/-
  KernelMemory.Proofs.Manager.FailedStart — a start that fails leaves no trace.

  The manager can run out of frames at any table of the kernel tree, or meet something it cannot
  map.  Then the tables made so far are removed and their frames are free again, and nothing was
  written to memory, loaded on a processor or published before.  Interrupts, which were off for as
  long, are what they were.  What is left is the log, and where the allocator looks first; neither
  tells in what a later start does.

  Main results:
    * `twin_of_restored` — after a failed start the machine is the twin of what it was;
    * `lockstep_init` — twins start alike;
    * `failed_init_traceless` — so a later start is as the first one would have been.
-/

import KernelMemory.Proofs.Manager.Following
import KernelMemory.Proofs.Manager.Starting
import KernelMemory.Proofs.Paging.Twins

namespace KernelMemory

open Machine Manager Steps

variable {format : Format} {config : Config} {stock : Stock} {m m' : Machine} {cpu : CpuId}
  {base base' : Array LogRecord}

/-! ## Twins -/

namespace Machine

/-- Two machines that differ in what their logs were, and in where the allocator looks first. -/
structure Twin (base base' : Array LogRecord) (m m' : Machine) : Prop where
  store : TableStore.Twin base base' m.store m'.store
  descriptor : m'.descriptor = m.descriptor
  memory : m'.memory = m.memory
  cpus : m'.cpus = m.cpus
  spaces : m'.spaces = m.spaces
  rootFeed : m'.rootFeed = m.rootFeed

/-- Frames that are back are free as they were. -/
theorem twin_of_restored (h : m.Sound format stock) (hr : Restored stock m m') :
    Twin m.store.log m'.store.log m m' := by
  have hledger := hr.ledger
  have hframes : FrameAllocator.Twin m.store.frames m'.store.frames := by
    refine ⟨h.ledger.allocator, hledger.allocator, hr.initialized, ?_, fun f => ?_⟩
    · rw [hledger.total, h.ledger.total]
    · have hfree : f ∈ m'.store.frames.freeSet ↔ f ∈ m.store.frames.freeSet := by
        rw [hledger.mem_freeSet_iff, h.ledger.mem_freeSet_iff, hr.arena]
      exact Bool.eq_iff_iff.mpr hfree
  have hstore := TableStore.Twin.start hframes hr.arena
  -- everything beside the store is the same
  have heq := hr.store
  generalize m'.store = s at heq hstore
  subst heq
  exact ⟨hstore, rfl, rfl, rfl, rfl, rfl⟩

theorem lockstep_onStore {α : Type} {steps : TableSteps α}
    (h : Lockstep (TableStore.Twin base base') steps) : Lockstep (Twin base base') (onStore steps) := by
  intro m m' hm
  have hsteps := h m.store m'.store hm.store
  unfold onStore
  simp only
  cases hs : steps m.store with
  | ok a s =>
    cases ht : steps m'.store with
    | ok b t =>
      rw [hs, ht] at hsteps
      exact ⟨hsteps.1, hsteps.2, hm.descriptor, hm.memory, hm.cpus, hm.spaces, hm.rootFeed⟩
    | error g t =>
      rw [hs, ht] at hsteps
      exact hsteps.elim
  | error f s =>
    cases ht : steps m'.store with
    | ok b t =>
      rw [hs, ht] at hsteps
      exact hsteps.elim
    | error g t =>
      rw [hs, ht] at hsteps
      exact ⟨hsteps.1, hsteps.2, hm.descriptor, hm.memory, hm.cpus, hm.spaces, hm.rootFeed⟩

theorem lockstep_writeLog (level : LogLevel) (text : String) :
    Lockstep (Twin base base') (write level text) :=
  lockstep_onStore (TableStore.lockstep_write level text)

theorem lockstep_onCpu (cpu : CpuId) (change : Cpu → Cpu) :
    Lockstep (Twin base base') (onCpu cpu change) := by
  apply lockstep_modify
  intro m m' h
  refine ⟨h.store, h.descriptor, h.memory, ?_, h.spaces, h.rootFeed⟩
  unfold modifyCpu Machine.cpu
  rw [h.cpus]

end Machine

namespace Manager

variable {tree : KernelTree}

/-! ## The kernel tree -/

theorem lockstep_mapWindows : ∀ {windows : List DeviceWindow},
    Lockstep (TableStore.Twin base base') (mapWindows format config tree windows) := by
  intro windows
  induction windows with
  | nil => exact lockstep_pure _
  | cons window rest ih =>
    rw [mapWindows]
    apply TableStore.respected_twin.mapViews.lockstep.attempt.bind
    intro result
    split
    · exact (TableStore.lockstep_write _ _).bind fun _ => ih.bind fun _ => lockstep_pure _
    · exact lockstep_refuse _
    · exact (TableStore.lockstep_write _ _).bind fun _ => ih

theorem lockstep_populate {map : BootMap} {image : Option MemoryRegion}
    {windows : List DeviceWindow} :
    Lockstep (TableStore.Twin base base') (populate format config tree map image windows) :=
  TableStore.respected_twin.mapRegions.lockstep.bind fun _ =>
    TableStore.respected_twin.mapImage.lockstep.bind fun _ => lockstep_mapWindows

theorem lockstep_abandon : Lockstep (TableStore.Twin base base') abandon :=
  TableStore.lockstep_removeAll.bind fun _ => lockstep_modify fun _ _ h => ⟨h.frames, rfl, h.log⟩

/-! ## The start -/

theorem lockstep_commit : Lockstep (Twin base base') (commit format) := by
  intro m m' h
  unfold commit
  rw [h.store.arena, h.memory]
  cases m.store.arena.commit format m.memory with
  | error fault => exact ⟨rfl, h⟩
  | ok done =>
    obtain ⟨count, arena, memory⟩ := done
    exact ⟨rfl, ⟨h.store.frames, rfl, h.store.log⟩, h.descriptor, rfl, h.cpus, h.spaces, h.rootFeed⟩

theorem lockstep_finishInit (root : TableId) (result : Except MemoryError (List DeviceWindow)) :
    Lockstep (Twin base base') (finishInit format cpu root result) := by
  cases result with
  | error error => exact (lockstep_onStore lockstep_abandon).bind fun _ => lockstep_refuse _
  | ok mapped =>
    unfold finishInit
    have hdescriptor : Lockstep (Twin base base') (modify fun m =>
        { m with descriptor := (m.descriptor.publishDeviceWindows mapped).2 } : MachineSteps Unit) :=
      lockstep_modify fun m m' h =>
        ⟨h.store, by rw [h.descriptor], h.memory, h.cpus, h.spaces, h.rootFeed⟩
    apply hdescriptor.bind
    intro _
    apply lockstep_commit.bind
    intro _
    apply (lockstep_onStore (TableStore.lockstep_table root)).bind
    intro table
    apply (lockstep_onCpu cpu _).bind
    intro _
    have hspaces : Lockstep (Twin base base') (modify fun m =>
        { m with
          rootFeed := table.frame
          spaces := some ⟨root, ⟨table.frame⟩, [],
            (∅ : Std.TreeMap CpuId CpuRoots).insert cpu ⟨table.frame, none⟩⟩ } : MachineSteps Unit) :=
      lockstep_modify fun m m' h => ⟨h.store, h.descriptor, h.memory, h.cpus, rfl, rfl⟩
    apply hspaces.bind
    intro _
    refine lockstep_get (fun m m' h => by rw [h.store.arena]) fun m => ?_
    exact (lockstep_writeLog _ _).bind fun _ => lockstep_pure _

/-- Twins start alike. -/
theorem lockstep_init (map : BootMap) (windows : List DeviceWindow) :
    Lockstep (Twin base base') (init format config cpu map windows) := by
  intro m m' h
  cases hspaces : m.spaces with
  | some spaces =>
    have hspaces' : m'.spaces = some spaces := h.spaces.trans hspaces
    show SameEnd _ (init format config cpu map windows m) (init format config cpu map windows m')
    rw [init_started hspaces, init_started hspaces']
    exact ⟨rfl, h⟩
  | none =>
    have hspaces' : m'.spaces = none := h.spaces.trans hspaces
    rw [init_unstarted hspaces, init_unstarted hspaces', h.descriptor]
    refine Lockstep.bind ?_ (fun root => ?_) m m' h
    · exact lockstep_onStore (TableStore.lockstep_addTable _ _ _)
    · exact (lockstep_onStore lockstep_populate).attempt.bind fun result =>
        lockstep_finishInit root result

end Manager

/-! ## No trace -/

/-- What a failed start leaves as it was: free frames, memory, every processor with its interrupt
flag, the root feed, and what was published; and there are no tables and no kernel space, as
before. -/
structure Machine.Untouched (m m' : Machine) : Prop where
  free : m'.store.frames.freeSet = m.store.frames.freeSet
  memory : m'.memory = m.memory
  cpu : ∀ id, m'.cpu id = m.cpu id
  rootFeed : m'.rootFeed = m.rootFeed
  descriptor : m'.descriptor = m.descriptor
  tablePages : m.tablePages = 0 ∧ m'.tablePages = 0
  kernelSpace : m.kernelSpace = none ∧ m'.kernelSpace = none

theorem untouched_of_twin (h : Twin base base' m m') (hempty : m.store.arena = Arena.empty)
    (hspaces : m.spaces = none) : Untouched m m' where
  free := by
    ext f
    exact Bool.eq_iff_iff.mp (h.store.frames.free f)
  memory := h.memory
  cpu := fun id => by
    unfold Machine.cpu
    rw [h.cpus]
  rootFeed := h.rootFeed
  descriptor := h.descriptor
  tablePages := by
    unfold Machine.tablePages
    rw [h.store.arena, hempty]
    exact ⟨rfl, rfl⟩
  kernelSpace := by
    unfold Machine.kernelSpace
    rw [h.spaces, hspaces]
    exact ⟨rfl, rfl⟩

/-- Whatever the map, the windows and the configuration are, a start that is refused leaves no
trace, and any later start ends as it would have ended in its place, with the same records added to
the log. -/
theorem failed_init_traceless {map : BootMap} {windows : List DeviceWindow} {error : MemoryError}
    (hwf : m.store.frames.WellFormed) (hempty : m.spaces = none → m.store.arena = Arena.empty)
    (e : init format config cpu map windows m = .error (.refused error) m') :
    Untouched m m' ∧ ∀ (format : Format) (config : Config) (cpu : CpuId) (map : BootMap)
      (windows : List DeviceWindow), SameEnd (Twin m.store.log m'.store.log)
        (init format config cpu map windows m) (init format config cpu map windows m') := by
  cases hspaces : m.spaces with
  | some spaces =>
    rw [init_started hspaces] at e
    cases e
  | none =>
    have h : m.Sound format m.store.frames.inUse := sound_unstarted hwf hspaces (hempty hspaces)
    have htwin := twin_of_restored h ((ends_init h).of_error e)
    exact ⟨untouched_of_twin htwin (hempty hspaces) hspaces,
      fun _ _ _ map windows => lockstep_init map windows m m' htwin⟩

/-- One frame of free memory that is not mapped, and a page of device registers. -/
def oneFrameMap : BootMap :=
  ⟨[⟨0, .free, ⟨false, true⟩⟩, ⟨2 * frameSize, .device, .none⟩, ⟨3 * frameSize, .endMarker, .none⟩],
    by decide⟩

/-- A machine whose allocator was started with that map. -/
def oneFrameMachine : Machine :=
  { Machine.powerOn 0 with
    store := { TableStore.empty with frames := (FrameAllocator.init ⟨0, none⟩ oneFrameMap {}).2.1 } }

/-- For instance, the root takes the one frame there is, there is none for the table below it, and
then the frame is free again. -/
theorem failed_init_traceless_short : ∃ m',
    init .narrow {} 0 oneFrameMap [] oneFrameMachine = .error (.refused .outOfMemory) m'
      ∧ oneFrameMachine.store.frames.isFree 1 = true ∧ m'.store.frames.isFree 1 = true
      ∧ Untouched oneFrameMachine m' ∧ ∀ (config : Config) (map : BootMap),
        SameEnd (Twin oneFrameMachine.store.log m'.store.log)
          (init .wide config 0 map [] oneFrameMachine) (init .wide config 0 map [] m') := by
  have hwf : oneFrameMachine.store.frames.WellFormed :=
    (FrameAllocator.init_wellFormed (FrameAllocator.wellFormed_unstarted 0) (by decide) {}).1
  have hfree : oneFrameMachine.store.frames.isFree 1 = true := by decide +kernel
  obtain ⟨failure, m', e, rfl⟩ : ∃ failure m', init .narrow {} 0 oneFrameMap [] oneFrameMachine
      = .error failure m' ∧ failure = .refused .outOfMemory :=
    exists_error_of_ends (by decide +kernel)
  obtain ⟨huntouched, hlater⟩ := failed_init_traceless hwf (fun _ => rfl) e
  have hfree' : 1 ∈ m'.store.frames.freeSet := by
    rw [huntouched.free]
    exact hfree
  exact ⟨m', e, hfree, hfree', huntouched, fun config map => hlater .wide config 0 map []⟩

end KernelMemory
