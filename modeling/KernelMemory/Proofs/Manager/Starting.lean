/-
  KernelMemory.Proofs.Manager.Starting — how the allocator and the manager start, and how
  frames change hands.

  Starting the allocator touches no table.  Starting the manager builds the kernel tree from
  nothing and brings the processor to it; when memory runs out, nothing of the tree is left.

  Main results:
    * `ends_initFrames`, `ends_allocateBlock`, `ends_allocatePage`, `ends_freeBlock`;
    * `ends_init_of_populate`, `ends_init` — told by the tree that is built, and in any case.
-/

import KernelMemory.Proofs.Manager.Operations

namespace KernelMemory

namespace Manager

open Machine Steps

variable {format : Format} {config : Config} {stock : Stock} {m m' : Machine} {cpu : CpuId}

/-! ## Frames -/

/-- The allocator was started with a map. -/
structure Covered (map : BootMap) (m m' : Machine) : Prop where
  calm : Calm m'.store.frames.inUse m m'
  same : SameRoots m m'
  total : m'.store.frames.totalPages = map.stop / frameSize
  image : m'.descriptor.kernelImage = m.descriptor.kernelImage.or map.image?

theorem ends_initFrames {map : BootMap} (h : m.Sound format stock) (hmap : map.stop < Word.bound) :
    Ends (initFrames map) m
      (fun first m' => (first = true ∧ Covered map m m') ∨ (first = false ∧ Still m m'))
      (fun _ _ => False) := by
  rw [initFrames, ends_bind, ends_modifyGet]
  have hallocator := h.ledger.allocator
  obtain ⟨hwf, htotal⟩ := FrameAllocator.init_wellFormed hallocator hmap m.descriptor
  cases hbitmap : m.store.frames.bitmap with
  | some b =>
    have hinit : m.store.frames.init map m.descriptor
        = (false, m.store.frames, m.descriptor,
          [⟨.warn, "frame allocator already initialized"⟩]) := by
      unfold FrameAllocator.init
      rw [hbitmap]
    rw [hinit]
    exact .inr ⟨rfl, still_log _⟩
  | none =>
    have hfirst : (m.store.frames.init map m.descriptor).1 = true := by
      unfold FrameAllocator.init
      rw [hbitmap]
    -- an allocator that was not started has no frames, so no table is in one
    have hzero : m.store.frames.totalPages = 0 := by
      rw [FrameAllocator.totalPages, hbitmap]
    refine .inl ⟨hfirst, ⟨rfl, h.ledger.started hzero hwf, rfl, rfl⟩,
      ⟨fun _ => rfl, fun _ => rfl, rfl⟩, ?_, FrameAllocator.kernelImage_init hbitmap map m.descriptor⟩
    rcases htotal with heq | ⟨-, htotal⟩
    · have hsome : (m.store.frames.init map m.descriptor).2.1.bitmap ≠ none := by
        unfold FrameAllocator.init
        rw [hbitmap]
        simp
      rw [heq] at hsome
      exact absurd hbitmap hsome
    · exact htotal

/-- Frames held once a block was asked for. -/
def handedOut (stock : Stock) (order : Nat) (result : Except FrameError PhysAddr) : Stock :=
  match result with
  | .ok address => ⟨stock.held ∪ FrameAllocator.block address order, stock.total⟩
  | .error _ => stock

@[simp] theorem total_handedOut (stock : Stock) (order : Nat) (result : Except FrameError PhysAddr) :
    (handedOut stock order result).total = stock.total := by cases result <;> rfl

theorem ends_allocatePage (h : m.Sound format stock) :
    Ends (onStore TableStore.allocatePage) m
      (fun result m' => Refrained (handedOut stock 0 result) m m') (fun _ _ => False) := by
  rw [ends_onStore]
  refine TableStore.ends_allocatePage _ _ fun result s hframes harena => ?_
  refine refrained_of_store harena ?_
  rw [harena]
  cases result with
  | ok address => exact h.ledger.allocatePage hframes
  | error error => exact h.ledger.exhausted hframes

theorem ends_allocateBlock {order : Nat} {zone : Zone} (h : m.Sound format stock) :
    Ends (onStore (TableStore.allocateBlock order zone)) m
      (fun result m' => Refrained (handedOut stock order result) m m') (fun _ _ => False) := by
  rw [ends_onStore]
  refine TableStore.ends_allocateBlock _ _ _ _ fun result s hframes harena => ?_
  refine refrained_of_store harena ?_
  rw [harena]
  cases result with
  | ok address => exact h.ledger.allocateBlock hframes
  | error error =>
    rw [FrameAllocator.allocateBlock_error hframes]
    exact h.ledger

theorem ends_freeBlock {address order : Nat} (h : m.Sound format stock)
    (hheld : FrameAllocator.givenBack address order ⊆ stock.held) :
    Ends (onStore (TableStore.freeBlock address order)) m
      (fun _ m' => Refrained ⟨stock.held \ FrameAllocator.givenBack address order, stock.total⟩ m m')
      (fun _ _ => False) := by
  rw [ends_onStore]
  refine TableStore.ends_freeBlock _ _ _ _ fun s hframes harena => ?_
  refine refrained_of_store harena ?_
  rw [harena, hframes]
  exact h.ledger.giveBack hheld

/-! ## The manager -/

/-- Only frames were asked for, and all are back; the log may have grown. -/
structure Restored (stock : Stock) (m m' : Machine) : Prop where
  store : m' = { m with store := m'.store }
  arena : m'.store.arena = m.store.arena
  ledger : Ledger stock m'.store.frames m'.store.arena
  initialized : m'.store.frames.isInitialized = m.store.frames.isInitialized

theorem Restored.refrained (h : Restored stock m m') : Refrained stock m m' := by
  rw [h.store]
  exact refrained_of_store h.arena h.ledger

theorem ends_abandon {s : TableStore} (h : Ledger stock s.frames s.arena) :
    Ends abandon s (fun _ s' => Ledger stock s'.frames s'.arena ∧ s'.arena = Arena.empty)
      (fun _ _ => False) := by
  rw [abandon, ends_bind]
  refine (TableStore.ends_removeAll (P := fun s => Ledger stock s.frames s.arena)
    TableStore.ends_removeTable_ledger h).mono (fun _ s' h' => ?_) fun _ _ hf => hf
  obtain ⟨s₁, hledger, hnone, rfl⟩ := h'
  have hgone : ∀ f, f ∉ s₁.arena.tableFrames := by
    intro f hf
    obtain ⟨x, hx⟩ := hf
    rw [Arena.frame?, hnone] at hx
    cases hx
  refine ⟨⟨Arena.books_empty, hledger.allocator, hledger.total,
    fun hf => by simp [Arena.frame?] at hf, hledger.client, fun {f} hlt hused => ?_⟩, rfl⟩
  exact .inl ((hledger.covered hlt hused).resolve_right (hgone f))

/-- The manager was started and the processor runs on the kernel tree. -/
structure InitDone (format : Format) (config : Config) (stock : Stock) (cpu : CpuId)
    (space : AddressSpace) (m m' : Machine) : Prop where
  started : Started format config stock m m'
  alive : m'.Alive space
  moved : Moved cpu ⟨space.root, none⟩ m m'
  feed : m'.rootFeed = space.root

/-! ### The first root -/

/-- The store with a first root, which is not in memory yet. -/
structure FirstRoot (format : Format) (stock : Stock) (memory : Memory) (frame : PhysAddr)
    (root : TableId) (s : TableStore) : Prop where
  arena : s.arena = (Arena.empty.add (.blank frame format.topLevel false format.entries)).2
  name : root = (Arena.empty.add (.blank frame format.topLevel false format.entries)).1
  ledger : Ledger stock s.frames s.arena
  synced : Arena.Synced format s.arena memory

section

variable {memory : Memory} {frame : PhysAddr} {root : TableId} {s : TableStore}

theorem FirstRoot.ready (h : FirstRoot format stock memory frame root s) :
    TreeReady format ⟨root, false⟩ stock s := by
  have hshaped : s.arena.Shaped format root := by
    rw [h.arena, h.name]
    exact Arena.shaped_first frame false
  exact ⟨⟨h.ledger, hshaped⟩, hshaped.kernel_top⟩

theorem FirstRoot.slot_root (h : FirstRoot format stock memory frame root s) {i : Nat}
    (hi : i < format.entries) : s.arena.slot? root i = some .empty := by
  rw [h.arena, h.name, Arena.slot?_add Arena.names_empty, if_pos rfl, Arena.slots_blank, if_pos hi]

/-- Nothing is seen under it yet. -/
theorem FirstRoot.view_root (h : FirstRoot format stock memory frame root s) (w : Nat) :
    s.arena.view format root w = none := by
  rw [Arena.view, Arena.lookup_of_empty (h.slot_root (format.index_lt w format.topLevel))]
  rfl

theorem FirstRoot.frame_root (h : FirstRoot format stock memory frame root s) :
    s.arena.frame? root = some frame := by
  rw [h.arena, h.name, Arena.frame?_add Arena.names_empty, if_pos rfl]
  rfl

end

/-- Before the manager is started, a table that is added is the first root. -/
theorem ends_addRoot (h : m.Sound format stock) (hspaces : m.spaces = none) :
    Ends (TableStore.addTable format format.topLevel false) m.store
      (fun root s => ∃ frame, m.store.frames.allocatePage = (.ok frame, s.frames)
        ∧ FirstRoot format stock m.memory frame root s)
      (onRefusal fun e s => Restored stock m { m with store := s }
        ∧ ∃ error, m.store.frames.allocatePage.1 = .error error ∧ e = .ofFrameError error) := by
  have hempty := h.unstarted hspaces
  refine TableStore.ends_addTable format.topLevel_lt_levels (fun frame s hframes harena => ?_)
    fun error s hframes harena => ?_
  · have hledger : Ledger stock s.frames s.arena := by
      rw [harena]
      exact h.ledger.add hframes
    have hsynced : Arena.Synced format s.arena m.memory := by
      rw [harena]
      exact h.settled.synced.add h.ledger.books.names _
    rw [hempty] at harena ⊢
    exact ⟨frame, hframes, harena, rfl, hledger, hsynced⟩
  · refine ⟨⟨rfl, harena, ?_, ?_⟩, error, by rw [hframes], rfl⟩
    · show Ledger stock s.frames s.arena
      rw [harena]
      exact h.ledger.exhausted hframes
    · have hinit := FrameAllocator.isInitialized_allocatePage m.store.frames
      rw [hframes] at hinit
      exact hinit

/-! ### The processor on its tree -/

/-- The end of `init`: the kernel tree is used, or given up. -/
def finishInit (format : Format) (cpu : CpuId) (root : TableId) :
    Except MemoryError (List DeviceWindow) → MachineSteps AddressSpace
  | .error error => do
    onStore abandon
    Steps.refuse error
  | .ok mapped => do
    modify fun m => { m with descriptor := (m.descriptor.publishDeviceWindows mapped).2 }
    let _ ← commit format
    let frame := (← onStore (TableStore.table root)).frame
    onCpu cpu fun c => (c.loadRoot frame).enablePaging format
    modify fun m =>
      { m with
        rootFeed := frame
        spaces := some ⟨root, ⟨frame⟩, [], (∅ : Std.TreeMap CpuId CpuRoots).insert cpu ⟨frame, none⟩⟩ }
    let pages := (← get).store.arena.size
    write .info s!"{format.name} translation active, root {hex frame}, {pages} table pages"
    return ⟨frame⟩

/-- A manager that was started keeps its kernel space. -/
theorem init_started {spaces : Spaces} (hspaces : m.spaces = some spaces) (map : BootMap)
    (windows : List DeviceWindow) :
    init format config cpu map windows m = .ok spaces.kernel m := by
  have hget : (get : MachineSteps Machine) m = .ok m m := rfl
  rw [init_eq, Locked.init, bind_of_ok hget, hspaces]
  rfl

/-- One that was not builds a tree on a new root. -/
theorem init_unstarted (hspaces : m.spaces = none) (map : BootMap) (windows : List DeviceWindow) :
    init format config cpu map windows m = (do
      let root ← onStore (TableStore.addTable format format.topLevel false)
      let result ← Steps.attempt
        (onStore (populate format config ⟨root, false⟩ map m.descriptor.kernelImage windows))
      finishInit format cpu root result : MachineSteps AddressSpace) m := by
  have hget : (get : MachineSteps Machine) m = .ok m m := rfl
  rw [init_eq, Locked.init, bind_of_ok hget, hspaces]
  simp only [Cpu.supports, activate_eq]
  rfl

theorem ends_init_unstarted (hspaces : m.spaces = none) (map : BootMap)
    (windows : List DeviceWindow) (ok : AddressSpace → Machine → Prop)
    (failed : Failure → Machine → Prop) :
    Ends (init format config cpu map windows) m ok failed
      ↔ Ends (do
          let root ← onStore (TableStore.addTable format format.topLevel false)
          let result ← Steps.attempt
            (onStore (populate format config ⟨root, false⟩ map m.descriptor.kernelImage windows))
          finishInit format cpu root result : MachineSteps AddressSpace) m ok failed := by
  unfold Ends
  rw [init_unstarted hspaces]

/-- The kernel tree was written to memory and the processor was brought to it. -/
structure Installed (format : Format) (cpu : CpuId) (root : TableId) (frame : PhysAddr)
    (s : TableStore) (m m' : Machine) : Prop where
  frames : m'.store.frames = s.frames
  unmarked : Arena.Unmarked s.arena m'.store.arena
  settled : Arena.Settled format m'.store.arena m'.memory
  census : m'.census = some (root, ⟨frame⟩, [])
  image : m'.descriptor.kernelImage = m.descriptor.kernelImage
  moved : Moved cpu ⟨frame, none⟩ m m'
  feed : m'.rootFeed = frame

theorem ends_finishInit {root frame : Nat} {s : TableStore} (mapped : List DeviceWindow)
    (hspaces : m.spaces = none) (orderly : s.Orderly format root stock)
    (synced : Arena.Synced format s.arena m.memory) (hframe : s.arena.frame? root = some frame) :
    Ends (finishInit format cpu root (.ok mapped)) { m with store := s }
      (fun space m' => space = ⟨frame⟩ ∧ Installed format cpu root frame s m m')
      (fun _ _ => False) := by
  rw [finishInit, ends_bind, ends_modify, ends_bind]
  refine ends_commit (m := { m with
      store := s, descriptor := (m.descriptor.publishDeviceWindows mapped).2 }) orderly
    synced _ _ fun count a memory hunmarked hsettled => ?_
  obtain ⟨t, ht, htframe⟩ := Option.map_eq_some_iff.mp ((hunmarked.alike.frame root).trans hframe)
  rw [ends_bind, ends_onStore, TableStore.ends_table (by exact ht), htframe, ends_bind,
    ends_onCpu, ends_bind, ends_modify, ends_bind, ends_get, ends_bind]
  refine ends_write _ _ _ _ fun m' hstill => ?_
  rw [ends_pure]
  -- the log apart, everything is as the last change left it
  refine ⟨rfl, ?_, ?_, ?_, ?_, ?_, ⟨?_, fun hne => ?_, fun other => ?_⟩, hstill.same.feed⟩
  · rw [hstill.quiet.store.frames]; rfl
  · rw [hstill.quiet.store.arena]; exact hunmarked
  · rw [hstill.quiet.store.arena, hstill.quiet.memory]; exact hsettled
  · rw [hstill.quiet.census]; rfl
  · rw [hstill.quiet.image]; rfl
  · rw [hstill.same.root]
    exact congrArg Cpu.root
      (cpu_modifyCpu_same m cpu fun c => (c.loadRoot frame).enablePaging format)
  · rw [hstill.same.root]
    exact congrArg Cpu.root (cpu_modifyCpu_other m
      (fun c => (c.loadRoot frame).enablePaging format) (Ne.symm hne))
  · rw [hstill.same.noted, roots?_of_some rfl, roots?, hspaces]
    simp only [Std.TreeMap.getElem?_insert, Nat.compare_eq_eq, eq_comm (a := other)]
    rfl

theorem Installed.initDone {root frame : Nat} {first s : TableStore}
    (h : Installed format cpu root frame s m m') (hspaces : m.spaces = none)
    (hfirst : FirstRoot format stock m.memory frame root first)
    (he : KernelEdits format config ⟨root, false⟩ m.descriptor.kernelImage first s) :
    InitDone format config stock cpu ⟨frame⟩ m m' where
  started := ⟨hspaces, ⟨frame, root, first, s, hfirst.arena, hfirst.name, hfirst.ledger, he,
    h.frames, h.unmarked, h.census⟩, h.settled, h.image⟩
  alive := alive_iff.mpr ⟨_, _, _, h.census, .inl rfl⟩
  moved := h.moved
  feed := h.feed

section

variable {space : AddressSpace} {root : TableId} {s : TableStore}

theorem Installed.kernelSpace (h : Installed format cpu root space.root s m m') :
    m'.kernelSpace = some space := by
  obtain ⟨spaces, hspaces, heq⟩ := exists_of_census h.census
  simp only [Spaces.census, Prod.mk.injEq] at heq
  rw [kernelSpace_of_some hspaces, heq.2.1]

theorem Installed.rootTable (h : Installed format cpu root space.root s m m')
    (hsound : m'.Sound format stock) : m'.rootTable space = some root := by
  obtain ⟨spaces, hspaces, heq⟩ := exists_of_census h.census
  simp only [Spaces.census, Prod.mk.injEq] at heq
  obtain ⟨htable, hkernel, -⟩ := heq
  have hframe := (hsound.spaces hspaces).kernel
  rw [htable, hkernel] at hframe
  exact rootTable_of_frame hsound ⟨spaces, hspaces, .inl hkernel.symm⟩ hframe

theorem Installed.lookup (h : Installed format cpu root space.root s m m') (w : Nat) :
    m'.store.arena.lookup format w format.levels root
      = s.arena.lookup format w format.levels root :=
  Arena.lookup_alike h.unmarked.alike w format.levels root

/-- What the kernel tree showed when it was built is what is translated. -/
theorem Installed.translate (h : Installed format cpu root space.root s m m')
    (hsound : m'.Sound format stock) (w : Nat) :
    m'.translate format space w = .ok ((s.arena.view format root w).map Prod.fst) := by
  rw [translate_eq_view hsound (h.rootTable hsound) w, Arena.view_congr (h.lookup w)]

end

/-- A kernel tree that was built on its first root is the one the processor ends up on. -/
theorem ends_finishInit_built {root frame : Nat} {first s : TableStore} (mapped : List DeviceWindow)
    (hspaces : m.spaces = none) (hfirst : FirstRoot format stock m.memory frame root first)
    (he : KernelEdits format config ⟨root, false⟩ m.descriptor.kernelImage first s) :
    Ends (finishInit format cpu root (.ok mapped)) { m with store := s }
      (fun space m' => space.root = frame ∧ InitDone format config stock cpu space m m'
        ∧ Installed format cpu root space.root s m m')
      (fun _ _ => False) := by
  have hready := hfirst.ready
  have allReady : AllReady format root
      (KernelRequest format config ⟨root, false⟩ m.descriptor.kernelImage) first :=
    allReady_kernel ⟨root, false⟩ hready.root
  refine (ends_finishInit mapped hspaces (he.orderly hready.orderly allReady)
    (he.synced hready.orderly allReady hfirst.synced)
    ((he.grows hready.orderly allReady).frame hfirst.frame_root)).mono
    (fun space m' h' => ?_) fun _ _ hf => hf
  obtain ⟨rfl, hinstalled⟩ := h'
  exact ⟨rfl, hinstalled.initDone hspaces hfirst he, hinstalled⟩

/-- Starting the manager, told by how the kernel tree is built: what `built` says of the tree on
its root, the processor ends up on; what building was refused for, starting is. -/
theorem ends_init_of_populate {map : BootMap} {windows : List DeviceWindow}
    (h : m.Sound format stock) (hspaces : m.spaces = none)
    (built : TableId → TableStore → Prop) (refused : MemoryError → Prop)
    (hbuilt : ∀ {frame : PhysAddr} {root : TableId} {s : TableStore},
      m.store.frames.allocatePage = (.ok frame, s.frames) →
      FirstRoot format stock m.memory frame root s →
        Ends (populate format config ⟨root, false⟩ map m.descriptor.kernelImage windows) s
          (fun _ s' => built root s') (onRefusal fun e _ => refused e)) :
    Ends (init format config cpu map windows) m
      (fun space m' => InitDone format config stock cpu space m m'
        ∧ m.store.frames.allocatePage.1 = .ok space.root
        ∧ ∃ root s, built root s ∧ Installed format cpu root space.root s m m')
      (onRefusal fun e m' => Restored stock m m'
        ∧ (refused e ∨ ∃ error, m.store.frames.allocatePage.1 = .error error
          ∧ e = .ofFrameError error)) := by
  rw [ends_init_unstarted hspaces, ends_bind, ends_onStore_refusal]
  refine (ends_addRoot h hspaces).weaken (fun root s₁ h₁ => ?_) fun e s₁ h₁ => ?_
  · obtain ⟨frame, hframes, hfirst⟩ := h₁
    have hready := hfirst.ready
    have allReady : AllReady format root
        (KernelRequest format config ⟨root, false⟩ m.descriptor.kernelImage) s₁ :=
      allReady_kernel ⟨root, false⟩ hready.root
    rw [ends_bind, ends_attempt, ends_onStore]
    refine ((ends_populate hready).and (hbuilt hframes hfirst)).mono
      (fun mapped s₂ h₂ => ?_) fun f s₂ h₂ => ?_
    · obtain ⟨he, hdone⟩ := h₂
      refine (ends_finishInit_built mapped hspaces hfirst he).mono
        (fun space m' h' => ?_) fun _ _ hf => hf.elim
      obtain ⟨hroot, hinit, hinstalled⟩ := h'
      exact ⟨hinit, by rw [hframes, hroot], root, s₂, hdone, hinstalled⟩
    · cases f with
      | fault fault => exact h₂.1.elim
      | refused error =>
        obtain ⟨he, hrefused⟩ := h₂
        -- nothing of the tree is left
        simp only [finishInit]
        rw [ends_bind, ends_onStore]
        refine (ends_abandon (he.orderly hready.orderly allReady).ledger).mono
          (fun _ s₃ h₃ => ?_) fun _ _ hf => hf.elim
        obtain ⟨taken, -, hfree, -⟩ := FrameAllocator.allocatePage_ok h.ledger.allocator hframes
        have htotal : stock.total ≠ 0 := by
          rw [← h.ledger.total]
          exact Nat.ne_of_gt (Nat.zero_lt_of_lt (FrameAllocator.lt_totalPages hfree))
        exact ⟨⟨rfl, h₃.2.trans (h.unstarted hspaces).symm, h₃.1,
          (h₃.1.initialized htotal).trans (h.ledger.initialized htotal).symm⟩, .inl hrefused⟩
  · exact ⟨h₁.1, .inr h₁.2⟩

/-- Where the tree can be built, the manager starts. -/
theorem exists_init {map : BootMap} {windows mapped : List DeviceWindow} {root : TableId}
    {s s' : TableStore} (cpu : CpuId) (h : m.Sound format stock) (hspaces : m.spaces = none)
    (hroot : TableStore.addTable format format.topLevel false m.store = .ok root s)
    (hpopulate : populate format config ⟨root, false⟩ map m.descriptor.kernelImage windows s
      = .ok mapped s') :
    ∃ space m', init format config cpu map windows m = .ok space m'
      ∧ InitDone format config stock cpu space m m'
      ∧ Installed format cpu root space.root s' m m' := by
  obtain ⟨frame, -, hfirst⟩ := (ends_addRoot h hspaces).of_ok hroot
  obtain ⟨space, m', hfinish, -, hinit, hinstalled⟩ := exists_of_ends
    (ends_finishInit_built mapped hspaces hfirst ((ends_populate hfirst.ready).of_ok hpopulate))
  refine ⟨space, m', ?_, hinit, hinstalled⟩
  have hadded : onStore (TableStore.addTable format format.topLevel false) m
      = .ok root { m with store := s } := by
    unfold onStore
    simp only
    rw [hroot]
  have hbuilt : Steps.attempt (onStore
      (populate format config ⟨root, false⟩ map m.descriptor.kernelImage windows))
      { m with store := s } = .ok (.ok mapped) { m with store := s' } := by
    unfold Steps.attempt onStore
    simp only
    rw [hpopulate]
  rw [init_unstarted hspaces, bind_of_ok hadded, bind_of_ok hbuilt, hfinish]

theorem ends_init {map : BootMap} {windows : List DeviceWindow} (h : m.Sound format stock) :
    Ends (init format config cpu map windows) m
      (fun space m' => (m' = m ∧ m.spaces ≠ none) ∨ InitDone format config stock cpu space m m')
      (onRefusal fun _ m' => Restored stock m m') := by
  cases hspaces : m.spaces with
  | some spaces =>
    unfold Ends
    rw [init_started hspaces]
    exact .inl ⟨rfl, by simp⟩
  | none =>
    refine (ends_init_of_populate h hspaces (fun _ _ => True) (fun _ => True) ?_).weaken
      (fun _ _ hdone => .inr hdone.1) fun _ _ hrestored => hrestored.1
    intro frame root s _ hfirst
    exact (ends_populate hfirst.ready).weaken (fun _ _ _ => trivial) fun _ _ _ => trivial

/-- Without a kernel image and windows, the kernel tree is that of the regions. -/
theorem ends_populate_regions {map : BootMap} (hbase : config.kernelImageBase = none)
    {tree : KernelTree} {image : Option MemoryRegion} {s : TableStore} {ok : TableStore → Prop}
    {failed : Failure → TableStore → Prop} :
    Ends (populate format config tree map image []) s (fun _ s' => ok s') failed
      ↔ Ends (mapRegions format config tree (map.regions.filter BootRegion.isMapped)) s
        (fun _ s' => ok s') failed := by
  have himage : mapImage format config tree image = pure () := by
    unfold mapImage
    rw [hbase]
  rw [populate, himage, ends_bind]
  exact Iff.rfl

/-- With nothing to map, the kernel tree is its root. -/
theorem populate_bare {map : BootMap} (hregions : map.regions.filter BootRegion.isMapped = [])
    (hbase : config.kernelImageBase = none) (tree : KernelTree) (image : Option MemoryRegion) :
    populate format config tree map image [] = (pure [] : TableSteps (List DeviceWindow)) := by
  rw [populate, hregions, mapImage, hbase]
  rfl

end Manager

end KernelMemory
