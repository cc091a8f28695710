/-
  KernelMemory.Proofs.Manager.TableFrames — the frames that tables are placed in.

  A table can be placed in any frame that the allocator hands out, and the allocator knows nothing
  of the format.  An entry has room for the address of a frame that the format reaches, and keeps
  the low part of any other.  So tables stay within reach as long as nothing else is offered to the
  allocator; where something is, a table is placed beyond reach only if no frame within it is free.
  For that nothing is asked of callers: they can give back frames that hold tables, too.

  Main results:
    * `turned_perform` — every call places tables in free frames, the lowest first;
    * `tables_placed` — which frames tables are in, and what processors run on;
    * `root_beyond_reach` — a boot map after which the kernel root is beyond reach.
-/

import KernelMemory.Proofs.Manager.System
import KernelMemory.Proofs.Paging.Encoding
import KernelMemory.Proofs.Paging.Placing
import KernelMemory.Proofs.Frames.Calls

namespace KernelMemory

open Machine Manager Steps TableStore

/-! ## Steps that change nothing -/

section

variable {R : Machine → Machine → Prop} {E : MemoryError → Prop} [Std.Refl R]

theorem keeps_activeRoot (cpu : CpuId) : Keeps R E (activeRoot cpu) := keeps_get.result _

theorem keeps_started [IsTrans Machine R] (h : E .notInitialized) : Keeps R E started := by
  unfold started
  apply keeps_get.bind
  intro m
  split
  · exact keeps_pure _
  · exact keeps_refuse h

end

/-! ## Steps on the frames and tables of a machine -/

/-- A relation between machines that their frames and tables are in. -/
def OnStores (R : TableStore → TableStore → Prop) (m m' : Machine) : Prop := R m.store m'.store

section

variable {R : TableStore → TableStore → Prop} {E : MemoryError → Prop}

instance [h : Std.Refl R] : Std.Refl (OnStores R) := ⟨fun m => h.refl m.store⟩

instance [h : IsTrans TableStore R] : IsTrans Machine (OnStores R) :=
  ⟨fun m m' m'' => h.trans m.store m'.store m''.store⟩

theorem keeps_onStore {α : Type} {steps : TableSteps α} (h : Keeps R E steps) :
    Keeps (OnStores R) E (onStore steps) := by
  intro m
  rw [ends_onStore]
  exact h m.store

/-- What is changed is not in frames and tables. -/
theorem keeps_elsewhere [Std.Refl R] {change : Machine → Machine}
    (h : ∀ m, (change m).store = m.store) :
    Keeps (OnStores R) E (modify change : MachineSteps Unit) :=
  keeps_modify fun m => by
    unfold OnStores
    rw [h]
    exact Std.Refl.refl m.store

theorem keeps_setSpaces [Std.Refl R] (spaces : Spaces) : Keeps (OnStores R) E (setSpaces spaces) :=
  keeps_elsewhere fun _ => rfl

theorem keeps_onCpu [Std.Refl R] (cpu : CpuId) (change : Cpu → Cpu) :
    Keeps (OnStores R) E (onCpu cpu change) := keeps_elsewhere fun _ => rfl

theorem keeps_load [Std.Refl R] (cpu : CpuId) (spaces : Spaces) (root : PhysAddr) :
    Keeps (OnStores R) E (load cpu spaces root) := fun m => Std.Refl.refl m.store

end

/-! ## Mapping -/

namespace Manager

variable {format : Format} {config : Config} {tree : KernelTree}

theorem notNested_checkRange {virt phys size : Nat} {error : MemoryError}
    (h : checkRange format virt phys size = .error error) : NotNested error := by
  rw [error_of_checkRange h]
  decide

theorem notNested_secondView {address : PhysAddr} {error : MemoryError}
    (h : secondView config address = .error error) : NotNested error := by
  rw [error_of_secondView h]
  decide

theorem draws_mapView {virt phys size : Nat} {flags : PageFlags} :
    Keeps Draws NotNested (mapView format config tree virt phys size flags) := by
  unfold mapView
  split
  · exact keeps_pure _
  · exact (keeps_ofResult fun _ => notNested_checkRange).bind fun _ => Walk.draws_mapRange _ _

theorem draws_mapViews {address size : Nat} {policy : CachePolicy} :
    Keeps Draws NotNested (mapViews format config tree address size policy) := by
  unfold mapViews
  apply (keeps_ofResult fun _ => notNested_secondView).bind
  intro second
  apply (keeps_ofResult fun _ => notNested_checkRange).bind
  intro _
  cases second with
  | none => exact draws_mapView.bind fun _ => keeps_pure _
  | some virt =>
    exact (keeps_ofResult fun _ => notNested_checkRange).bind fun _ => draws_mapView.bind fun _ =>
      draws_mapView.bind fun _ => keeps_pure _

theorem draws_mapRegions : ∀ {regions : List BootRegion},
    Keeps Draws NotNested (mapRegions format config tree regions) := by
  intro regions
  induction regions with
  | nil => exact keeps_pure _
  | cons region rest ih =>
    have hreachable : Keeps Draws NotNested (reachable format region) := by
      unfold reachable
      simp only
      split
      · exact (draws_write _ _).bind fun _ => keeps_pure _
      · split
        · exact (draws_write _ _).bind fun _ => keeps_pure _
        · exact keeps_pure _
    rw [mapRegions]
    apply hreachable.bind
    intro part
    cases part with
    | none => exact ih
    | some part => exact draws_mapViews.bind fun _ => (draws_write _ _).bind fun _ => ih

theorem draws_mapImage {image : Option MemoryRegion} :
    Keeps Draws NotNested (mapImage format config tree image) := by
  unfold mapImage
  split
  · exact keeps_pure _
  · split
    · exact draws_write _ _
    · exact draws_mapView.bind fun _ => draws_write _ _

theorem draws_mapWindows : ∀ {windows : List DeviceWindow},
    Keeps Draws NotNested (mapWindows format config tree windows) := by
  intro windows
  induction windows with
  | nil => exact keeps_pure _
  | cons window rest ih =>
    rw [mapWindows]
    apply draws_mapViews.attempt_bind
    intro result _
    split
    · exact (draws_write _ _).bind fun _ => ih.bind fun _ => keeps_pure _
    · exact keeps_refuse (by decide)
    · exact (draws_write _ _).bind fun _ => ih

theorem draws_populate {map : BootMap} {image : Option MemoryRegion} {windows : List DeviceWindow} :
    Keeps Draws NotNested (populate format config tree map image windows) :=
  draws_mapRegions.bind fun _ => draws_mapImage.bind fun _ => draws_mapWindows

theorem draws_shareSlots {source target : TableId} : ∀ {count index : Nat},
    Keeps Draws NotNested (shareSlots source target count index) := by
  intro count
  induction count with
  | zero => intro index; exact keeps_pure _
  | succ count ih =>
    intro index
    rw [shareSlots]
    apply (keeps_slot _ _).bind
    intro x
    cases x with
    | empty => exact ih
    | table child => exact (draws_setSlot _ _ _).bind fun _ => ih
    | leaf mapping => exact (draws_setSlot _ _ _).bind fun _ => ih
    | large mapping => exact (draws_setSlot _ _ _).bind fun _ => ih

/-! ## The parts of operations -/

theorem draws_commit : Keeps (OnStores Draws) NotNested (commit format) := by
  intro m
  unfold Ends commit
  cases e : m.store.arena.commit format m.memory with
  | error fault => exact ⟨fun tidy => .refl tidy, fun _ heq => nomatch heq⟩
  | ok done =>
    obtain ⟨count, arena, memory⟩ := done
    have hunmarked := Arena.unmarked_commit e
    exact draws_of_frames (fun h => h) (fun _ _ h => h) hunmarked.names hunmarked.alike.frame

theorem draws_invalidatePages {cpu : CpuId} {start : VirtAddr} : ∀ {count page : Nat},
    Keeps (OnStores Draws) NotNested (invalidatePages cpu start count page) := by
  intro count
  induction count with
  | zero => intro page; exact keeps_pure _
  | succ count ih =>
    intro page
    rw [invalidatePages]
    exact (keeps_lift _).bind fun _ => (keeps_onCpu _ _).bind fun _ => ih

theorem draws_invalidate {cpu : CpuId} {virt size : Nat} :
    Keeps (OnStores Draws) NotNested (invalidate cpu virt size) := by
  unfold invalidate
  split
  · exact keeps_pure _
  · split
    · exact keeps_onCpu _ _
    · split
      · exact keeps_onCpu _ _
      · exact draws_invalidatePages

theorem draws_writeLog (level : LogLevel) (text : String) :
    Keeps (OnStores Draws) NotNested (write level text) := keeps_onStore (draws_write level text)

/-! ## Operations -/

variable {cpu : CpuId} {space : AddressSpace}

theorem draws_mapKernel {address size : Nat} {policy : CachePolicy} :
    Keeps (OnStores Draws) NotNested (mapKernel format config cpu address size policy) := by
  have hreport : ∀ result, (∀ error, result = .error error → NotNested error) →
      Keeps (OnStores Draws) NotNested (reportKernel address size policy result) := by
    intro result hresult
    cases result with
    | error error => exact keeps_refuse (hresult error rfl)
    | ok changed =>
      simp only [reportKernel]
      split
      · exact (keeps_lift _).bind fun _ => draws_writeLog _ _
      · exact keeps_pure _
  rw [mapKernel_eq]
  refine (keeps_started (by decide)).bind fun spaces => ?_
  refine (keeps_onStore draws_mapViews).attempt_bind fun result hresult => ?_
  unfold finishKernel
  refine draws_commit.bind fun _ => ?_
  split
  · exact keeps_refuse (by decide)
  · apply draws_invalidate.bind
    intro _
    simp only
    split
    · exact draws_invalidate.bind fun _ => hreport _ hresult
    · exact hreport _ hresult

theorem draws_createSpace : Keeps (OnStores Draws) NotNested (createSpace format cpu) := by
  rw [createSpace_eq]
  unfold Locked.createSpace
  refine (keeps_started (by decide)).bind fun spaces => ?_
  refine (keeps_onStore (draws_addTable _ _ _)).bind fun root => ?_
  refine (keeps_onStore draws_shareSlots).bind fun _ => ?_
  refine draws_commit.bind fun _ => ?_
  refine (keeps_onStore (keeps_table root)).bind fun t => ?_
  exact (keeps_setSpaces _).bind fun _ => (draws_writeLog _ _).bind fun _ => keeps_pure _

theorem draws_enterKernel : Keeps (OnStores Draws) (fun _ => True) (enterKernel cpu) := by
  rw [enterKernel_eq]
  unfold Locked.enterKernel
  refine (keeps_started trivial).bind fun spaces => ?_
  split
  · exact keeps_refuse trivial
  · refine (keeps_activeRoot cpu).bind fun current => ?_
    refine (keeps_setSpaces _).bind fun _ => ?_
    split
    · exact keeps_load _ _ _
    · exact keeps_pure _

theorem draws_leaveKernel : Keeps (OnStores Draws) NotNested (leaveKernel cpu) := by
  rw [leaveKernel_eq]
  unfold Locked.leaveKernel
  refine (keeps_started (by decide)).bind fun spaces => ?_
  split
  · refine (keeps_setSpaces _).bind fun _ => (keeps_activeRoot cpu).bind fun current => ?_
    split
    · exact keeps_load _ _ _
    · exact keeps_pure _
  · exact keeps_refuse (by decide)

theorem draws_switchTo : Keeps (OnStores Draws) (fun _ => True) (switchTo cpu space) := by
  rw [switchTo_eq]
  unfold Locked.switchTo
  refine (keeps_started trivial).bind fun spaces => ?_
  split
  · exact keeps_refuse trivial
  · refine keeps_get.bind fun m => ?_
    split
    · exact keeps_refuse trivial
    · refine (keeps_activeRoot cpu).bind fun current => ?_
      split
      · exact keeps_load _ _ _
      · exact keeps_pure _

theorem notNested_taskTable {spaces : Spaces} {arena : Arena} {error : MemoryError}
    (h : spaces.taskTable arena space = .error error) : NotNested error := by
  rcases error_of_taskTable h with rfl | rfl
  · decide
  · decide

theorem draws_mapTask {virt phys size : Nat} :
    Keeps (OnStores Draws) NotNested (mapTask format config cpu space virt phys size) := by
  rw [mapTask_eq]
  unfold Locked.mapTask
  refine (keeps_started (by decide)).bind fun spaces => keeps_get.bind fun m =>
    (keeps_ofResult fun _ => notNested_taskTable).bind fun root => ?_
  split
  · exact keeps_pure _
  · split
    · exact keeps_refuse (by decide)
    · split
      · exact keeps_refuse (by decide)
      · split
        · exact keeps_refuse (by decide)
        · split
          · refine (keeps_onStore (Walk.draws_mapRange _ _)).attempt_bind fun result hresult => ?_
            exact draws_commit.bind fun _ => (keeps_ofResult hresult).bind fun _ => keeps_pure _
          · exact keeps_refuse (by decide)

/-- Coming back is refused as mapping was, or as leaving the kernel space can be. -/
theorem draws_finishUser {virt size : Nat} {result : Except MemoryError Unit} :
    Keeps (OnStores Draws) (fun error => NotNested error ∨ result = .error error)
      (finishUser cpu virt size result) := by
  unfold finishUser
  refine (draws_leaveKernel.mono id fun _ => .inl).bind fun _ => ?_
  split
  · exact keeps_refuse (.inr rfl)
  · exact keeps_refuse (.inr rfl)
  · exact (draws_invalidate.mono id fun _ => .inl).bind fun _ => keeps_ofResult fun _ => .inr

/-- A processor that was let into the kernel space maps there and comes back. -/
theorem draws_mapInside {virt phys size : Nat} :
    Keeps (OnStores Draws) NotNested (do
      let result ← attempt (mapTask format config cpu space virt phys size)
      finishUser cpu virt size result) := by
  refine draws_mapTask.attempt_bind fun result hresult => ?_
  exact draws_finishUser.mono id fun error h => h.elim id (hresult error)

theorem draws_mapUser {virt phys size : Nat} :
    Keeps (OnStores Draws) (fun _ => True) (mapUser format config cpu space virt phys size) := by
  unfold mapUser
  refine (keeps_activeRoot cpu).bind fun current => ?_
  split
  · exact keeps_refuse trivial
  · exact draws_enterKernel.bind fun _ => draws_mapInside.mono id fun _ _ => trivial

/-- Destroying a space only removes tables. -/
theorem sheds_deleteSpace : Keeps (OnStores Sheds) NotNested (deleteSpace format cpu space) := by
  rw [deleteSpace_eq]
  unfold Locked.deleteSpace
  refine (keeps_started (by decide)).bind fun spaces => keeps_get.bind fun m =>
    (keeps_ofResult fun _ => notNested_taskTable).bind fun root => ?_
  refine (keeps_activeRoot cpu).bind fun current => ?_
  split
  · exact keeps_refuse (by decide)
  · refine (keeps_onStore (Walk.sheds_releasePrivate format root)).bind fun released => ?_
    refine (keeps_setSpaces _).bind fun _ => keeps_onStore ?_
    exact keeps_modify fun s tidy => ⟨⟨tidy.names, tidy.frames⟩, .inl, fun hf => hf⟩

/-! ## Calls -/

/-- Frames were taken in the order of their numbers: those that are free were free, are offered,
or held a table, and a new table is in a frame that was free and lower than all that are. -/
structure Turned (offered : Set Nat) (s s' : TableStore) : Prop where
  tidy : s'.Tidy
  free : ∀ {f}, s'.frames.isFree f = true →
    s.frames.isFree f = true ∨ f ∈ offered ∨ ∃ id, s.arena.frame? id = some (f * frameSize)
  tables : ∀ {id frame}, s'.arena.frame? id = some frame →
    s.arena.frame? id = some frame
      ∨ ∃ f, frame = f * frameSize ∧ s.frames.isFree f = true
        ∧ ∀ {g}, s'.frames.isFree g = true → f < g

variable {offered : Set Nat} {s s' s'' : TableStore}

theorem turned_of_drawn (h : Drawn s s') : Turned offered s s' :=
  ⟨h.tidy, fun hf => .inl (h.free hf), h.tables⟩

theorem turned_of_shed (h : Shed s s') : Turned offered s s' :=
  ⟨h.tidy, fun hf => (h.free hf).imp_right .inr, fun hf => .inl (h.tables hf)⟩

/-- Tables were made, and then all were removed. -/
theorem turned_of_abandoned (h : Drawn s s') (h' : Shed s' s'')
    (hnone : ∀ id, s''.arena.frame? id = none) : Turned offered s s'' where
  tidy := h'.tidy
  free := fun {f} hf => by
    rcases h'.free hf with hfree | ⟨id, hid⟩
    · exact .inl (h.free hfree)
    · rcases h.tables hid with hold | ⟨g, heq, hfree, -⟩
      · exact .inr (.inr ⟨id, hold⟩)
      · rw [Nat.eq_of_mul_eq_mul_right (by decide) heq]
        exact .inl hfree
  tables := fun {id frame} hf => by
    rw [hnone id] at hf
    cases hf

/-- Giving a kernel tree up removes every table. -/
theorem ends_abandon_sheds : Ends abandon s
    (fun _ s' => Sheds s s' ∧ ∀ id, s'.arena.frame? id = none) (fun _ _ => False) := by
  have hempty : ∀ id, Arena.empty.frame? id = none := fun id => by
    rw [Arena.frame?, Arena.get?_empty]
    rfl
  rw [abandon, ends_bind]
  refine (ends_removeAll (P := Sheds s) (fun hs => (ends_removeTable_sheds _).mono
    (fun _ _ h => IsTrans.trans _ _ _ hs h) fun _ _ hf => hf) (Std.Refl.refl s)).mono
    (fun _ s' h' => ?_) fun _ _ hf => hf
  obtain ⟨s₁, h₁, -, rfl⟩ := h'
  refine ⟨fun tidy => ?_, hempty⟩
  exact ⟨⟨Arena.names_empty, (h₁ tidy).tidy.frames⟩, (h₁ tidy).free,
    fun {id frame} hf => by rw [hempty id] at hf; cases hf⟩

/-- From a tidy state, frames are taken in the order of their numbers. -/
def Turns (offered : Set Nat) (s s' : TableStore) : Prop := s.Tidy → Turned offered s s'

theorem turns_of_draws (h : Draws s s') : Turns offered s s' := fun tidy => turned_of_drawn (h tidy)

theorem turns_of_sheds (h : Sheds s s') : Turns offered s s' := fun tidy => turned_of_shed (h tidy)

/-- Starting the manager after the tables were built: they are written, and the processor is
brought to them. -/
theorem draws_finishInit {root : TableId} {mapped : List DeviceWindow} :
    Keeps (OnStores Draws) NotNested (finishInit format cpu root (.ok mapped)) := by
  rw [finishInit]
  refine Keeps.bind (keeps_elsewhere ?_) fun _ => draws_commit.bind fun _ => ?_
  · exact fun _ => rfl
  refine (keeps_onStore (keeps_table root)).bind fun t => ?_
  simp only
  refine (keeps_onCpu _ _).bind fun _ => Keeps.bind (keeps_elsewhere ?_) fun _ => ?_
  · exact fun _ => rfl
  exact keeps_get.bind fun m => (draws_writeLog _ _).bind fun _ => keeps_pure _

theorem turns_init {map : BootMap} {windows : List DeviceWindow} :
    Keeps (OnStores (Turns offered)) NotNested (init format config cpu map windows) := by
  intro m
  cases hspaces : m.spaces with
  | some spaces =>
    rw [init_eq, Locked.init, ends_bind, ends_get, hspaces]
    exact turns_of_draws (Std.Refl.refl m.store)
  | none =>
    rw [ends_init_unstarted hspaces, ends_bind]
    refine (keeps_onStore (draws_addTable _ _ _) m).mono (fun root m₁ h₁ => ?_)
      fun _ _ h₁ => ⟨turns_of_draws h₁.1, h₁.2⟩
    rw [ends_bind, ends_attempt]
    refine (keeps_onStore draws_populate m₁).mono (fun mapped m₂ h₂ => ?_) fun f m₂ h₂ => ?_
    · have hbuilt : Draws m.store m₂.store := IsTrans.trans _ _ _ h₁ h₂
      exact (draws_finishInit m₂).mono
        (fun _ _ h₃ => turns_of_draws (IsTrans.trans _ _ _ hbuilt h₃))
        fun _ _ h₃ => ⟨turns_of_draws (IsTrans.trans _ _ _ hbuilt h₃.1), h₃.2⟩
    · have hbuilt : Draws m.store m₂.store := IsTrans.trans _ _ _ h₁ h₂.1
      cases f with
      | fault fault => exact ⟨turns_of_draws hbuilt, h₂.2⟩
      | refused error =>
        -- what was built is taken down again
        simp only [finishInit]
        rw [ends_bind, ends_onStore]
        refine ends_abandon_sheds.mono (fun _ s₃ h₃ => ⟨fun tidy => ?_, h₂.2⟩) fun _ _ hf => hf.elim
        exact turned_of_abandoned (hbuilt tidy) (h₃.1 (hbuilt tidy).tidy) h₃.2

/-- The allocator starts with frames that the map offers. -/
theorem turns_initFrames {map : BootMap} (hwords : map.stop < Word.bound) :
    Keeps (OnStores (Turns {f | ∃ region ∈ map.regions, region.Offers f})) NotNested
      (initFrames map) := by
  intro m tidy
  show Turned _ m.store { m.store with
    frames := (m.store.frames.init map m.descriptor).2.1
    log := m.store.log.appendList (m.store.frames.init map m.descriptor).2.2.2 }
  refine ⟨⟨tidy.names, (FrameAllocator.init_wellFormed tidy.frames hwords _).1⟩, fun {f} hf => ?_,
    .inl⟩
  cases hbitmap : m.store.frames.bitmap with
  | some b =>
    -- it was started before, and stays as it is
    refine .inl ?_
    simp only [FrameAllocator.init, hbitmap] at hf
    exact hf
  | none =>
    have hunstarted : m.store.frames = ⟨m.store.frames.poolPages, none⟩ := by rw [← hbitmap]
    rw [hunstarted] at hf
    obtain ⟨⟨-, -, hoffers⟩, -⟩ := (FrameAllocator.mem_freeSet_init hwords m.descriptor f).mp hf
    exact .inr (.inl hoffers)

/-- Giving a block back offers its frames, whoever holds them. -/
theorem turns_freeBlock {address order : Nat} :
    Keeps (OnStores (Turns (FrameAllocator.givenBack address order))) NotNested
      (onStore (TableStore.freeBlock address order)) := by
  refine keeps_onStore fun s => TableStore.ends_freeBlock _ _ _ _ fun s' hframes harena tidy => ?_
  refine ⟨⟨by rw [harena]; exact tidy.names, ?_⟩, fun {f} hf => ?_, fun {id frame} hf => .inl ?_⟩
  · rw [hframes]
    exact (FrameAllocator.freeBlock_wellFormed tidy.frames address order).1
  · rw [hframes, FrameAllocator.isFree_freeBlock tidy.frames] at hf
    exact hf.imp_right fun ⟨haccepts, hle, hlt, _⟩ => .inl ⟨haccepts, hle, hlt⟩
  · rw [← harena]
    exact hf

end Manager

/-- The frames that a call offers to the allocator. -/
def Call.offered : Call → Set Nat
  | .initFrames map => {f | ∃ region ∈ map.regions, region.Offers f}
  | .freePage address => FrameAllocator.givenBack address 0
  | .freeBlock address order => FrameAllocator.givenBack address order
  | _ => ∅

/-- Whether the call is turned away on a processor that is in the kernel space already. -/
def Call.turnedAway : Call → Prop
  | .enterKernel | .switchTo _ | .mapUser .. => True
  | _ => False

/-- The addresses of a boot map are words. -/
def Call.Words : Call → Prop
  | .initFrames map => map.stop < Word.bound
  | _ => True

theorem Call.Permitted.words {held : Set Nat} {call : Call} (h : call.Permitted held) :
    call.Words := by
  cases call with
  | initFrames map => exact h
  | _ => trivial

namespace Manager

variable {format : Format} {config : Config} {cpu : CpuId}

/-- Any call, from any machine, takes frames in the order of their numbers; and only those that look
where the processor is can be refused for that. -/
theorem turned_perform {call : Call} (words : call.Words) :
    Keeps (OnStores (Turns call.offered)) (fun error => error = .nestedKernelEntry → call.turnedAway)
      (perform format config cpu call) := by
  have hnever : ∀ {away : Prop} error, NotNested error → error = .nestedKernelEntry → away :=
    fun _ hne heq => absurd heq hne
  cases call with
  | initFrames map =>
    rw [perform_initFrames]
    exact ((turns_initFrames words).mono id hnever).result _
  | allocatePage =>
    rw [perform_allocatePage]
    exact ((keeps_onStore draws_allocatePage).mono turns_of_draws hnever).result _
  | allocateBlock order zone =>
    rw [perform_allocateBlock]
    exact ((keeps_onStore (draws_allocateBlock order zone)).mono turns_of_draws hnever).result _
  | freePage address =>
    rw [perform_freePage]
    exact (turns_freeBlock.mono id hnever).result _
  | freeBlock address order =>
    rw [perform_freeBlock]
    exact (turns_freeBlock.mono id hnever).result _
  | init map windows => exact (turns_init.mono id hnever).result _
  | mapKernel address size policy => exact (draws_mapKernel.mono turns_of_draws hnever).result _
  | createSpace => exact (draws_createSpace.mono turns_of_draws hnever).result _
  | deleteSpace space => exact (sheds_deleteSpace.mono turns_of_sheds hnever).result _
  | leaveKernel => exact (draws_leaveKernel.mono turns_of_draws hnever).result _
  | mapUser space virt phys size =>
    apply Keeps.result
    exact draws_mapUser.mono turns_of_draws fun _ _ _ => trivial
  | enterKernel =>
    apply Keeps.result
    exact draws_enterKernel.mono turns_of_draws fun _ _ _ => trivial
  | switchTo space =>
    apply Keeps.result
    exact draws_switchTo.mono turns_of_draws fun _ _ _ => trivial

end Manager

/-! ## Runs -/

/-- What changes a machine: a call, or a section of one that maps user memory, on any processor
and with any arguments. -/
inductive Turn (format : Format) (config : Config) : Call → Machine → Machine → Prop where
  | call {cpu : CpuId} {call : Call} {result : Except MemoryError Answer} {m m' : Machine}
      (ends : attempt (perform format config cpu call) m = .ok result m') :
      Turn format config call m m'
  | enter {cpu : CpuId} {range : UserRange} {result : Except MemoryError Unit} {m m' : Machine}
      (ends : attempt (enterKernel cpu) m = .ok result m') : Turn format config range.call m m'
  | map {cpu : CpuId} {range : UserRange} {result : Except MemoryError Unit} {m m' : Machine}
      (ends : attempt (mapTask format config cpu range.space range.virt range.phys range.size) m
        = .ok result m') : Turn format config range.call m m'
  | leave {cpu : CpuId} {range : UserRange} {result answer : Except MemoryError Unit}
      {m m' : Machine}
      (ends : attempt (finishUser cpu range.virt range.size result) m = .ok answer m') :
      Turn format config range.call m m'

/-- The machines that turns lead to from power-on, while all calls keep the rule. -/
inductive Driven (format : Format) (config : Config) (Rule : Call → Prop) (poolPages : Nat) :
    Machine → Prop where
  | start : Driven format config Rule poolPages (Machine.powerOn poolPages)
  | turn {call : Call} {m m' : Machine} (before : Driven format config Rule poolPages m)
      (words : call.Words) (rule : Rule call) (turn : Turn format config call m m') :
      Driven format config Rule poolPages m'

/-- Frames that an entry can name. -/
def Format.nameable (format : Format) : Set Nat := {f | f * frameSize < format.physicalEnd}

/-- An entry that points at a table names its frame exactly if it can name it. -/
theorem mem_nameable_iff {format : Format} {f : Nat} {user : Bool} :
    f ∈ format.nameable
      ↔ format.addressField 0 (format.encodeTable (f * frameSize) user) = f * frameSize := by
  constructor
  · exact fun hlt => Format.addressField_encodeTable user hlt (Nat.mul_mod_left _ _)
  · intro heq
    show f * frameSize < format.physicalEnd
    have hlt := format.addressField_lt 0 (format.encodeTable (f * frameSize) user)
    rw [heq] at hlt
    cases format <;> exact hlt

/-- Free frames and frames of tables are among those of a set. -/
structure TableStore.Among (P : Set Nat) (s : TableStore) : Prop where
  tidy : s.Tidy
  free : ∀ {f}, s.frames.isFree f = true → f ∈ P
  tables : ∀ {id frame}, s.arena.frame? id = some frame → ∃ f ∈ P, frame = f * frameSize

section

variable {format : Format} {config : Config} {Rule : Call → Prop} {poolPages : Nat} {call : Call}
  {m m' : Machine} {P : Set Nat}

theorem Turn.turned (h : Turn format config call m m') (words : call.Words) :
    Turns call.offered m.store m'.store := by
  cases h with
  | call ends => exact ((turned_perform words).of_attempt ends).1
  | enter ends => exact turns_of_draws (draws_enterKernel.of_attempt ends).1
  | map ends => exact turns_of_draws (draws_mapTask.of_attempt ends).1
  | leave ends => exact turns_of_draws (draws_finishUser.of_attempt ends).1

/-- A turn puts tables into frames that were free, and makes frames free that are offered or held
a table. -/
theorem Manager.Turned.among {s s' : TableStore} {offered : Set Nat} (h : Turned offered s s')
    (hs : s.Among P) (hoffered : offered ⊆ P) : s'.Among P where
  tidy := h.tidy
  free := fun {f} hf => by
    rcases h.free hf with hfree | hnew | ⟨id, hid⟩
    · exact hs.free hfree
    · exact hoffered hnew
    · obtain ⟨g, hg, heq⟩ := hs.tables hid
      rw [Nat.eq_of_mul_eq_mul_right (by decide) heq]
      exact hg
  tables := fun hf => by
    rcases h.tables hf with hold | ⟨f, heq, hfree, -⟩
    · exact hs.tables hold
    · exact ⟨f, hs.free hfree, heq⟩

/-- Nothing but what was offered is free or holds a table. -/
theorem Driven.among (h : Driven format config (fun call => call.offered ⊆ P) poolPages m) :
    m.store.Among P := by
  induction h with
  | start =>
    have htidy : (Machine.powerOn poolPages).store.Tidy :=
      ⟨Arena.names_empty, FrameAllocator.wellFormed_unstarted poolPages⟩
    refine ⟨htidy, fun {f} hf => (nomatch hf), fun {id frame} hf => ?_⟩
    rw [Arena.frame?, show (Machine.powerOn poolPages).store.arena = Arena.empty from rfl,
      Arena.get?_empty] at hf
    cases hf
  | turn before words rule turn ih => exact ((turn.turned words) ih.tidy).among ih rule

theorem words_call (range : UserRange) : range.call.Words := trivial

/-- What processors do in their sections are turns. -/
theorem Reachable.driven {s : System} (h : Reachable format config Rule poolPages s)
    (hrule : ∀ range : UserRange, Rule range.call) :
    Driven format config Rule poolPages s.machine := by
  induction h with
  | start => exact .start
  | @step s s' cpu action _ hstep ih =>
    cases hstep with
    | @call _ call _ _ idle permitted rule ends =>
      exact ih.turn permitted.words rule (.call ends)
    | check idle rule active => exact ih
    | @enter _ range m' stage ends =>
      have hends : attempt (enterKernel cpu) s.machine = .ok (.ok ()) m' := by rw [attempt, ends]
      exact ih.turn (words_call range) (hrule range) (.enter hends)
    | @turnedAway _ range error m' stage ends =>
      have hends : attempt (enterKernel cpu) s.machine = .ok (.error error) m' := by
        rw [attempt, ends]
      exact ih.turn (words_call range) (hrule range) (.enter hends)
    | @map _ range _ _ stage ends => exact ih.turn (words_call range) (hrule range) (.map ends)
    | @leave _ range _ _ _ stage ends => exact ih.turn (words_call range) (hrule range) (.leave ends)

end

/-! ## Where tables are -/

/-- Where the tables of a machine are, and where the next ones are placed, after frames in `P` were
offered to the allocator. -/
structure Machine.TablesPlaced (format : Format) (config : Config) (P : Set Nat) (m : Machine) :
    Prop where
  /-- If no others were offered, tables are within reach, and entries name them in full. -/
  named : P ⊆ format.nameable → ∀ {id frame : Nat}, m.store.arena.frame? id = some frame →
    frame < format.physicalEnd
      ∧ ∀ user, format.addressField 0 (format.encodeTable frame user) = frame
  /-- A table is placed beyond reach only for want of frames: none within it is left. -/
  pressed : ∀ {call : Call} {m' : Machine}, call.Words → Turn format config call m m' →
    ∀ {id frame : Nat}, m'.store.arena.frame? id = some frame →
      m.store.arena.frame? id ≠ some frame → format.physicalEnd ≤ frame →
      ∀ {f : Nat}, m'.store.frames.isFree f = true → f ∉ format.nameable

/-- The root is that of a directory, or the one after power-on. -/
def Machine.HoldsRoot (format : Format) (m : Machine) (root : PhysAddr) : Prop :=
  root = Cpu.powerOn.root ∨ ∃ id, m.store.arena.level? id = some format.topLevel
    ∧ m.store.arena.frame? id = some root

section

variable {format : Format} {config : Config} {poolPages : Nat} {m : Machine} {P : Set Nat}

theorem tablesPlaced_of_driven
    (h : Driven format config (fun call => call.offered ⊆ P) poolPages m) :
    m.TablesPlaced format config P where
  named := fun hreach {id frame} hf => by
    obtain ⟨f, hin, rfl⟩ := h.among.tables hf
    exact ⟨hreach hin, fun user => mem_nameable_iff.mp (hreach hin)⟩
  pressed := fun {call m'} words turn {id frame} hf hnew hbeyond {f} hfree hreach => by
    rcases ((turn.turned words) h.among.tidy).tables hf with hold | ⟨g, rfl, -, hlow⟩
    · exact hnew hold
    · -- the frame of the table is the lower of the two
      have hlt : g < f := hlow hfree
      have hin : f * frameSize < format.physicalEnd := hreach
      simp only [frameSize] at *
      omega

/-- After any calls, tables are placed as offered frames allow, and where callers give back what
they hold, processors run on directories. -/
theorem tables_placed (h : Driven format config (fun call => call.offered ⊆ P) poolPages m) :
    m.TablesPlaced format config P
      ∧ ∀ {s : System}, Reachable format config (fun call => call.offered ⊆ P) poolPages s →
        s.machine = m → ∀ cpu, m.HoldsRoot format (m.cpu cpu).root := by
  refine ⟨tablesPlaced_of_driven h, fun {s} hs heq cpu => ?_⟩
  subst heq
  rcases hs.sound.placed.legit cpu with hzero | halive
  · exact .inl hzero
  · obtain ⟨id, -, hlevel, hframe⟩ := rootTable_of_alive hs.sound.machine halive
    exact .inr ⟨id, hlevel, hframe⟩

/-- A boot map that ends within reach offers frames within reach only. -/
theorem offered_initFrames_subset {map : BootMap} (hstop : map.stop ≤ format.physicalEnd) :
    (Call.initFrames map).offered ⊆ format.nameable := by
  intro f hf
  obtain ⟨region, hregion, -, -, hlast⟩ := hf
  have hle : region.stop ≤ map.stop := BootMap.region_stop_le hregion
  have hlt : f * frameSize < region.stop := by
    simp only [frameSize] at *
    omega
  exact Nat.lt_of_lt_of_le hlt (Nat.le_trans hle hstop)

/-- In particular, after the start on memory within reach there are tables, and entries name
them. -/
theorem tables_placed_started : ∃ m,
    Driven .narrow {} (fun call => call.offered ⊆ Format.narrow.nameable) 0 m
      ∧ m.TablesPlaced .narrow {} Format.narrow.nameable
      ∧ (∀ cpu, m.HoldsRoot .narrow (m.cpu cpu).root)
      ∧ ∃ id frame, m.store.arena.frame? id = some frame := by
  obtain ⟨m, stock, h, -, spaces, hspaces, -⟩ : ∃ m stock,
      Answered .narrow {} (fun call => call.offered ⊆ Format.narrow.nameable) 0
        [(0, .initFrames smallMap), (0, .init smallMap [])] m stock ∧ _ ∧ _ :=
    exists_started_smallMap rfl (offered_initFrames_subset (by decide)) (Set.empty_subset _)
  have hdriven : Driven .narrow {} (fun call => call.offered ⊆ Format.narrow.nameable) 0 m :=
    h.reachable.driven fun range => Set.empty_subset _
  obtain ⟨hplaced, hroots⟩ := tables_placed hdriven
  exact ⟨m, hdriven, hplaced, hroots h.reachable rfl, spaces.kernelTable, spaces.kernel.root,
    (h.reachable.sound.machine.spaces hspaces).kernel⟩

/-- Memory above 4 GiB, and nothing else that is free. -/
def highMap : BootMap :=
  ⟨[⟨0, .reserved, .none⟩, ⟨0x100000000, .free, ⟨false, true⟩⟩, ⟨0x100004000, .endMarker, .none⟩],
    by decide⟩

/-- The first frame handed out is the first one above 4 GiB. -/
theorem allocatePage_highMap :
    (FrameAllocator.init ⟨0, none⟩ highMap {}).2.1.allocatePage.1 = .ok 0x100000000 := by
  have hwords : highMap.stop < Word.bound := by decide
  have hwf : (FrameAllocator.init ⟨0, none⟩ highMap {}).2.1.WellFormed :=
    (FrameAllocator.init_wellFormed (FrameAllocator.wellFormed_unstarted 0) hwords {}).1
  have hregions : highMap.regions
      = [⟨⟨0, 0x100000000⟩, .reserved, .none⟩, ⟨⟨0x100000000, 0x4000⟩, .free, ⟨false, true⟩⟩] := by
    decide
  have hfree : ∀ f, (FrameAllocator.init ⟨0, none⟩ highMap {}).2.1.isFree f = true
      ↔ 0x100000 ≤ f ∧ f < 0x100004 := by
    intro f
    rw [FrameAllocator.isFree_init, FrameBitmap.isFree_ofMap (by rw [hregions]; decide), hregions]
    constructor
    · rintro ⟨-, -, region, hregion, hkind, hbase, hstop⟩
      rcases List.mem_pair.mp hregion with rfl | rfl
      · cases hkind
      · have hfirst : ¬ f * frameSize < 0x100000000 := hbase
        have hlast : ¬ 0x100000000 + 0x4000 < (f + 1) * frameSize := hstop
        simp only [frameSize] at *
        omega
    · rintro ⟨hfirst, hlast⟩
      refine ⟨by omega, ?_, _, List.mem_cons_of_mem _ List.mem_cons_self, rfl, ?_, ?_⟩
      · show f < 0x100004000 / frameSize
        simp only [frameSize]
        omega
      · show ¬ f * frameSize < 0x100000000
        simp only [frameSize]
        omega
      · show ¬ 0x100000000 + 0x4000 < (f + 1) * frameSize
        simp only [frameSize]
        omega
  obtain ⟨address, after, e⟩ := FrameAllocator.exists_allocatePage hwf ((hfree 0x100000).mpr (by decide))
  obtain ⟨f, rfl, hf, -⟩ := FrameAllocator.allocatePage_ok hwf e
  have hle := FrameAllocator.allocatePage_le hwf e ((hfree 0x100000).mpr (by decide))
  have hge := ((hfree f).mp hf).1
  rw [e, show f * frameSize = 0x100000000 by simp only [frameSize] at *; omega]

/-- The manager starts on it, and the kernel root is in a frame that no entry can name; what an
entry would keep of it is the address of frame 0. -/
theorem root_beyond_reach : ∃ m root,
    run .narrow {} (Machine.powerOn 0) [(0, .initFrames highMap), (0, .init highMap [])] = .ok m
      ∧ m.store.arena.frame? root = some 0x100000000
      ∧ (m.cpu 0).root = 0x100000000
      ∧ Format.narrow.physicalEnd ≤ 0x100000000
      ∧ ∀ user, Format.narrow.addressField 0 (Format.narrow.encodeTable 0x100000000 user) = 0 := by
  obtain ⟨m, stock, h, -, spaces, hspaces, -, hkernel, hroot, -⟩ : ∃ m stock,
      Answered .narrow {} AnyCall 0 [(0, .initFrames highMap), (0, .init highMap [])] m stock
        ∧ _ ∧ _ :=
    exists_started (by decide) (by decide) rfl rfl allocatePage_highMap trivial trivial 0
  have hframe := (h.reachable.sound.machine.spaces hspaces).kernel
  rw [hkernel] at hframe hroot
  exact ⟨m, spaces.kernelTable, h.run, hframe, hroot, by decide, by decide⟩

end

end KernelMemory
