/-
  KernelMemory.Proofs.Manager.CriticalSections — interrupts come back after every operation.

  An operation turns interrupts off on its processor for as long as it holds the lock, and what it
  does meanwhile asks nothing of the interrupt flag and leaves it alone: run with the flag set to
  either value, it ends alike, with the flag set so.  Hence nobody can tell, once the operation has
  ended, in whichever way, that interrupts were off.

  Main results:
    * `uninterrupted_eq` — steps that leave the flag alone run under the bracket as they do without;
    * `init_eq`, `mapKernel_eq`, `createSpace_eq`, `deleteSpace_eq`, `enterKernel_eq`,
      `leaveKernel_eq`, `switchTo_eq`, `mapTask_eq` — the operations are such steps.
-/

import KernelMemory.Manager.Call
import KernelMemory.Proofs.Lockstep

namespace KernelMemory

open Machine Steps

variable {α β : Type} {format : Format} {config : Config} {m m' : Machine} {cpu : CpuId}
  {enabled : Bool}

namespace Machine

/-- The machine with interrupts enabled or disabled on a processor. -/
def setInterrupts (m : Machine) (cpu : CpuId) (enabled : Bool) : Machine :=
  m.modifyCpu cpu fun c => c.setInterrupts enabled

/-- The second machine is the first with the interrupt flag of a processor set. -/
def Flagged (cpu : CpuId) (enabled : Bool) (m m' : Machine) : Prop :=
  m' = m.setInterrupts cpu enabled

/-- Steps that neither look at the interrupt flag of a processor nor change it. -/
def LeavesInterrupts (cpu : CpuId) (steps : MachineSteps α) : Prop :=
  ∀ enabled, Lockstep (Flagged cpu enabled) steps

/-! ## Setting the flag -/

theorem modifyCpu_modifyCpu (m : Machine) (cpu : CpuId) (first second : Cpu → Cpu) :
    (m.modifyCpu cpu first).modifyCpu cpu second = m.modifyCpu cpu fun c => second (first c) := by
  have hcpus : ((m.modifyCpu cpu first).modifyCpu cpu second).cpus
      = (m.modifyCpu cpu fun c => second (first c)).cpus := by
    funext other
    by_cases h : other = cpu
    · simp [modifyCpu, Machine.cpu, h]
    · simp [modifyCpu, h]
  exact congrArg (fun cpus => { m with cpus := cpus }) hcpus

theorem modifyCpu_self (m : Machine) (cpu : CpuId) {change : Cpu → Cpu}
    (h : change (m.cpu cpu) = m.cpu cpu) : m.modifyCpu cpu change = m := by
  have hcpus : (m.modifyCpu cpu change).cpus = m.cpus := by
    funext other
    by_cases heq : other = cpu
    · rw [heq]
      exact (if_pos rfl).trans h
    · exact if_neg heq
  exact congrArg (fun cpus => { m with cpus := cpus }) hcpus

theorem setInterrupts_self (m : Machine) (cpu : CpuId) :
    m.setInterrupts cpu (m.cpu cpu).interrupts = m := modifyCpu_self m cpu rfl

/-- What was disabled and is restored is what it was before. -/
theorem restore_setInterrupts (m : Machine) (cpu : CpuId) (wereEnabled : Bool) :
    ((m.setInterrupts cpu false).modifyCpu cpu fun c => c.restoreInterrupts wereEnabled)
      = m.setInterrupts cpu wereEnabled := by
  rw [setInterrupts, modifyCpu_modifyCpu]
  cases wereEnabled <;> rfl

/-! ## The bracket -/

/-- An end with the same result, in a changed state. -/
def endingIn (change : Machine → Machine) :
    EStateM.Result Failure Machine α → EStateM.Result Failure Machine α
  | .ok a m => .ok a (change m)
  | .error failure m => .error failure (change m)

/-- The steps run with interrupts disabled; afterwards they are restored. -/
theorem uninterrupted_apply (cpu : CpuId) (steps : MachineSteps α) (m : Machine) :
    uninterrupted cpu steps m
      = endingIn (fun m' => m'.modifyCpu cpu fun c => c.restoreInterrupts (m.cpu cpu).interrupts)
        (steps (m.setInterrupts cpu false)) := by
  show (tryFinally steps _) (m.setInterrupts cpu false) = _
  unfold tryFinally
  simp only [tryFinally', Functor.map, EStateM.map]
  cases steps (m.setInterrupts cpu false) <;> rfl

theorem LeavesInterrupts.run {steps : MachineSteps α} (h : LeavesInterrupts cpu steps)
    (enabled : Bool) (m : Machine) :
    steps (m.setInterrupts cpu enabled)
      = endingIn (fun m' => m'.setInterrupts cpu enabled) (steps m) := by
  have hends := h enabled m _ rfl
  cases hm : steps m with
  | ok a s =>
    cases ht : steps (m.setInterrupts cpu enabled) with
    | ok b t =>
      rw [hm, ht] at hends
      obtain ⟨rfl, rfl⟩ := hends
      rfl
    | error failure t =>
      rw [hm, ht] at hends
      exact hends.elim
  | error failure s =>
    cases ht : steps (m.setInterrupts cpu enabled) with
    | ok b t =>
      rw [hm, ht] at hends
      exact hends.elim
    | error other t =>
      rw [hm, ht] at hends
      obtain ⟨rfl, rfl⟩ := hends
      rfl

/-- Steps that leave the interrupt flag alone run under the bracket as they do without. -/
theorem uninterrupted_eq {steps : MachineSteps α} (h : LeavesInterrupts cpu steps) :
    uninterrupted cpu steps = steps := by
  funext m
  -- restored after the steps is set before them to what it was
  have hset : endingIn (fun m' => m'.modifyCpu cpu fun c => c.restoreInterrupts (m.cpu cpu).interrupts)
        (endingIn (fun m' => m'.setInterrupts cpu false) (steps m))
      = endingIn (fun m' => m'.setInterrupts cpu (m.cpu cpu).interrupts) (steps m) := by
    cases steps m with
    | ok a s => exact congrArg _ (restore_setInterrupts s cpu _)
    | error failure s => exact congrArg _ (restore_setInterrupts s cpu _)
  calc uninterrupted cpu steps m
      = endingIn _ (steps (m.setInterrupts cpu false)) := uninterrupted_apply cpu steps m
    _ = endingIn (fun m' => m'.setInterrupts cpu (m.cpu cpu).interrupts) (steps m) := by
      rw [h.run, hset]
    _ = steps (m.setInterrupts cpu (m.cpu cpu).interrupts) := (h.run _ m).symm
    _ = steps m := by rw [setInterrupts_self]

/-! ## Steps that leave the flag alone -/

namespace LeavesInterrupts

theorem pure (a : α) : LeavesInterrupts cpu (pure a : MachineSteps α) :=
  fun _ => lockstep_pure a

theorem refuse (error : MemoryError) : LeavesInterrupts cpu (refuse error : MachineSteps α) :=
  fun _ => lockstep_refuse error

theorem ofResult (result : Except MemoryError α) :
    LeavesInterrupts cpu (ofResult result : MachineSteps α) := fun _ => lockstep_ofResult result

theorem bind {steps : MachineSteps α} {next : α → MachineSteps β}
    (h : LeavesInterrupts cpu steps) (hnext : ∀ a, LeavesInterrupts cpu (next a)) :
    LeavesInterrupts cpu (steps >>= next) :=
  fun enabled => (h enabled).bind fun a => hnext a enabled

theorem attempt {steps : MachineSteps α} (h : LeavesInterrupts cpu steps) :
    LeavesInterrupts cpu (Steps.attempt steps) := fun enabled => (h enabled).attempt

/-- What is read of the machine does not hang on the flag. -/
theorem get {next : Machine → MachineSteps α}
    (hsame : ∀ enabled m, next (m.setInterrupts cpu enabled) = next m)
    (h : ∀ m, LeavesInterrupts cpu (next m)) : LeavesInterrupts cpu (get >>= next) := by
  refine fun enabled => lockstep_get (fun m m' hm => ?_) fun m => h m enabled
  rw [hm]
  exact hsame enabled m

theorem modify {change : Machine → Machine}
    (h : ∀ enabled m, change (m.setInterrupts cpu enabled)
      = (change m).setInterrupts cpu enabled) :
    LeavesInterrupts cpu (modify change : MachineSteps Unit) := by
  refine fun enabled => lockstep_modify fun m m' hm => ?_
  rw [hm]
  exact h enabled m

/-- Frames and tables are apart from processors. -/
theorem onStore (steps : TableSteps α) : LeavesInterrupts cpu (onStore steps) := by
  intro enabled m m' hm
  have hstore : m'.store = m.store := by rw [hm]; rfl
  unfold Machine.onStore
  simp only [hstore]
  cases steps m.store with
  | ok a s => exact ⟨rfl, by rw [hm]; rfl⟩
  | error failure s => exact ⟨rfl, by rw [hm]; rfl⟩

theorem write (level : LogLevel) (text : String) : LeavesInterrupts cpu (write level text) :=
  onStore _

/-- A change of a processor that has nothing to do with the flag. -/
theorem onCpu (other : CpuId) {change : Cpu → Cpu}
    (h : ∀ enabled c, change (c.setInterrupts enabled) = (change c).setInterrupts enabled) :
    LeavesInterrupts cpu (onCpu other change) := by
  apply modify
  intro enabled m
  have hcpus : ((m.setInterrupts cpu enabled).modifyCpu other change).cpus
      = ((m.modifyCpu other change).setInterrupts cpu enabled).cpus := by
    funext third
    by_cases hother : third = other
    · by_cases heq : other = cpu
      · simp [setInterrupts, modifyCpu, Machine.cpu, hother, heq, h]
      · simp [setInterrupts, modifyCpu, Machine.cpu, hother, heq]
    · by_cases heq : third = cpu
      · have hne : cpu ≠ other := fun hc => hother (heq.trans hc)
        simp [setInterrupts, modifyCpu, Machine.cpu, heq, hne]
      · simp [setInterrupts, modifyCpu, hother, heq]
  exact congrArg (fun cpus => { m with cpus := cpus }) hcpus

end LeavesInterrupts

/-- So what is done with the frames alone is seen without its bracket. -/
@[simp] theorem uninterrupted_onStore (steps : TableSteps α) :
    uninterrupted cpu (onStore steps) = onStore steps := uninterrupted_eq (.onStore steps)

theorem root_setInterrupts (m : Machine) (cpu other : CpuId) (enabled : Bool) :
    ((m.setInterrupts cpu enabled).cpu other).root = (m.cpu other).root := by
  by_cases h : cpu = other
  · rw [← h, setInterrupts, cpu_modifyCpu_same]
    rfl
  · rw [setInterrupts, cpu_modifyCpu_other _ _ h]

end Machine

namespace Manager

/-! ## Steps that operations share -/

theorem leavesInterrupts_started : LeavesInterrupts cpu started := by
  refine .get (fun _ _ => rfl) fun m => ?_
  cases m.spaces with
  | some spaces => exact .pure spaces
  | none => exact .refuse _

theorem leavesInterrupts_setSpaces (spaces : Spaces) :
    LeavesInterrupts cpu (setSpaces spaces) := .modify fun _ _ => rfl

theorem leavesInterrupts_activeRoot (other : CpuId) : LeavesInterrupts cpu (activeRoot other) := by
  refine .get (fun enabled m => ?_) fun m => .pure _
  rw [root_setInterrupts]

theorem leavesInterrupts_commit : LeavesInterrupts cpu (commit format) := by
  intro enabled m m' hm
  have hstore : m'.store = m.store := by rw [hm]; rfl
  have hmemory : m'.memory = m.memory := by rw [hm]; rfl
  unfold commit
  rw [hstore, hmemory]
  cases m.store.arena.commit format m.memory with
  | ok done => exact ⟨rfl, by rw [hm]; rfl⟩
  | error fault => exact ⟨rfl, hm⟩

theorem leavesInterrupts_load (other : CpuId) (spaces : Spaces) (root : PhysAddr) :
    LeavesInterrupts cpu (load other spaces root) :=
  .bind (.onCpu other fun _ _ => rfl) fun _ => .modify fun _ _ => rfl

/-! ## The operations -/

theorem initFrames_eq (map : BootMap) : uninterrupted cpu (initFrames map) = initFrames map := by
  apply uninterrupted_eq
  refine .bind (fun enabled => lockstep_modifyGet fun m m' hm => ?_)
    fun _ => .bind (.onStore _) fun _ => .pure _
  rw [hm]
  exact ⟨rfl, rfl⟩

theorem activate_eq (root : PhysAddr) :
    activate format cpu root = (do
      onCpu cpu fun c => (c.loadRoot root).enablePaging format
      modify fun m => { m with rootFeed := root }) := by
  apply uninterrupted_eq
  exact .bind (.onCpu cpu fun _ _ => rfl) fun _ => .modify fun _ _ => rfl

theorem leavesInterrupts_activate (root : PhysAddr) :
    LeavesInterrupts cpu (activate format cpu root) := by
  rw [activate_eq]
  exact .bind (.onCpu cpu fun _ _ => rfl) fun _ => .modify fun _ _ => rfl

theorem init_eq (map : BootMap) (windows : List DeviceWindow) :
    init format config cpu map windows = Locked.init format config cpu map windows := by
  apply uninterrupted_eq
  refine .get (fun _ _ => rfl) fun m => ?_
  cases m.spaces with
  | some spaces => exact .pure _
  | none =>
    refine .bind (.onStore _) fun root => .bind (.attempt (.onStore _)) fun result => ?_
    cases result with
    | error error => exact .bind (.onStore _) fun _ => .refuse _
    | ok mapped =>
      exact .bind (.modify fun _ _ => rfl) fun _ => .bind leavesInterrupts_commit fun _ =>
        .bind (.onStore _) fun table => .bind (leavesInterrupts_activate _) fun _ =>
        .bind (leavesInterrupts_setSpaces _) fun _ => .get (fun _ _ => rfl) fun _ =>
        .bind (.write _ _) fun _ => .pure _

theorem mapKernelLocked_eq (address : PhysAddr) (size : Nat) (policy : CachePolicy) :
    uninterrupted cpu (Locked.mapKernel format config address size policy)
      = Locked.mapKernel format config address size policy := by
  apply uninterrupted_eq
  exact .bind leavesInterrupts_started fun _ => .bind (.attempt (.onStore _)) fun _ =>
    .bind leavesInterrupts_commit fun _ => .pure _

theorem createSpace_eq : createSpace format cpu = Locked.createSpace format := by
  apply uninterrupted_eq
  exact .bind leavesInterrupts_started fun _ => .bind (.onStore _) fun _ =>
    .bind (.onStore _) fun _ => .bind leavesInterrupts_commit fun _ => .bind (.onStore _) fun _ =>
    .bind (leavesInterrupts_setSpaces _) fun _ => .bind (.write _ _) fun _ => .pure _

theorem deleteSpace_eq (space : AddressSpace) :
    deleteSpace format cpu space = Locked.deleteSpace format cpu space := by
  apply uninterrupted_eq
  refine .bind leavesInterrupts_started fun spaces => .get (fun _ _ => rfl) fun m =>
    .bind (.ofResult _) fun root => .bind (leavesInterrupts_activeRoot cpu) fun active => ?_
  split
  · exact .refuse _
  · exact .bind (.onStore _) fun _ => .bind (leavesInterrupts_setSpaces _) fun _ => .write _ _

theorem enterKernel_eq : enterKernel cpu = Locked.enterKernel cpu := by
  apply uninterrupted_eq
  refine .bind leavesInterrupts_started fun spaces => ?_
  split
  · exact .refuse _
  · refine .bind (leavesInterrupts_activeRoot cpu) fun current =>
      .bind (leavesInterrupts_setSpaces _) fun _ => ?_
    split
    · exact leavesInterrupts_load _ _ _
    · exact .pure _

theorem leaveKernel_eq : leaveKernel cpu = Locked.leaveKernel cpu := by
  apply uninterrupted_eq
  refine .bind leavesInterrupts_started fun spaces => ?_
  split
  · refine .bind (leavesInterrupts_setSpaces _) fun _ =>
      .bind (leavesInterrupts_activeRoot cpu) fun current => ?_
    split
    · exact leavesInterrupts_load _ _ _
    · exact .pure _
  · exact .refuse _

theorem switchTo_eq (space : AddressSpace) : switchTo cpu space = Locked.switchTo cpu space := by
  apply uninterrupted_eq
  refine .bind leavesInterrupts_started fun spaces => ?_
  split
  · exact .refuse _
  · refine .get (fun _ _ => rfl) fun m => ?_
    split
    · exact .refuse _
    · refine .bind (leavesInterrupts_activeRoot cpu) fun current => ?_
      split
      · exact leavesInterrupts_load _ _ _
      · exact .pure _

theorem mapTask_eq (space : AddressSpace) (virt : VirtAddr) (phys : PhysAddr) (size : Nat) :
    mapTask format config cpu space virt phys size
      = Locked.mapTask format config space virt phys size := by
  apply uninterrupted_eq
  refine .bind leavesInterrupts_started fun spaces => .get (fun _ _ => rfl) fun m =>
    .bind (.ofResult _) fun root => ?_
  split
  · exact .pure _
  · split
    · exact .refuse _
    · split
      · exact .refuse _
      · split
        · exact .refuse _
        · split
          · exact .bind (.attempt (.onStore _)) fun _ => .bind leavesInterrupts_commit fun _ =>
              .bind (.ofResult _) fun _ => .pure _
          · exact .refuse _

/-! ## Calls on frames -/

theorem perform_initFrames (map : BootMap) :
    perform format config cpu (.initFrames map) = (do return .first (← initFrames map)) := by
  rw [perform, initFrames_eq]

theorem perform_allocatePage :
    perform format config cpu .allocatePage
      = (do return .frame (← onStore TableStore.allocatePage)) := by
  rw [perform, uninterrupted_onStore]

theorem perform_allocateBlock (order : Nat) (zone : Zone) :
    perform format config cpu (.allocateBlock order zone)
      = (do return .frame (← onStore (TableStore.allocateBlock order zone))) := by
  rw [perform, uninterrupted_onStore]

theorem perform_freePage (address : PhysAddr) :
    perform format config cpu (.freePage address) = (do
      onStore (TableStore.freePage address)
      return .done) := by
  rw [perform, uninterrupted_onStore]

theorem perform_freeBlock (address : PhysAddr) (order : Nat) :
    perform format config cpu (.freeBlock address order) = (do
      onStore (TableStore.freeBlock address order)
      return .done) := by
  rw [perform, uninterrupted_onStore]

end Manager

end KernelMemory
