/-
  KernelMemory.Manager.State — the whole machine as the memory manager sees it.

  A machine is one value: frames, tables and log (`TableStore`), memory, processors, the
  published descriptor, and what the manager knows about address spaces.  Operations are
  steps on it.
-/

import KernelMemory.Cpu
import KernelMemory.Paging.Walk

namespace KernelMemory

/-! ## Configuration -/

/-- Choices made once for a memory manager. -/
structure Config where
  /-- Use large pages where a range allows. -/
  largePages : Bool := true
  /-- Also map kernel memory at its physical address plus this offset. -/
  directMapOffset : Option Nat := none
  /-- Also map the kernel image at this address. -/
  kernelImageBase : Option VirtAddr := none
  deriving DecidableEq, Repr

/-- Technical form of a configuration. -/
def Config.debug (config : Config) : String :=
  let offset := match config.directMapOffset with
    | some offset => s!"Some({offset})"
    | none => "None"
  let base := match config.kernelImageBase with
    | some base => s!"Some({base.debug})"
    | none => "None"
  s!"VmmConfig \x7b large_pages: {config.largePages}, direct_map_offset: {offset}, kernel_image_base: {base} \x7d"

/-! ## Address spaces -/

/-- A handle on an address space: the physical address of its root. -/
structure AddressSpace where
  root : PhysAddr
  deriving DecidableEq, Repr

/-- Roots that a processor is using, as far as the manager knows. -/
structure CpuRoots where
  /-- The root last loaded there. -/
  loaded : PhysAddr
  /-- The root to go back to, while the processor is in the kernel space. -/
  saved : Option PhysAddr
  deriving DecidableEq, Repr

/-- The address spaces in existence. -/
structure Spaces where
  /-- The root table of the kernel space. -/
  kernelTable : TableId
  /-- The kernel space. -/
  kernel : AddressSpace
  /-- The task spaces alive. -/
  tasks : List AddressSpace
  cpuRoots : Std.TreeMap CpuId CpuRoots

namespace Spaces

/-- Whether a processor has the root loaded, or will go back to it. -/
def inUse (s : Spaces) (root : PhysAddr) : Bool :=
  s.cpuRoots.toList.any fun (_, roots) => roots.loaded == root || roots.saved == some root

theorem inUse_iff {s : Spaces} {root : PhysAddr} :
    s.inUse root = true ↔
      ∃ (cpu : CpuId) (roots : CpuRoots), s.cpuRoots[cpu]? = some roots ∧
        (roots.loaded = root ∨ roots.saved = some root) := by
  simp only [inUse, List.any_eq_true, Prod.exists, Bool.or_eq_true, beq_iff_eq,
    Std.TreeMap.mem_toList_iff_getElem?_eq_some]

/-- The root a processor will go back to, if it entered the kernel space. -/
def savedRoot (s : Spaces) (cpu : CpuId) : Option PhysAddr := s.cpuRoots[cpu]?.bind CpuRoots.saved

/-- Whether a processor entered the kernel space and did not leave it yet. -/
def inKernel (s : Spaces) (cpu : CpuId) : Bool := (s.savedRoot cpu).isSome

/-- Notes the roots of a processor. -/
def setRoots (s : Spaces) (cpu : CpuId) (roots : CpuRoots) : Spaces :=
  { s with cpuRoots := s.cpuRoots.insert cpu roots }

/-- Notes that a root was loaded on a processor. -/
def noteLoaded (s : Spaces) (cpu : CpuId) (root : PhysAddr) : Spaces :=
  s.setRoots cpu ⟨root, s.savedRoot cpu⟩

/-- The root table of a task space. -/
def taskTable (s : Spaces) (arena : Arena) (space : AddressSpace) : Except MemoryError TableId :=
  if space = s.kernel then .error .kernelSpace
  else if space ∈ s.tasks then
    match arena.find? space.root with
    | some id => .ok id
    | none => .error .unknownAddressSpace
  else .error .unknownAddressSpace

/-- The root table of any space. -/
def anyTable (s : Spaces) (arena : Arena) (space : AddressSpace) : Option TableId :=
  if space = s.kernel ∨ space ∈ s.tasks then arena.find? space.root else none

end Spaces

/-! ## The machine -/

/-- The machine. -/
structure Machine where
  store : TableStore
  descriptor : Descriptor
  memory : Memory
  cpus : CpuId → Cpu
  /-- The address spaces, once the manager is started. -/
  spaces : Option Spaces
  /-- The root last loaded by the manager on any processor. -/
  rootFeed : PhysAddr

/-- Steps on the machine. -/
abbrev MachineSteps := Steps Machine

namespace Machine

/-- The machine after power-on, with an allocator that will set a pool of the given size
aside. -/
def powerOn (poolPages : Nat) : Machine :=
  ⟨{ TableStore.empty with frames := { poolPages := poolPages } }, {}, Memory.blank, fun _ => Cpu.powerOn,
    none, 0⟩

/-- The state of a processor. -/
def cpu (m : Machine) (id : CpuId) : Cpu := m.cpus id

/-- Changes the state of a processor. -/
def modifyCpu (m : Machine) (id : CpuId) (change : Cpu → Cpu) : Machine :=
  let changed := change (m.cpu id)
  { m with cpus := fun other => if other = id then changed else m.cpus other }

/-- Runs steps on the frames and tables of the machine. -/
def onStore (steps : TableSteps α) : MachineSteps α := fun m =>
  let store := m.store
  let m := { m with store := default }
  match steps store with
  | .ok a store => .ok a { m with store := store }
  | .error failure store => .error failure { m with store := store }

/-- Adds a record to the log. -/
def write (level : LogLevel) (text : String) : MachineSteps Unit :=
  onStore (TableStore.write level text)

/-- Changes a processor. -/
def onCpu (id : CpuId) (change : Cpu → Cpu) : MachineSteps Unit :=
  modify fun m => m.modifyCpu id change

/-! ### Critical sections

Frames and tables are changed with a lock held, and interrupts are off on the processor for as
long.  A lock held outside turns them off first; inside another section there is nothing to turn
off, and nothing is turned on at its end. -/

/-- Disables interrupts on a processor; tells whether they were enabled before. -/
def disableInterrupts (id : CpuId) : MachineSteps Bool :=
  modifyGet fun m =>
    let (wereEnabled, disabled) := (m.cpu id).disableInterrupts
    (wereEnabled, m.modifyCpu id fun _ => disabled)

/-- Runs steps with interrupts disabled on a processor.  On every way out, refusals and faults
too, they are restored. -/
def uninterrupted (id : CpuId) (steps : MachineSteps α) : MachineSteps α := do
  let wereEnabled ← disableInterrupts id
  try steps
  finally onCpu id fun cpu => cpu.restoreInterrupts wereEnabled

@[simp] theorem cpu_modifyCpu_same (m : Machine) (id : CpuId) (change : Cpu → Cpu) :
    (m.modifyCpu id change).cpu id = change (m.cpu id) := if_pos rfl

theorem cpu_modifyCpu_other (m : Machine) {id other : CpuId} (change : Cpu → Cpu)
    (h : id ≠ other) : (m.modifyCpu id change).cpu other = m.cpu other := if_neg h.symm

end Machine

end KernelMemory
