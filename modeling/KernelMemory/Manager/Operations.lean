/-
  KernelMemory.Manager.Operations — what the memory manager does for the kernel.

  There is one kernel space and any number of task spaces.  A task space shares the upper
  half of the kernel root and has a lower half of its own.  Every operation runs on a
  processor; it either answers, or is refused with a `MemoryError`.

  What is known about spaces and tables is under a lock.  What an operation does while it holds
  the lock is in the namespace `Locked`; the operation itself takes the lock around it, so that
  interrupts are off on the processor meanwhile.  Changed tables are written to memory before the
  lock is released, whatever the result.
-/

import KernelMemory.Manager.Mapping

namespace KernelMemory

namespace Manager

open Machine

/-- Ranges of more pages than this make the processor drop every cached entry. -/
abbrev flushThreshold : Nat := 32

/-! ## Steps that operations share -/

/-- The address spaces, if the manager was started. -/
def started : MachineSteps Spaces := do
  match (← get).spaces with
  | some spaces => return spaces
  | none => Steps.refuse .notInitialized

/-- Replaces what is known about address spaces. -/
def setSpaces (spaces : Spaces) : MachineSteps Unit :=
  modify fun m => { m with spaces := some spaces }

/-- The root in use on a processor. -/
def activeRoot (cpu : CpuId) : MachineSteps PhysAddr := do return ((← get).cpu cpu).root

/-- Writes changed tables to memory; tells how many. -/
def commit (format : Format) : MachineSteps Nat := fun m =>
  match m.store.arena.commit format m.memory with
  | .ok (count, arena, memory) => .ok count { m with store := { m.store with arena := arena }, memory := memory }
  | .error fault => .error (.fault fault) m

/-- Loads a root on a processor and notes it. -/
def load (cpu : CpuId) (spaces : Spaces) (root : PhysAddr) : MachineSteps Unit := do
  onCpu cpu fun c => c.loadRoot root
  modify fun m => { m with rootFeed := root, spaces := some (spaces.noteLoaded cpu root) }

/-- Invalidates `count` pages from an address on. -/
def invalidatePages (cpu : CpuId) (start : VirtAddr) : (count page : Nat) → MachineSteps Unit
  | 0, _ => return ()
  | count + 1, page => do
    let address ← Word.add start (page * frameSize)
    onCpu cpu fun c => c.invalidatePage address
    invalidatePages cpu start count (page + 1)

/-- Makes a processor drop what it cached for a range, one page at a time if the range
is short. -/
def invalidate (cpu : CpuId) (virt : VirtAddr) (size : Nat) : MachineSteps Unit :=
  if size = 0 then return ()
  else
    match pageBounds virt 0 size with
    | none => onCpu cpu Cpu.invalidateAll
    | some (start, _, length) =>
      if flushThreshold < length / frameSize then onCpu cpu Cpu.invalidateAll
      else invalidatePages cpu start (length / frameSize) 0

/-! ## Starting -/

/-- Starts the frame allocator with a boot map; tells whether this was the first time. -/
def initFrames (map : BootMap) : MachineSteps Bool := do
  let (first, records) ← modifyGet fun m =>
    let (first, frames, descriptor, records) := m.store.frames.init map m.descriptor
    ((first, records),
      { m with store := { m.store with frames := frames }, descriptor := descriptor })
  onStore (TableStore.writeAll records)
  return first

/-- Gives up a kernel tree that could not be built. -/
def abandon : TableSteps Unit := do
  TableStore.removeAll
  modify fun s => { s with arena := Arena.empty }

/-- Makes a processor run on a tree.  Its root is noted for others to read before interrupts come
back on. -/
def activate (format : Format) (cpu : CpuId) (root : PhysAddr) : MachineSteps Unit :=
  uninterrupted cpu do
    onCpu cpu fun c => (c.loadRoot root).enablePaging format
    modify fun m => { m with rootFeed := root }

/-- Builds the kernel tree, unless there is one. -/
def Locked.init (format : Format) (config : Config) (cpu : CpuId) (map : BootMap)
    (windows : List DeviceWindow) : MachineSteps AddressSpace := do
  let m ← get
  match m.spaces with
  | some spaces => return spaces.kernel
  | none =>
    if (m.cpu cpu).supports format then
      let image := m.descriptor.kernelImage
      let root ← onStore (TableStore.addTable format format.topLevel false)
      match ← Steps.attempt (onStore (populate format config ⟨root, false⟩ map image windows)) with
      | .error error =>
        onStore abandon
        Steps.refuse error
      | .ok mapped =>
        modify fun m => { m with descriptor := (m.descriptor.publishDeviceWindows mapped).2 }
        let _ ← commit format
        let frame := (← onStore (TableStore.table root)).frame
        activate format cpu frame
        setSpaces ⟨root, ⟨frame⟩, [], (∅ : Std.TreeMap CpuId CpuRoots).insert cpu ⟨frame, none⟩⟩
        let pages := (← get).store.arena.size
        write .info s!"{format.name} translation active, root {hex frame}, {pages} table pages"
        return ⟨frame⟩
    else
      Steps.refuse .unsupportedMode

/-- Starts the manager: builds the kernel tree of a boot map, publishes the device windows
that were mapped, and makes the processor run on the tree.  A manager that is started
already keeps its kernel space; one that cannot be started leaves nothing behind. -/
def init (format : Format) (config : Config) (cpu : CpuId) (map : BootMap)
    (windows : List DeviceWindow) : MachineSteps AddressSpace :=
  uninterrupted cpu (Locked.init format config cpu map windows)

/-! ## Kernel memory -/

/-- Maps kernel memory in all its views; a refusal of the walk becomes a value. -/
def Locked.mapKernel (format : Format) (config : Config) (address : PhysAddr) (size : Nat)
    (policy : CachePolicy) : MachineSteps (Except MemoryError Bool) := do
  let spaces ← started
  let result ← Steps.attempt
    (onStore (mapViews format config ⟨spaces.kernelTable, true⟩ address size policy))
  let _ ← commit format
  return result

/-- Makes sure that kernel memory is mapped with a policy, in all its views.  Caches are told
with the lock released. -/
def mapKernel (format : Format) (config : Config) (cpu : CpuId) (address : PhysAddr)
    (size : Nat) (policy : CachePolicy) : MachineSteps Unit := do
  let result ← uninterrupted cpu (Locked.mapKernel format config address size policy)
  match result with
  | .error .addressOutOfRange => Steps.refuse .addressOutOfRange
  | result =>
    invalidate cpu (VirtAddr.identity address) size
    match secondView config address with
    | .ok (some virt) => invalidate cpu virt size
    | _ => pure ()
    match result with
    | .ok changed =>
      if changed then
        let stop ← Word.add address size
        write .trace s!"mapped {hex address}..{hex stop} {policy.name}"
    | .error error => Steps.refuse error

/-! ## Task spaces -/

/-- Copies `count` slots of one table, from `index` on, to another; empty ones are passed
over. -/
def shareSlots (source target : TableId) : (count index : Nat) → TableSteps Unit
  | 0, _ => return ()
  | count + 1, index => do
    match ← TableStore.slot source index with
    | .empty => pure ()
    | shared => TableStore.setSlot target index shared
    shareSlots source target count (index + 1)

/-- Makes a root with the slots of the kernel's upper half. -/
def Locked.createSpace (format : Format) : MachineSteps AddressSpace := do
  let spaces ← started
  let root ← onStore (TableStore.addTable format format.topLevel false)
  onStore (shareSlots spaces.kernelTable root (format.entries - format.userSplit) format.userSplit)
  let _ ← commit format
  let space : AddressSpace := ⟨(← onStore (TableStore.table root)).frame⟩
  setSpaces { spaces with tasks := spaces.tasks.insert space }
  write .debug s!"created address space {hex space.root}"
  return space

/-- Makes a task space: a root that shares the upper half of the kernel's. -/
def createSpace (format : Format) (cpu : CpuId) : MachineSteps AddressSpace :=
  uninterrupted cpu (Locked.createSpace format)

/-- Removes the tables of a task space, unless a processor uses it. -/
def Locked.deleteSpace (format : Format) (cpu : CpuId) (space : AddressSpace) :
    MachineSteps Unit := do
  let spaces ← started
  let root ← Steps.ofResult (spaces.taskTable (← get).store.arena space)
  if (← activeRoot cpu) = space.root || spaces.inUse space.root then
    Steps.refuse .addressSpaceActive
  else
    let released ← onStore (Walk.releasePrivate format root)
    setSpaces { spaces with tasks := spaces.tasks.erase space }
    write .debug s!"deleted address space {hex space.root} ({released} table pages)"

/-- Destroys a task space that no processor is using: its own tables and its root are given
back, shared tables and mapped frames are not. -/
def deleteSpace (format : Format) (cpu : CpuId) (space : AddressSpace) : MachineSteps Unit :=
  uninterrupted cpu (Locked.deleteSpace format cpu space)

/-- Notes the root of a processor, then loads the kernel's. -/
def Locked.enterKernel (cpu : CpuId) : MachineSteps Unit := do
  let spaces ← started
  if spaces.inKernel cpu then
    Steps.refuse .nestedKernelEntry
  else
    let current ← activeRoot cpu
    let spaces := spaces.setRoots cpu ⟨current, some current⟩
    setSpaces spaces
    if current ≠ spaces.kernel.root then
      load cpu spaces spaces.kernel.root

/-- Brings a processor to the kernel space and remembers where it was.  Does not nest. -/
def enterKernel (cpu : CpuId) : MachineSteps Unit := uninterrupted cpu (Locked.enterKernel cpu)

/-- Forgets the root noted for a processor and loads it. -/
def Locked.leaveKernel (cpu : CpuId) : MachineSteps Unit := do
  let spaces ← started
  match spaces.cpuRoots[cpu]? with
  | some ⟨loaded, some saved⟩ =>
    let spaces := spaces.setRoots cpu ⟨loaded, none⟩
    setSpaces spaces
    if (← activeRoot cpu) ≠ saved then
      load cpu spaces saved
  | _ => Steps.refuse .notInKernel

/-- Brings a processor back to where it was when it entered the kernel space. -/
def leaveKernel (cpu : CpuId) : MachineSteps Unit := uninterrupted cpu (Locked.leaveKernel cpu)

/-- Loads the root of a space, unless it is loaded. -/
def Locked.switchTo (cpu : CpuId) (space : AddressSpace) : MachineSteps Unit := do
  let spaces ← started
  if spaces.inKernel cpu then
    Steps.refuse .nestedKernelEntry
  else
    match spaces.anyTable (← get).store.arena space with
    | none => Steps.refuse .unknownAddressSpace
    | some _ =>
      if (← activeRoot cpu) ≠ space.root then
        load cpu spaces space.root

/-- Makes a space the active one on a processor. -/
def switchTo (cpu : CpuId) (space : AddressSpace) : MachineSteps Unit :=
  uninterrupted cpu (Locked.switchTo cpu space)

/-- Maps a range into the lower half of a task space, for user code. -/
def Locked.mapTask (format : Format) (config : Config) (space : AddressSpace) (virt : VirtAddr)
    (phys : PhysAddr) (size : Nat) : MachineSteps Unit := do
  let spaces ← started
  let root ← Steps.ofResult (spaces.taskTable (← get).store.arena space)
  if size = 0 then
    return ()
  else
    match Word.add? virt (size - 1) with
    | none => Steps.refuse .notUserAddress
    | some last =>
      if format.userEnd ≤ last then
        Steps.refuse .notUserAddress
      else
        match Word.add? phys (size - 1) with
        | none => Steps.refuse .addressOutOfRange
        | some lastPhys =>
          if format.physicalInRange lastPhys then
            let result ← Steps.attempt (onStore (Walk.mapRange format
              { root := root, virt := virt, phys := phys, size := size,
                flags := PageFlags.userData, rootSealed := false, user := true,
                largePages := config.largePages }))
            let _ ← commit format
            let _ ← Steps.ofResult result
          else
            Steps.refuse .addressOutOfRange

/-- Maps a range into the lower half of a task space; the part of `mapUser` that is done in
the kernel space. -/
def mapTask (format : Format) (config : Config) (cpu : CpuId) (space : AddressSpace)
    (virt : VirtAddr) (phys : PhysAddr) (size : Nat) : MachineSteps Unit :=
  uninterrupted cpu (Locked.mapTask format config space virt phys size)

/-- Maps a range into the lower half of the active task space, for user code.  The work is
done from the kernel space; the lock is released between the sections. -/
def mapUser (format : Format) (config : Config) (cpu : CpuId) (space : AddressSpace)
    (virt : VirtAddr) (phys : PhysAddr) (size : Nat) : MachineSteps Unit := do
  if space.root ≠ (← activeRoot cpu) then
    Steps.refuse .notActive
  else
    enterKernel cpu
    let result ← Steps.attempt (mapTask format config cpu space virt phys size)
    leaveKernel cpu
    match result with
    | .error .notUserAddress => Steps.refuse .notUserAddress
    | .error .addressOutOfRange => Steps.refuse .addressOutOfRange
    | result =>
      invalidate cpu virt size
      Steps.ofResult result

end Manager

/-! ## Questions -/

/-- An entry of a leaf table. -/
structure PageEntry where
  frame : PhysAddr
  flags : PageFlags
  raw : RawEntry
  deriving DecidableEq, Repr

namespace Machine

/-- The kernel space, once the manager is started. -/
def kernelSpace (m : Machine) : Option AddressSpace := m.spaces.map Spaces.kernel

/-- Number of frames that hold tables. -/
def tablePages (m : Machine) : Nat := m.store.arena.size

/-- The root table of a space that exists. -/
def rootTable (m : Machine) (space : AddressSpace) : Option TableId := do
  (← m.spaces).anyTable m.store.arena space

/-- The physical address that an address of a space is translated to. -/
def translate (m : Machine) (format : Format) (space : AddressSpace) (virt : VirtAddr) :
    Except Fault (Option PhysAddr) :=
  match m.rootTable space with
  | none => .ok none
  | some root => Walk.resolve format m.store.arena root virt

/-- The leaf entry for an address of a space; none where a level is missing or a large page
covers the address. -/
def getEntry (m : Machine) (format : Format) (space : AddressSpace) (virt : VirtAddr) :
    Except Fault (Option PageEntry) :=
  match m.rootTable space with
  | none => .ok none
  | some root => do
    match ← Walk.leaf format m.store.arena root virt with
    | none => return none
    | some mapping =>
      return some ⟨mapping.frame, mapping.flags,
        format.encodePage mapping.frame mapping.flags 0⟩

end Machine

end KernelMemory
