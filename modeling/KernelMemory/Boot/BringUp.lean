/-
  KernelMemory.Boot.BringUp — starting the memory subsystem: boot records, frame allocator,
  heap, and paging.

  What the boot loader answers is data (`Responses`); whether the heap can take a span is
  told by a function.  Conditions that the kernel cannot do without stop it.
-/

import KernelMemory.Boot.Ranges
import KernelMemory.Manager.Operations

namespace KernelMemory

namespace Boot

open Machine

/-- What the boot loader answered. -/
structure Responses where
  /-- The ranges of memory, with numeric kinds turned into kinds. -/
  ranges : Option (List Range)
  /-- Offset of the direct map of physical memory. -/
  directMap : Option Nat
  /-- Physical and virtual base of the loaded kernel. -/
  executable : Option (PhysAddr × VirtAddr)
  deriving DecidableEq, Repr

/-- Whether the heap takes `size` bytes at an address. -/
abbrev HeapClaim := (address : VirtAddr) → (size : Nat) → Bool

/-- Pages that become the kernel heap once the frame allocator runs: 4 MiB. -/
abbrev poolPages : Nat := 1024

/-- Heap claimed beside the frame bitmap before the frame allocator runs. -/
abbrev heapSlack : Nat := 64 * 1024

/-- Registers of the interrupt controllers: one for devices, one for the processor. -/
def deviceWindows : List DeviceWindow := [⟨0xFEC00000, 0x1000, .uncached⟩, ⟨0xFEE00000, 0x1000, .uncached⟩]

/-- Stops the kernel: something the boot loader promised does not hold. -/
def violated (text : String) : MachineSteps α :=
  Steps.stop (.contractViolated s!"boot contract violated: {text}")

/-! ## The heap -/

/-- Bytes of bootstrap heap for these ranges: their frame bitmap and some slack.  None if
there are no ranges. -/
def bootstrapBytes (ranges : List Range) : Option Nat :=
  (ranges.map Range.stop).max?.map fun stop => bitmapBytes stop + heapSlack

/-- Claims a bootstrap heap that holds the frame bitmap; tells the span claimed. -/
def claimBootstrapHeap (claim : HeapClaim) (ranges : List Range) (stack : Option Span)
    (offset : Nat) : MachineSteps (Option Span) := do
  match bootstrapBytes ranges with
  | none => return none
  | some bytes =>
    match ← heapSpan ranges bytes stack with
    | none =>
      write .warn s!"no usable range holds a {Size.text bytes} bootstrap heap"
      return none
    | some span =>
      let region ← physicalRegion span.low span.high
      let address ← Word.add span.low offset
      if claim address region.size then
        write .debug s!"bootstrap heap at {region.text}"
        return some span
      else
        write .warn s!"heap could not claim bootstrap span {region.text}"
        return none

/-- Grows the heap by the pool that the frame allocator set aside. -/
def claimPool (claim : HeapClaim) (offset : Nat) : MachineSteps Unit := do
  match (← get).descriptor.heap with
  | none => write .warn "no heap pool, running on the early arena only"
  | some pool =>
    let address ← Word.add pool.base offset
    if claim address pool.size then
      write .debug s!"heap extended by {Size.text pool.size} at {pool.text}"
    else
      write .warn s!"heap could not claim pool {pool.text}"

/-! ## Starting -/

/-- Spans that get a kind of their own: the boot stack and the bootstrap heap, in address
order. -/
def carveOuts (stack bootstrap : Option Span) : List CarveOut :=
  let stack := stack.toList.map fun span => ⟨span.low, span.high, .kernelStack⟩
  let bootstrap := bootstrap.toList.map fun span => ⟨span.low, span.high, .bootReclaimable⟩
  (stack ++ bootstrap).mergeSort fun a b => a.low ≤ b.low

/-- Technical form of an address that may be unknown. -/
def debugAddress : Option PhysAddr → String
  | none => "None"
  | some address => s!"Some({address.debug})"

/-- The configuration of the memory manager: a direct map at `offset`, and the kernel
image where it runs, if the loader told and the image is where the loader says. -/
def managerConfig (responses : Responses) (offset : Nat) : MachineSteps Config := do
  let config : Config := { directMapOffset := some offset }
  match responses.executable with
  | none =>
    write .warn "executable address request unanswered, kernel image stays unmapped"
    return config
  | some (physical, virtual) =>
    let image := (← get).descriptor.kernelImage.map MemoryRegion.base
    if image = some physical then
      return { config with kernelImageBase := some virtual }
    else
      write .warn s!"kernel loaded at {hex physical} but image region is {debugAddress image}"
      return config

/-- Gives the heap its pool and starts the manager, once the frame allocator runs; tells how the
manager was configured. -/
def startManager (responses : Responses) (claim : HeapClaim) (cpu : CpuId) (offset : Nat)
    (map : BootMap) : MachineSteps Config := do
  claimPool claim offset
  let config ← managerConfig responses offset
  match ← Steps.attempt (Manager.init .wide config cpu map deviceWindows) with
  | .ok _ => return config
  | .error error => violated s!"translation manager failed to start: {error.message}"

/-- Starts the memory subsystem on a processor; tells how the manager was configured. -/
def bringUp (responses : Responses) (claim : HeapClaim) (cpu : CpuId) (stackTop : VirtAddr) :
    MachineSteps Config := do
  match responses.directMap, responses.ranges with
  | none, _ => violated "higher-half direct map request unanswered"
  | some _, none => violated "memory map request unanswered"
  | some offset, some ranges =>
    let stack ← stackFrames stackTop offset
    let bootstrap ← claimBootstrapHeap claim ranges stack offset
    match BootMap.ofRecords (bootRecords ranges (carveOuts stack bootstrap)) with
    | .error error => violated s!"bad boot memory map: {error.message}"
    | .ok map =>
      onStore (TableStore.writeAll map.describe)
      if ← uninterrupted cpu (Manager.initFrames map) then
        startManager responses claim cpu offset map
      else
        violated "frame allocator initialized twice"

/-! ## Self-check -/

/-- Where the self-check maps its page. -/
abbrev scratchPage : VirtAddr := 0x400000

/-- Makes a task space, maps one page into it, and destroys it again. -/
def selfCheck (config : Config) (cpu : CpuId) : MachineSteps Unit := do
  match (← get).kernelSpace with
  | none => Steps.refuse .notInitialized
  | some kernel =>
    let space ← Manager.createSpace .wide cpu
    match ← uninterrupted cpu (onStore TableStore.allocatePage) with
    | .error error => Steps.refuse (.ofFrameError error)
    | .ok frame =>
      Manager.switchTo cpu space
      let mapped ← Steps.attempt
        (Manager.mapUser .wide config cpu space scratchPage frame frameSize)
      let resolved ← (← get).translate .wide space scratchPage
      Manager.switchTo cpu kernel
      Steps.ofResult mapped
      if resolved ≠ some frame then
        write .warn s!"scratch page resolved to {debugAddress resolved}, expected {hex frame}"
      Manager.deleteSpace .wide cpu space
      uninterrupted cpu (onStore (TableStore.freePage frame))

end Boot

end KernelMemory
