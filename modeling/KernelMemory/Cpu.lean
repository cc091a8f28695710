/-
  KernelMemory.Cpu — what the memory manager can see and change of a processor: its
  root table, interrupt flag, paging mode, and the cached entries it was told to drop.
-/

import KernelMemory.Paging.Format

namespace KernelMemory

/-- Names a processor. -/
abbrev CpuId := Nat

/-- The state of one processor. -/
structure Cpu where
  /-- Physical address of the root table in use. -/
  root : PhysAddr
  /-- Whether interrupts are enabled. -/
  interrupts : Bool
  /-- The table format the processor was told to use, if any. -/
  mode : Option Format
  /-- Pages whose cached entry was dropped alone, in order. -/
  invalidated : Array VirtAddr
  /-- How often all cached entries were dropped at once. -/
  fullFlushes : Nat
  deriving DecidableEq, Repr

namespace Cpu

/-- A processor as it is after power-on. -/
def powerOn : Cpu := ⟨0, true, none, #[], 0⟩

instance : Inhabited Cpu := ⟨powerOn⟩

/-- Makes `root` the root table. -/
def loadRoot (cpu : Cpu) (root : PhysAddr) : Cpu := { cpu with root := root }

/-- Every processor runs either format. -/
def supports (_ : Cpu) (_ : Format) : Bool := true

/-- Turns paging on for a format. -/
def enablePaging (cpu : Cpu) (format : Format) : Cpu := { cpu with mode := some format }

/-- Drops the cached entry of one page. -/
def invalidatePage (cpu : Cpu) (page : VirtAddr) : Cpu :=
  { cpu with invalidated := cpu.invalidated.push page }

/-- Drops all cached entries. -/
def invalidateAll (cpu : Cpu) : Cpu := { cpu with fullFlushes := cpu.fullFlushes + 1 }

/-- Disables interrupts; tells whether they were enabled before. -/
def disableInterrupts (cpu : Cpu) : Bool × Cpu := (cpu.interrupts, { cpu with interrupts := false })

/-- Enables interrupts if they were enabled before. -/
def restoreInterrupts (cpu : Cpu) (wereEnabled : Bool) : Cpu :=
  if wereEnabled then { cpu with interrupts := true } else cpu

/-- Sets the interrupt flag. -/
def setInterrupts (cpu : Cpu) (enabled : Bool) : Cpu := { cpu with interrupts := enabled }

/-- The pages invalidated so far, which are then forgotten. -/
def takeInvalidations (cpu : Cpu) : Array VirtAddr × Cpu :=
  (cpu.invalidated, { cpu with invalidated := #[] })

end Cpu

end KernelMemory
