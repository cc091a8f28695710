/-
  KernelMemory.Paging.Inspect — reading page tables back from memory, the way the
  processor does: from the root frame down, one raw entry per level.
-/

import KernelMemory.Memory
import KernelMemory.Paging.Entry

namespace KernelMemory

/-- The frame that any entry names: its address bits, whatever the format. -/
def RawEntry.tableFrame (raw : RawEntry) : PhysAddr := floorTo frameSize (raw % 2 ^ 52)

namespace Memory

/-- Follows entries down from a table in memory, one index per level.  Ends at the page of
the last table, or at an entry that points at no table. -/
def followTables (format : Format) (memory : Memory) (frame : PhysAddr) :
    List Nat → Except Fault (Except RawEntry Page)
  | [] => do return .ok (← memory.checkedRead frame)
  | index :: rest => do
    let raw : RawEntry := (← memory.checkedRead frame).entry format.entryBytes index
    if raw.isPresent && !raw.isLarge then memory.followTables format raw.tableFrame rest
    else return .error raw

/-- What the processor finds for an address. -/
structure Walked where
  /-- The physical address. -/
  phys : PhysAddr
  /-- The attributes in the entry that maps the page. -/
  flags : PageFlags
  /-- Whether every entry on the way lets user code pass. -/
  user : Bool
  deriving DecidableEq, Repr

/-- Looks an address up in the table at level `steps - 1` in a frame, and below it. -/
def walkFrom (format : Format) (memory : Memory) (virt : VirtAddr) :
    (steps : Nat) → PhysAddr → Option Walked
  | 0, _ => none
  | level + 1, frame =>
    let raw : RawEntry := (memory.read frame).entry format.entryBytes (format.index virt level)
    if !raw.isPresent then none
    else if level = 0 ∨ raw.isLarge then
      some ⟨raw.frame format level + virt % format.span level, raw.flags format, raw.isUser⟩
    else
      (memory.walkFrom format virt level (raw.frame format 0)).map fun found =>
        { found with user := raw.isUser && found.user }

/-- Looks an address up in the tables in memory, from the root in a frame. -/
def walk (format : Format) (memory : Memory) (root : PhysAddr) (virt : VirtAddr) :
    Option Walked :=
  memory.walkFrom format virt format.levels root

end Memory

end KernelMemory
