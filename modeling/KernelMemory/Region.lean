/-
  KernelMemory.Region — contiguous ranges of physical memory, and what the boot loader
  says they hold.
-/

import KernelMemory.Address

namespace KernelMemory

/-! ## Kinds and flags -/

/-- What a region of the boot map holds. -/
inductive RegionKind where
  /-- Ordinary memory the allocator may hand out. -/
  | free
  | kernelImage
  /-- The stack the kernel was started on. -/
  | kernelStack
  /-- Boot loader data, reclaimable once no longer needed. -/
  | bootReclaimable
  /-- Firmware tables, reclaimable once parsed. -/
  | acpiReclaimable
  | acpiNvs
  | reserved
  /-- Device registers and framebuffers. -/
  | device
  /-- Memory reported as defective. -/
  | bad
  /-- End of the map; its base is the top of physical memory. -/
  | endMarker
  deriving DecidableEq, Repr

namespace RegionKind

/-- The number a kind is recorded with. -/
def tag : RegionKind → Nat
  | free => 0
  | kernelImage => 1
  | kernelStack => 2
  | bootReclaimable => 3
  | acpiReclaimable => 4
  | acpiNvs => 5
  | reserved => 6
  | device => 7
  | bad => 8
  | endMarker => 9

/-- The kind recorded with a number; unknown numbers are reserved memory. -/
def ofTag : Nat → RegionKind
  | 0 => free
  | 1 => kernelImage
  | 2 => kernelStack
  | 3 => bootReclaimable
  | 4 => acpiReclaimable
  | 5 => acpiNvs
  | 7 => device
  | 8 => bad
  | 9 => endMarker
  | _ => reserved

/-- The word a kind is written with. -/
def name : RegionKind → String
  | free => "Free"
  | kernelImage => "KernelImage"
  | kernelStack => "KernelStack"
  | bootReclaimable => "BootReclaimable"
  | acpiReclaimable => "AcpiReclaimable"
  | acpiNvs => "AcpiNvs"
  | reserved => "Reserved"
  | device => "Device"
  | bad => "Bad"
  | endMarker => "End"

/-- Whether the kernel keeps memory of this kind mapped. -/
def isKernelOwned : RegionKind → Bool
  | reserved | bad | endMarker => false
  | _ => true

@[simp] theorem ofTag_tag (kind : RegionKind) : ofTag kind.tag = kind := by cases kind <;> rfl

end RegionKind

/-- Flags a boot record carries beside its kind. -/
structure RegionFlags where
  /-- The region is mapped with caching disabled. -/
  uncached : Bool
  /-- The region is never mapped, whatever its kind. -/
  noMap : Bool
  deriving DecidableEq, Repr

namespace RegionFlags

/-- No flag set. -/
def none : RegionFlags := ⟨false, false⟩

/-- The flags recorded as bits of a number; other bits are dropped. -/
def ofBits (n : Nat) : RegionFlags := ⟨n.testBit 0, n.testBit 1⟩

/-- The number whose bits record the flags. -/
def toBits (flags : RegionFlags) : Nat := flags.uncached.toNat + 2 * flags.noMap.toNat

/-- Technical form of the flags. -/
def debug : RegionFlags → String
  | ⟨false, false⟩ => "RegionFlags(0x0)"
  | ⟨true, false⟩ => "RegionFlags(UNCACHED)"
  | ⟨false, true⟩ => "RegionFlags(NO_MAP)"
  | ⟨true, true⟩ => "RegionFlags(UNCACHED | NO_MAP)"

@[simp] theorem ofBits_toBits (flags : RegionFlags) : ofBits flags.toBits = flags := by
  rcases flags with ⟨u, m⟩; cases u <;> cases m <;> decide

end RegionFlags

/-! ## Ranges of memory -/

/-- The bytes from `base` up to, but not including, `base + size`. -/
structure MemoryRegion where
  base : PhysAddr
  size : Nat
  deriving DecidableEq, Repr

namespace MemoryRegion

/-- The first address after the region. -/
def stop (region : MemoryRegion) : Nat := region.base + region.size

/-- The first address after the region, which must be a word. -/
def checkedStop (region : MemoryRegion) : Except Fault PhysAddr :=
  Word.add region.base region.size

/-- Whether two regions have a byte in common.  The second end is only computed where the
first does not decide. -/
def overlaps (region other : MemoryRegion) : Except Fault Bool := do
  if region.base < (← other.checkedStop) then
    return other.base < (← region.checkedStop)
  else
    return false

/-- Whether the region holds all of `base .. base + size`. -/
def contains (region : MemoryRegion) (base : PhysAddr) (size : Nat) : Except Fault Bool := do
  if region.base ≤ base then
    let stop ← Word.add base size
    return stop ≤ (← region.checkedStop)
  else
    return false

/-- The region as bounds and size. -/
def text (region : MemoryRegion) : String :=
  s!"{hex region.base}..{hex region.stop} ({Size.text region.size})"

/-- `text`, for a region whose end must be a word. -/
def checkedText (region : MemoryRegion) : Except Fault String := do
  let _ ← region.checkedStop
  return region.text

/-- Technical form of the region. -/
def debug (region : MemoryRegion) : String :=
  s!"MemoryRegion \x7b base: {region.base.debug}, size: {region.size} \x7d"

end MemoryRegion

end KernelMemory
