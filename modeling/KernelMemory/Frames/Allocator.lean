/-
  KernelMemory.Frames.Allocator — handing out physical frames and blocks of frames.

  The allocator is empty until it is given a boot map, once.  Frames of free regions then
  become available; frame 0 never does.  A pool for the kernel heap may be set aside first.
  Single frames come from the bottom of memory; blocks of a power of two of frames are
  aligned to their size and can be confined to a zone.
-/

import KernelMemory.BootMap
import KernelMemory.Descriptor
import KernelMemory.Frames.Bitmap

namespace KernelMemory

/-! ## Zones -/

/-- Where a block may lie. -/
inductive Zone where
  /-- Below 16 MiB. -/
  | legacy
  /-- Below 4 GiB. -/
  | addr32
  /-- Below 256 MiB. -/
  | kernel
  /-- Anywhere. -/
  | normal
  deriving DecidableEq, Repr

namespace Zone

/-- The word a zone is written with. -/
def name : Zone → String
  | legacy => "Legacy"
  | addr32 => "Addr32"
  | kernel => "Kernel"
  | normal => "Normal"

/-- Bound on the end of a block in the zone. -/
def ceiling : Zone → PhysAddr
  | legacy => 16 * 2 ^ 20
  | addr32 => 4 * 2 ^ 30
  | kernel => 256 * 2 ^ 20
  | normal => Word.max

/-- Number of frames entirely below the ceiling. -/
def frameLimit (zone : Zone) : Nat := zone.ceiling / frameSize

end Zone

/-- The largest block is `2 ^ maxOrder` frames. -/
abbrev maxOrder : Nat := 10

/-- Why frames were not handed out. -/
inductive FrameError where
  | notInitialized
  | outOfMemory
  | orderTooLarge (order : Nat)
  deriving DecidableEq, Repr

/-- The text of a frame error. -/
def FrameError.message : FrameError → String
  | notInitialized => "the frame allocator has not been initialized"
  | outOfMemory => "out of physical memory"
  | orderTooLarge order => s!"block order {order} is larger than the maximum of {maxOrder}"

/-- The word a frame error goes by. -/
def FrameError.name : FrameError → String
  | notInitialized => "NotInitialized"
  | outOfMemory => "OutOfMemory"
  | orderTooLarge _ => "OrderTooLarge"

/-- Technical form of a frame error. -/
def FrameError.debug : FrameError → String
  | orderTooLarge order => s!"OrderTooLarge({order})"
  | error => error.name

/-! ## Building the bitmap -/

/-- Bytes of bitmap that a map ending at `stop` needs. -/
def bitmapBytes (stop : PhysAddr) : Nat := (stop / frameSize + 63) / 64 * 8

namespace FrameBitmap

/-- Makes the whole frames of a free region free; frames cut by an edge stay used. -/
def releaseRegion (b : FrameBitmap) (region : BootRegion) : FrameBitmap :=
  if region.kind = .free then
    let start := floorTo frameSize (Word.saturatingAdd region.base (frameSize - 1)) / frameSize
    let stop := region.stop / frameSize
    b.markRangeFree start (stop - start)
  else b

/-- The bitmap of a boot map: whole frames of free regions are free, except frame 0. -/
def ofMap (map : BootMap) : FrameBitmap :=
  ((map.regions.foldl releaseRegion (allUsed (map.stop / frameSize))).markUsed 0).settle

/-- Sets aside `pages` contiguous frames, low in memory if that is possible. -/
def takePool (b : FrameBitmap) (pages : Nat) : Option FrameNumber × FrameBitmap :=
  match b.takeRun pages 1 Zone.kernel.frameLimit with
  | (some start, b) => (some start, b)
  | (none, b) => b.takeRun pages 1 Word.max

end FrameBitmap

/-- What the descriptor learns from a region. -/
def Descriptor.noteRegion (d : Descriptor) (region : BootRegion) : Descriptor :=
  match region.kind with
  | .kernelImage => (d.publishKernelImage region.region).2
  | .kernelStack => (d.publishKernelStack region.region).2
  | _ => d

/-! ## The allocator -/

/-- The allocator: how many pages it sets aside when started, and its bitmap once started. -/
structure FrameAllocator where
  poolPages : Nat := 0
  bitmap : Option FrameBitmap := none
  deriving DecidableEq, Repr

namespace FrameAllocator

/-- Whether the allocator was started. -/
def isInitialized (a : FrameAllocator) : Bool := a.bitmap.isSome

/-- Sets the heap pool aside and publishes it. -/
def donate (pages : Nat) (b : FrameBitmap) (d : Descriptor) :
    FrameBitmap × Descriptor × List LogRecord :=
  if pages = 0 then (b, d, [])
  else
    match b.takePool pages with
    | (some start, b) =>
      let region : MemoryRegion := ⟨start.start, pages * frameSize⟩
      (b, (d.publishHeap region).2, [⟨.debug, s!"donated {region.text} to the heap pool"⟩])
    | (none, b) =>
      (b, d, [⟨.warn, s!"no contiguous run of {pages} pages for the heap pool"⟩])

/-- Starts the allocator with a boot map, unless it was started before; tells which. -/
def init (a : FrameAllocator) (map : BootMap) (d : Descriptor) :
    Bool × FrameAllocator × Descriptor × List LogRecord :=
  match a.bitmap with
  | some _ => (false, a, d, [⟨.warn, "frame allocator already initialized"⟩])
  | none =>
    let b := FrameBitmap.ofMap map
    let d := map.regions.foldl Descriptor.noteRegion d
    let bytes := Size.text (bitmapBytes map.stop)
    let free := Size.text (b.free * frameSize)
    let covered := ⟨.info, s!"frame bitmap covers {b.frames} frames ({bytes}), {free} free"⟩
    let (b, d, donated) := donate a.poolPages b d
    (true, { a with bitmap := some b }, d, covered :: donated)

/-- Hands out the lowest free frame. -/
def allocatePage (a : FrameAllocator) : Except FrameError PhysAddr × FrameAllocator :=
  match a with
  | ⟨_, none⟩ => (.error .notInitialized, a)
  | ⟨pool, some b⟩ =>
    match b.takeLowest with
    | (some frame, b) => (.ok frame.start, ⟨pool, some b⟩)
    | (none, b) => (.error .outOfMemory, ⟨pool, some b⟩)

/-- Hands out the lowest block of `2 ^ order` frames in a zone. -/
def allocateBlock (a : FrameAllocator) (order : Nat) (zone : Zone) :
    Except FrameError PhysAddr × FrameAllocator :=
  if maxOrder < order then (.error (.orderTooLarge order), a)
  else
    match a with
    | ⟨_, none⟩ => (.error .notInitialized, a)
    | ⟨pool, some b⟩ =>
      match b.takeRun (2 ^ order) (2 ^ order) zone.frameLimit with
      | (some frame, b) => (.ok frame.start, ⟨pool, some b⟩)
      | (none, b) => (.error .outOfMemory, ⟨pool, some b⟩)

/-- Takes back a block of `2 ^ order` frames.  Frames of it that are free already, or do
not exist, are left alone; an address that is null or inside a frame, or too large an
order, is ignored.  Tells how many frames became free, if the block was looked at. -/
def freeBlock (a : FrameAllocator) (address : PhysAddr) (order : Nat) :
    Option Nat × FrameAllocator :=
  if address = 0 || maxOrder < order || address % frameSize != 0 then (none, a)
  else
    match a with
    | ⟨_, none⟩ => (none, a)
    | ⟨pool, some b⟩ =>
      let before := b.free
      let b := b.markRangeFree address.frame (2 ^ order)
      (some (b.free - before), ⟨pool, some b⟩)

/-- Free frames entirely below the ceiling of a zone. -/
def available (a : FrameAllocator) (zone : Zone) : Nat :=
  match a.bitmap with
  | some b => b.freeBelow zone.frameLimit
  | none => 0

/-- Frames covered. -/
def totalPages (a : FrameAllocator) : Nat :=
  match a.bitmap with
  | some b => b.frames
  | none => 0

/-- Frames not free, including those that never can be. -/
def usedPages (a : FrameAllocator) : Nat :=
  match a.bitmap with
  | some b => b.frames - b.free
  | none => 0

end FrameAllocator

end KernelMemory
