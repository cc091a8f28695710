/-
  KernelMemory.Boot.Ranges — from the boot loader's memory ranges to boot records.

  The loader describes memory as ranges with a length.  Before they become records, the boot
  stack and a span for the first heap are split out of the ranges that hold them; holes
  between ranges become reserved records.
-/

import KernelMemory.BootMap

namespace KernelMemory

namespace Boot

/-! ## Ranges and spans -/

/-- A range of memory as the boot loader describes it. -/
structure Range where
  base : PhysAddr
  length : Nat
  kind : RegionKind
  deriving DecidableEq, Repr

/-- First address after the range, or the largest word if that is beyond it. -/
def Range.stop (range : Range) : Nat := Word.saturatingAdd range.base range.length

/-- The addresses from `low` up to, but not including, `high`. -/
structure Span where
  low : PhysAddr
  high : PhysAddr
  deriving DecidableEq, Repr

/-- A span to record with a kind of its own. -/
structure CarveOut where
  low : PhysAddr
  high : PhysAddr
  kind : RegionKind
  deriving DecidableEq, Repr

/-- The kind of a range the boot loader gives a number; unknown numbers are reserved
memory. -/
def kindOfEntry : Nat → RegionKind
  | 0 => .free
  | 2 => .acpiReclaimable
  | 3 => .acpiNvs
  | 4 => .bad
  | 5 => .bootReclaimable
  | 6 => .kernelImage
  | 7 => .device
  | _ => .reserved

/-! ## The boot stack -/

/-- Bytes of the boot stack. -/
abbrev stackSize : Nat := 64 * 1024

/-- The frames under the boot stack, whose top is given where the direct map at `offset`
shows it.  None if the stack does not lie in the direct map. -/
def stackFrames (stackTop offset : Nat) : Except Fault (Option Span) :=
  match Word.sub? stackTop offset with
  | none => .ok none
  | some top =>
    match Word.sub? top stackSize with
    | none => .ok none
    | some bottom => do
      let high ← Word.mul ((top + (frameSize - 1)) / frameSize) frameSize
      return some ⟨floorTo frameSize bottom, high⟩

/-! ## The bootstrap heap -/

/-- The bootstrap heap stays out of the first MiB. -/
abbrev lowMemoryEnd : Nat := 2 ^ 20

/-- The region between two addresses, the lower one first. -/
def physicalRegion (low high : Nat) : Except Fault MemoryRegion := do
  return ⟨low, ← Word.sub high low⟩

/-- The region of a span that may be missing. -/
def avoidRegion : Option Span → Except Fault (Option MemoryRegion)
  | none => .ok none
  | some span => do return some (← physicalRegion span.low span.high)

/-- Whether the span between two addresses does not touch `avoid`. -/
def isClear (avoid : Option MemoryRegion) (low high : Nat) : Except Fault Bool :=
  match avoid with
  | none => .ok true
  | some stack => do return !(← stack.overlaps (← physicalRegion low high))

/-- The span of `size` bytes that ends at the last page boundary of a range, if the range
is free, holds it above the first MiB, and it does not touch `avoid`. -/
def heapCandidate (size : Nat) (avoid : Option MemoryRegion) (range : Range) :
    Except Fault (Option Span) := do
  if range.kind = .free then
    let high := floorTo frameSize range.stop
    match Word.sub? high size with
    | none => return none
    | some low =>
      let clear ← isClear avoid low high
      return if max range.base lowMemoryEnd ≤ low && clear then some ⟨low, high⟩ else none
  else return none

/-- The candidate of the first range that has one. -/
def firstCandidate (size : Nat) (avoid : Option MemoryRegion) :
    List Range → Except Fault (Option Span)
  | [] => .ok none
  | range :: rest => do
    match ← heapCandidate size avoid range with
    | some span => return some span
    | none => firstCandidate size avoid rest

/-- Chooses `bytes`, in whole pages, at the top of the last free range that can hold them
above the first MiB without touching `avoid`. -/
def heapSpan (ranges : List Range) (bytes : Nat) (avoid : Option Span) :
    Except Fault (Option Span) := do
  let size ← Word.mul ((bytes + (frameSize - 1)) / frameSize) frameSize
  firstCandidate size (← avoidRegion avoid) ranges.reverse

/-! ## Records -/

/-- Records of one range from `cursor` on, with carve-outs split out of it. -/
def carve (kind : RegionKind) (stop : Nat) : (cursor : Nat) → List CarveOut → List BootRecord
  | cursor, [] => if cursor < stop then [⟨cursor, kind, RegionFlags.none⟩] else []
  | cursor, c :: rest =>
    if stop ≤ c.low ∨ c.high ≤ cursor then carve kind stop cursor rest
    else
      let before := if cursor < c.low then [⟨cursor, kind, RegionFlags.none⟩] else []
      before ++ ⟨max c.low cursor, c.kind, RegionFlags.none⟩ ::
        carve kind stop (min c.high stop) rest

/-- Records of ranges, of which `stop` is the end so far, closed by an end marker. -/
def recordsFrom (carveOuts : List CarveOut) : (stop : Nat) → List Range → List BootRecord
  | stop, [] => [⟨stop, .endMarker, RegionFlags.none⟩]
  | stop, range :: rest =>
    if range.length = 0 then recordsFrom carveOuts stop rest
    else
      let hole := if stop < range.base then [⟨stop, .reserved, RegionFlags.none⟩] else []
      hole ++ carve range.kind range.stop range.base carveOuts ++
        recordsFrom carveOuts (max stop range.stop) rest

/-- The boot records of ranges.  Carve-outs are sorted and disjoint; holes between ranges
become reserved. -/
def bootRecords (ranges : List Range) (carveOuts : List CarveOut) : List BootRecord :=
  recordsFrom carveOuts 0 ranges

end Boot

end KernelMemory
