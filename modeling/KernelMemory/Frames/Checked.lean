/-
  KernelMemory.Frames.Checked — the frame allocator word by word, with every step checked.

  The operations of `Frames.Bitmap` and `Frames.Allocator` are written frame by frame, on numbers
  that neither overflow nor run short.  These are the same operations on machine words: bits are
  read and written with masks, stretches of frames in one word are looked at together, and every
  index, sum, difference, product and shift is one that can fail.
-/

import KernelMemory.Frames.Allocator

namespace KernelMemory

/-! ## Words -/

namespace FrameWord

/-- The word with every bit changed. -/
def complement (word : Nat) : Nat := full ^^^ word

/-- Number of clear bits below the lowest one that is set. -/
def trailingZeros (word : Nat) : Nat := (firstFree (complement word) 64 0).getD 64

/-- Number of bits that are set. -/
def ones (word : Nat) : Nat := (List.range 64).countP fun bit => word.testBit bit

/-- The word in which `span` bits from `bit` on are set. -/
def spanMask (bit span : Nat) : Except Fault Nat :=
  if span = Word.bits then .ok full
  else do
    let low ← Word.sub (← Word.shiftLeft 1 span) 1
    Word.shiftLeft low bit

/-- Number of frames from `frame` on that are in the same word and before `stop`. -/
def stretch (frame stop : Nat) : Except Fault Nat := do
  let left ← Word.sub Word.bits (frame % Word.bits)
  let rest ← Word.sub stop frame
  return min left rest

theorem stretch_eq {frame stop : Nat} (h : frame ≤ stop) :
    stretch frame stop = .ok (min (64 - frame % 64) (stop - frame)) := by
  have hplace : frame % 64 ≤ 64 := by omega
  simp only [stretch, Word.sub, if_pos hplace, if_pos h]
  rfl

theorem stretch_pos {frame stop span : Nat} (h : frame < stop) (e : stretch frame stop = .ok span) :
    0 < span := by
  rw [stretch_eq (Nat.le_of_lt h)] at e
  injection e with e
  omega

end FrameWord

/-- The smallest multiple of `unit` that is at least `n`, which must be a word. -/
def Word.nextMultiple (n unit : Nat) : Except Fault Nat :=
  if unit = 0 then
    .error (.contractViolated "attempt to calculate the remainder with a divisor of zero")
  else if n % unit = 0 then .ok n
  else Word.add n (unit - n % unit)

/-! ## The bitmap -/

namespace FrameBitmap

/-- The word at an index. -/
def checkedWord (b : FrameBitmap) (i : Nat) : Except Fault Nat :=
  match b.words[i]? with
  | some word => .ok word
  | none => .error (.indexOutOfBounds b.words.size i)

/-- The bitmap with another word at an index. -/
def checkedPut (b : FrameBitmap) (i word : Nat) : Except Fault FrameBitmap :=
  if i < b.words.size then .ok { b with words := b.words.setIfInBounds i word }
  else .error (.indexOutOfBounds b.words.size i)

/-- `isFree`, read with a mask. -/
def checkedIsFree (b : FrameBitmap) (frame : FrameNumber) : Except Fault Bool :=
  if frame < b.frames then do
    let word ← b.checkedWord (frame / 64)
    let mask ← Word.shiftLeft 1 (frame % 64)
    return word &&& mask == 0
  else .ok false

/-- `markFree`, and whether the frame became free. -/
def checkedMarkFree (b : FrameBitmap) (frame : FrameNumber) : Except Fault (Bool × FrameBitmap) :=
  if b.frames ≤ frame then .ok (false, b)
  else do
    if ← b.checkedIsFree frame then return (false, b)
    else
      let word ← b.checkedWord (frame / 64)
      let mask ← Word.shiftLeft 1 (frame % 64)
      let cleared ← b.checkedPut (frame / 64) (word &&& FrameWord.complement mask)
      let free ← Word.add b.free 1
      return (true, { cleared with free, usedTail := min b.usedTail (frame / 64) })

/-- `markUsed`, and whether the frame was free. -/
def checkedMarkUsed (b : FrameBitmap) (frame : FrameNumber) : Except Fault (Bool × FrameBitmap) := do
  if ← b.checkedIsFree frame then
    let word ← b.checkedWord (frame / 64)
    let mask ← Word.shiftLeft 1 (frame % 64)
    let set ← b.checkedPut (frame / 64) (word ||| mask)
    let free ← Word.sub b.free 1
    return (true, { set with free })
  else return (false, b)

/-- `markFreeFrom`, and how many frames became free. -/
def checkedMarkFreeFrom (b : FrameBitmap) (start : FrameNumber) :
    (count : Nat) → Except Fault (Nat × FrameBitmap)
  | 0 => .ok (0, b)
  | count + 1 => do
    let (freed, b) ← b.checkedMarkFree start
    let (more, b) ← b.checkedMarkFreeFrom (start + 1) count
    return (← Word.add freed.toNat more, b)

/-- `markRangeFree`, and how many frames became free. -/
def checkedMarkRangeFree (b : FrameBitmap) (start : FrameNumber) (count : Nat) :
    Except Fault (Nat × FrameBitmap) :=
  b.checkedMarkFreeFrom start (min (Word.saturatingAdd start count) b.frames - start)

/-- `markUsedFrom`. -/
def checkedMarkUsedFrom (b : FrameBitmap) (start : FrameNumber) :
    (count : Nat) → Except Fault FrameBitmap
  | 0 => .ok b
  | count + 1 => do
    let (_, b) ← b.checkedMarkUsed start
    b.checkedMarkUsedFrom (start + 1) count

/-- `skipFull`. -/
def checkedSkipFull (words : Array Nat) : (count tail : Nat) → Except Fault Nat
  | 0, tail => .ok tail
  | count + 1, tail =>
    if words[tail]? = some FrameWord.full then do
      checkedSkipFull words count (← Word.add tail 1)
    else .ok tail

/-- `settle`. -/
def checkedSettle (b : FrameBitmap) : Except Fault FrameBitmap := do
  let usedTail ← checkedSkipFull b.words (b.words.size - b.usedTail) b.usedTail
  return { b with usedTail }

/-- `markRangeUsed`. -/
def checkedMarkRangeUsed (b : FrameBitmap) (start : FrameNumber) (count : Nat) :
    Except Fault FrameBitmap := do
  let stop ← Word.add start count
  let b ← b.checkedMarkUsedFrom start (stop - start)
  b.checkedSettle

/-- `takeLowest`, with the lowest clear bit of the word at the tail. -/
def checkedTakeLowest (b : FrameBitmap) : Except Fault (Option FrameNumber × FrameBitmap) := do
  let b ← b.checkedSettle
  match b.words[b.usedTail]? with
  | none => return (none, b)
  | some word =>
    let first ← Word.mul b.usedTail Word.bits
    let frame ← Word.add first (FrameWord.trailingZeros (FrameWord.complement word))
    let (_, b) ← b.checkedMarkUsed frame
    return (some frame, b)

/-- The first frame in use from `frame` on and before `stop`, looked for word by word. -/
def checkedFirstUsed (b : FrameBitmap) (stop frame : FrameNumber) :
    Except Fault (Option FrameNumber) :=
  if _ : frame < stop then
    match _ : FrameWord.stretch frame stop with
    | .error fault => .error fault
    | .ok span => do
      let mask ← FrameWord.spanMask (frame % 64) span
      let used := (← b.checkedWord (frame / 64)) &&& mask
      if used = 0 then
        let _ ← Word.add frame span
        b.checkedFirstUsed stop (frame + span)
      else
        let first ← Word.mul (frame / 64) Word.bits
        return some (← Word.add first (FrameWord.trailingZeros used))
  else .ok none
termination_by stop - frame
decreasing_by
  exact Nat.sub_lt_sub_left ‹frame < stop›
    (Nat.lt_add_of_pos_right (FrameWord.stretch_pos ‹frame < stop› ‹_›))

/-- `findRun`.  A run that would end behind the largest word ends the search. -/
def checkedFindRun (b : FrameBitmap) (count align limit : Nat) :
    (tries : Nat) → (start : FrameNumber) → Except Fault (Option FrameNumber)
  | 0, _ => .ok none
  | tries + 1, start =>
    match Word.add? start count with
    | none => .ok none
    | some stop =>
      if stop ≤ limit then do
        match ← b.checkedFirstUsed stop start with
        | none => return some start
        | some used =>
          let next ← Word.nextMultiple (← Word.add used 1) align
          b.checkedFindRun count align limit tries next
      else .ok none

/-- `takeRun`. -/
def checkedTakeRun (b : FrameBitmap) (count align limit : Nat) :
    Except Fault (Option FrameNumber × FrameBitmap) := do
  let limit := min limit b.frames
  let start ← Word.nextMultiple (← Word.mul b.usedTail Word.bits) align
  match ← b.checkedFindRun count align limit (limit + 1) start with
  | some start => return (some start, ← b.checkedMarkRangeUsed start count)
  | none => return (none, b)

/-- Number of free frames in the first words. -/
def checkedWhole (b : FrameBitmap) : (words : Nat) → Except Fault Nat
  | 0 => .ok 0
  | words + 1 => do
    let total ← b.checkedWhole words
    let word ← b.checkedWord words
    Word.add total (FrameWord.ones (FrameWord.complement word))

/-- `freeBelow`. -/
def checkedFreeBelow (b : FrameBitmap) (limit : FrameNumber) : Except Fault Nat :=
  if b.frames ≤ limit then .ok b.free
  else do
    let whole ← b.checkedWhole (limit / 64)
    if limit % 64 = 0 then return whole
    else
      let mask ← Word.sub (← Word.shiftLeft 1 (limit % 64)) 1
      let word ← b.checkedWord (limit / 64)
      Word.add whole (FrameWord.ones (FrameWord.complement word &&& mask))

/-! ## Building the bitmap -/

/-- `releaseRegion`. -/
def checkedReleaseRegion (b : FrameBitmap) (region : BootRegion) : Except Fault FrameBitmap :=
  if region.kind = .free then do
    let first ← Address.alignUp region.base frameSize
    let last ← Address.alignDown (← region.region.checkedStop) frameSize
    if first / frameSize < last / frameSize then
      let (_, b) ← b.checkedMarkRangeFree (first / frameSize)
        (← Word.sub (last / frameSize) (first / frameSize))
      return b
    else return b
  else .ok b

/-- `takePool`. -/
def checkedTakePool (b : FrameBitmap) (pages : Nat) :
    Except Fault (Option FrameNumber × FrameBitmap) := do
  match ← b.checkedTakeRun pages 1 Zone.kernel.frameLimit with
  | (some start, b) => return (some start, b)
  | (none, b) => b.checkedTakeRun pages 1 Word.max

end FrameBitmap

/-- `BootMap.regionsOf`. -/
def BootMap.checkedRegionsOf : List BootRecord → Except Fault (List BootRegion)
  | a :: b :: rest => do
    let size ← Word.sub b.base a.base
    let regions ← checkedRegionsOf (b :: rest)
    return if size = 0 then regions else ⟨⟨a.base, size⟩, a.kind, a.flags⟩ :: regions
  | _ => .ok []

/-- `FrameBitmap.ofMap`. -/
def FrameBitmap.checkedOfMap (map : BootMap) : Except Fault FrameBitmap := do
  let regions ← BootMap.checkedRegionsOf map.records
  let b ← regions.foldlM checkedReleaseRegion (allUsed (map.stop / frameSize))
  let (_, b) ← b.checkedMarkUsed 0
  b.checkedSettle

/-! ## The allocator -/

namespace FrameAllocator

/-- `donate`. -/
def checkedDonate (pages : Nat) (b : FrameBitmap) (d : Descriptor) :
    Except Fault (FrameBitmap × Descriptor × List LogRecord) :=
  if pages = 0 then .ok (b, d, [])
  else do
    match ← b.checkedTakePool pages with
    | (some start, b) =>
      let region : MemoryRegion := ⟨start.start, ← Word.mul pages frameSize⟩
      let text ← region.checkedText
      return (b, (d.publishHeap region).2, [⟨.debug, s!"donated {text} to the heap pool"⟩])
    | (none, b) =>
      return (b, d, [⟨.warn, s!"no contiguous run of {pages} pages for the heap pool"⟩])

/-- `init`. -/
def checkedInit (a : FrameAllocator) (map : BootMap) (d : Descriptor) :
    Except Fault (Bool × FrameAllocator × Descriptor × List LogRecord) :=
  match a.bitmap with
  | some _ => .ok (false, a, d, [⟨.warn, "frame allocator already initialized"⟩])
  | none => do
    let b ← FrameBitmap.checkedOfMap map
    let d := map.regions.foldl Descriptor.noteRegion d
    let bytes := Size.text (← Word.mul ((map.stop / frameSize + 63) / 64) 8)
    let free := Size.text (← Word.mul b.free frameSize)
    let covered := ⟨.info, s!"frame bitmap covers {b.frames} frames ({bytes}), {free} free"⟩
    let (b, d, donated) ← checkedDonate a.poolPages b d
    return (true, { a with bitmap := some b }, d, covered :: donated)

/-- `allocatePage`. -/
def checkedAllocatePage (a : FrameAllocator) :
    Except Fault (Except FrameError PhysAddr × FrameAllocator) :=
  match a with
  | ⟨_, none⟩ => .ok (.error .notInitialized, a)
  | ⟨pool, some b⟩ => do
    match ← b.checkedTakeLowest with
    | (some frame, b) => return (.ok frame.start, ⟨pool, some b⟩)
    | (none, b) => return (.error .outOfMemory, ⟨pool, some b⟩)

/-- `allocateBlock`.  A refusal is logged with the bytes that are free in the zone. -/
def checkedAllocateBlock (a : FrameAllocator) (order : Nat) (zone : Zone) :
    Except Fault (Except FrameError PhysAddr × FrameAllocator) :=
  if maxOrder < order then .ok (.error (.orderTooLarge order), a)
  else
    match a with
    | ⟨_, none⟩ => .ok (.error .notInitialized, a)
    | ⟨pool, some b⟩ => do
      let count ← Word.shiftLeft 1 order
      match ← b.checkedTakeRun count count zone.frameLimit with
      | (some frame, b) => return (.ok frame.start, ⟨pool, some b⟩)
      | (none, b) =>
        let _ ← Word.mul (← b.checkedFreeBelow zone.frameLimit) frameSize
        return (.error .outOfMemory, ⟨pool, some b⟩)

/-- `freeBlock`. -/
def checkedFreeBlock (a : FrameAllocator) (address : PhysAddr) (order : Nat) :
    Except Fault (Option Nat × FrameAllocator) :=
  if address = 0 || maxOrder < order || address % frameSize != 0 then .ok (none, a)
  else
    match a with
    | ⟨_, none⟩ => .ok (none, a)
    | ⟨pool, some b⟩ => do
      let (freed, b) ← b.checkedMarkRangeFree address.frame (← Word.shiftLeft 1 order)
      return (some freed, ⟨pool, some b⟩)

/-- `available`. -/
def checkedAvailable (a : FrameAllocator) (zone : Zone) : Except Fault Nat :=
  match a.bitmap with
  | some b => b.checkedFreeBelow zone.frameLimit
  | none => .ok 0

/-- `usedPages`. -/
def checkedUsedPages (a : FrameAllocator) : Except Fault Nat :=
  match a.bitmap with
  | some b => Word.sub b.frames b.free
  | none => .ok 0

end FrameAllocator

end KernelMemory
