/-
  KernelMemory.Frames.Bitmap — which physical frames are free, one bit per frame.

  Bits are kept in words of 64; a set bit means that the frame is in use.  Bits past the
  last frame stay set.  Two numbers are kept beside the words and follow from them: the
  count of free frames, and a word below which every word is full.

  The view of a bitmap is `isFree : FrameNumber → Bool`; searches and updates are written
  frame by frame, and the words only make skipping full stretches cheap.
-/

import KernelMemory.Address

namespace KernelMemory

/-! ## Words of 64 frames -/

namespace FrameWord

/-- A word in which every frame is in use. -/
abbrev full : Nat := 2 ^ 64 - 1

/-- Number of free frames among the first `count` of a word. -/
def freeBelow (word count : Nat) : Nat :=
  if word = full then 0 else (List.range count).countP fun bit => !word.testBit bit

/-- The lowest free frame of a word from `bit` on, looking at `count` frames. -/
def firstFree (word : Nat) : (count bit : Nat) → Option Nat
  | 0, _ => none
  | count + 1, bit => if word.testBit bit then firstFree word count (bit + 1) else some bit

end FrameWord

/-! ## The bitmap -/

/-- Free and used frames. -/
structure FrameBitmap where
  /-- The frames in groups of 64; a set bit is a frame in use. -/
  words : Array Nat
  /-- Number of frames covered. -/
  frames : Nat
  /-- Every word below this one is full. -/
  usedTail : Nat
  /-- Number of free frames. -/
  free : Nat
  deriving DecidableEq, Repr

namespace FrameBitmap

/-- The bitmap of `frames` frames, all in use. -/
def allUsed (frames : Nat) : FrameBitmap :=
  ⟨Array.replicate ((frames + 63) / 64) FrameWord.full, frames, 0, 0⟩

/-- Whether the frame exists and is free. -/
def isFree (b : FrameBitmap) (frame : FrameNumber) : Bool :=
  frame < b.frames && !(b.words.getD (frame / 64) FrameWord.full).testBit (frame % 64)

/-- The words after the bit of one frame was changed. -/
def flip (words : Array Nat) (frame : FrameNumber) : Array Nat :=
  words.modify (frame / 64) (· ^^^ 2 ^ (frame % 64))

/-- Makes a frame free, unless it is free already or does not exist. -/
def markFree (b : FrameBitmap) (frame : FrameNumber) : FrameBitmap :=
  if b.frames ≤ frame || b.isFree frame then b
  else
    { b with
      words := flip b.words frame
      usedTail := min b.usedTail (frame / 64)
      free := b.free + 1 }

/-- Makes a free frame used; other frames stay as they are. -/
def markUsed (b : FrameBitmap) (frame : FrameNumber) : FrameBitmap :=
  if b.isFree frame then { b with words := flip b.words frame, free := b.free - 1 } else b

/-- Makes `count` frames from `start` on free. -/
def markFreeFrom (b : FrameBitmap) (start : FrameNumber) : (count : Nat) → FrameBitmap
  | 0 => b
  | count + 1 => (b.markFree start).markFreeFrom (start + 1) count

/-- Makes those of `count` frames from `start` on free that exist. -/
def markRangeFree (b : FrameBitmap) (start : FrameNumber) (count : Nat) : FrameBitmap :=
  b.markFreeFrom start (min (start + count) b.frames - start)

/-- Makes `count` frames from `start` on used. -/
def markUsedFrom (b : FrameBitmap) (start : FrameNumber) : (count : Nat) → FrameBitmap
  | 0 => b
  | count + 1 => (b.markUsed start).markUsedFrom (start + 1) count

/-- The first word at or after `tail` that is not full, looking at `count` words. -/
def skipFull (words : Array Nat) : (count tail : Nat) → Nat
  | 0, tail => tail
  | count + 1, tail =>
    if words.getD tail 0 = FrameWord.full then skipFull words count (tail + 1) else tail

/-- Moves the tail past words that have become full. -/
def settle (b : FrameBitmap) : FrameBitmap :=
  { b with usedTail := skipFull b.words (b.words.size - b.usedTail) b.usedTail }

/-- Makes `count` frames from `start` on used, and moves the tail. -/
def markRangeUsed (b : FrameBitmap) (start : FrameNumber) (count : Nat) : FrameBitmap :=
  (b.markUsedFrom start count).settle

/-! ## Allocation -/

/-- Takes the lowest free frame.  The frame is missing exactly when every word is full. -/
def takeLowest (b : FrameBitmap) : Option FrameNumber × FrameBitmap :=
  let b := b.settle
  match b.words[b.usedTail]? with
  | none => (none, b)
  | some word =>
    let frame := b.usedTail * 64 + (FrameWord.firstFree word 64 0).getD 64
    (some frame, b.markUsed frame)

/-- The first frame in use among `count` frames from `start` on. -/
def firstUsed (b : FrameBitmap) (start : FrameNumber) : (count : Nat) → Option FrameNumber
  | 0 => none
  | count + 1 => if b.isFree start then b.firstUsed (start + 1) count else some start

/-- Searches a run of `count` free frames that starts at a multiple of `align`, at `start`
or later, and ends at or below `limit`.  A frame in use sends the search to the next
multiple behind it, so no more than `limit` candidates are tried. -/
def findRun (b : FrameBitmap) (count align limit : Nat) :
    (tries : Nat) → (start : FrameNumber) → Option FrameNumber
  | 0, _ => none
  | tries + 1, start =>
    if start + count ≤ limit then
      match b.firstUsed start count with
      | none => some start
      | some used => b.findRun count align limit tries (ceilTo align (used + 1))
    else none

/-- Takes the lowest run of `count` free frames that starts at a multiple of `align` and
ends at or below frame `limit`. -/
def takeRun (b : FrameBitmap) (count align limit : Nat) : Option FrameNumber × FrameBitmap :=
  let limit := min limit b.frames
  match b.findRun count align limit (limit + 1) (ceilTo align (b.usedTail * 64)) with
  | some start => (some start, b.markRangeUsed start count)
  | none => (none, b)

/-! ## Counting -/

/-- Number of free frames below `limit`. -/
def freeBelow (b : FrameBitmap) (limit : FrameNumber) : Nat :=
  if b.frames ≤ limit then b.free
  else
    let whole := (limit / 64).fold
      (fun i _ total => total + FrameWord.freeBelow (b.words.getD i FrameWord.full) 64) 0
    whole + FrameWord.freeBelow (b.words.getD (limit / 64) FrameWord.full) (limit % 64)

/-- The free frames in ascending order. -/
def freeFrames (b : FrameBitmap) : List FrameNumber :=
  (List.range b.frames).filter b.isFree

end FrameBitmap

end KernelMemory
