/-
  KernelMemory.Proofs.Frames.Represented — what the words, the tail and the count of a bitmap say.

  The bits of a live allocator, the tail and the count are kept together: after any calls the
  tail has only full words below it, the count is that of the clear bits, and bits that stand for
  no frame, or for frame 0, are set.  So what is counted is exact, and no step of a call can fail.

  Main results:
    * `Carries.available_eq_ncard` — what is available in a zone;
    * `bitmap_represents_frames` — all of it, after any calls.
-/

import KernelMemory.Proofs.Frames.Checked
import KernelMemory.Proofs.Frames.Exact

namespace KernelMemory

open FrameAllocator

namespace FrameBitmap

variable {b : FrameBitmap}

/-- The places of the bits that are clear. -/
def clearBits (b : FrameBitmap) : Set Nat :=
  {place | ∃ word, b.words[place / 64]? = some word ∧ word.testBit (place % 64) = false}

/-- The word that holds a bit. -/
theorem bit_of_word {place word : Nat} (h : b.words[place / 64]? = some word) :
    b.bit place = word.testBit (place % 64) := by
  rw [bit, Array.getD_eq_getD_getElem?, h, Option.getD_some]

/-- The clear bits are those of the free frames. -/
theorem WellFormed.clearBits_eq (h : b.WellFormed) : b.clearBits = b.freeSet := by
  ext frame
  constructor
  · rintro ⟨word, hword, hclear⟩
    show b.isFree frame = true
    rw [h.isFree_eq_not_bit, bit_of_word hword, hclear]
    rfl
  · intro hfree
    have hfree : b.isFree frame = true := hfree
    have hword := Array.getElem?_eq_getElem (h.word_index_lt (lt_of_isFree hfree))
    refine ⟨_, hword, ?_⟩
    rwa [h.isFree_eq_not_bit, Bool.not_eq_true', bit_of_word hword] at hfree

/-- A word whose bits are all set is the full one. -/
theorem eq_full_of_testBit {word : Nat} (hlt : word < 2 ^ 64)
    (hset : ∀ place < 64, word.testBit place = true) : word = FrameWord.full := by
  by_contra hne
  obtain ⟨place, hplace⟩ := firstFree_isSome hlt hne
  obtain ⟨-, hbound, hclear⟩ := firstFree_eq_some hplace
  rw [hset place (by omega)] at hclear
  cases hclear

/-- The words below the tail are full. -/
theorem Sound.word_below_tail (h : b.Sound) {i : Nat} (hi : i < b.usedTail) :
    b.words[i]? = some FrameWord.full := by
  have hin : i < b.words.size := Nat.lt_of_lt_of_le hi h.tail_le_size
  have hword := Array.getElem?_eq_getElem hin
  rw [hword]
  refine congrArg some (eq_full_of_testBit (h.word_lt i _ hword) fun place hplace => ?_)
  have hdiv : (i * 64 + place) / 64 = i := by omega
  have hmod : (i * 64 + place) % 64 = place := by omega
  have hset := h.tail (i * 64 + place) (by rw [hdiv]; exact hi)
  have hplace : b.words[(i * 64 + place) / 64]? = some b.words[i] := by
    rw [hdiv]
    exact hword
  have hbit := bit_of_word hplace
  rw [← hset, hbit, hmod]

end FrameBitmap

namespace FrameAllocator

variable {a : FrameAllocator} {map : BootMap} {b : FrameBitmap}

/-- Available in a zone are the free frames that end below its ceiling. -/
theorem Carries.available_eq_ncard (h : Carries map a b) (zone : Zone) : a.available zone
    = {frame | frame ∈ a.freeSet ∧ (frame + 1) * frameSize ≤ min zone.ceiling map.stop}.ncard := by
  have hset : {frame | frame ∈ a.freeSet ∧ (frame + 1) * frameSize ≤ min zone.ceiling map.stop}
      = {frame | frame ∈ b.freeSet ∧ frame < zone.frameLimit} := by
    ext frame
    show frame ∈ a.freeSet ∧ (frame + 1) * frameSize ≤ min zone.ceiling map.stop
      ↔ frame ∈ b.freeSet ∧ frame + 1 ≤ zone.ceiling / frameSize
    rw [Nat.le_min, Nat.le_div_iff_mul_le (by decide), ← h.freeSet_eq]
    constructor
    · rintro ⟨hfree, hzone, -⟩
      exact ⟨hfree, hzone⟩
    · rintro ⟨hfree, hzone⟩
      exact ⟨hfree, hzone, h.frame_end_le hfree⟩
  unfold available
  rw [hset, h.bitmap]
  exact h.sound.freeBelow_eq_ncard _

/-- What is used and what is available are all frames. -/
theorem Carries.usedPages_add_available (h : Carries map a b) :
    a.usedPages + a.available .normal = a.totalPages := by
  have hle := h.sound.free_le_frames
  have havailable : a.available .normal = b.free := by
    rw [available_normal h.wellFormed, h.freeSet_eq]
    exact h.sound.counted.symm
  unfold usedPages totalPages
  rw [havailable, h.bitmap]
  exact Nat.sub_add_cancel hle

/-- What is handed out is never frame 0. -/
theorem Carries.zero_notMem_granted (h : Carries map a b) {request : Request} {address : Nat}
    {a' : FrameAllocator} (e : a.allocate request = (.ok address, a')) :
    address ≠ 0 ∧ 0 ∉ (request.blockAt address).frames := by
  have hgranted := allocate_ok h.wellFormed e
  refine ⟨?_, fun hzero => ne_zero_of_isFree h.wellFormed (hgranted.free hzero) rfl⟩
  have hnull := hgranted.placed.notNull
  cases request <;> exact hnull

/-- What the bitmap of an allocator that was started with a map says. -/
structure Represents (map : BootMap) (a : FrameAllocator) (b : FrameBitmap) : Prop where
  bitmap : a.bitmap = some b
  frames : b.frames = map.stop / frameSize
  size : b.words.size = (b.frames + 63) / 64
  words : ∀ (i word : Nat), b.words[i]? = some word → word < 2 ^ 64
  /-- The bit of frame 0 is set, if there is one. -/
  first : ∀ word, b.words[0]? = some word → word.testBit 0 = true
  padding : ∀ (place word : Nat), b.frames ≤ place → b.words[place / 64]? = some word →
    word.testBit (place % 64) = true
  full : ∀ i < b.usedTail, b.words[i]? = some FrameWord.full
  counted : b.free = b.clearBits.ncard
  /-- Available in a zone are the free frames that end below its ceiling and below the end of the
  map. -/
  available : ∀ zone : Zone, a.available zone
    = {frame | frame ∈ a.freeSet ∧ (frame + 1) * frameSize ≤ min zone.ceiling map.stop}.ncard
  pages : a.usedPages + a.available .normal = a.totalPages
  null : ∀ request address a', a.allocate request = (.ok address, a') →
    address ≠ 0 ∧ 0 ∉ (request.blockAt address).frames
  safe : a.NeverFaults

theorem Carries.represents (h : Carries map a b) : Represents map a b where
  bitmap := h.bitmap
  frames := h.frames
  size := h.sound.size
  words := h.sound.word_lt
  first := fun word hword => by
    have hnull := h.null
    have hfirst : b.words[0 / 64]? = some word := hword
    rw [h.sound.isFree_eq_not_bit, Bool.not_eq_false'] at hnull
    rwa [FrameBitmap.bit_of_word hfirst] at hnull
  padding := fun place word hpast hword => by
    rw [← FrameBitmap.bit_of_word hword]
    exact h.sound.padding place hpast
  full := fun i hi => h.sound.word_below_tail hi
  counted := by rw [h.sound.clearBits_eq]; exact h.sound.counted
  available := h.available_eq_ncard
  pages := h.usedPages_add_available
  null := fun _ _ _ e => h.zero_notMem_granted e
  safe := h.neverFaults

/-- After the start with any map, and any calls since with any arguments, the bitmap says which
frames are free and how many, and no step of a call can fail. -/
theorem bitmap_represents_frames (hwords : map.stop < Word.bound) (h : Live map a) :
    ∃ b, Represents map a b := by
  obtain ⟨b, hb⟩ := h.carries hwords
  exact ⟨b, hb.represents⟩

/-- A block is given back that was not handed out, is free in part, and ends behind the last
frame. -/
theorem bitmap_represents_frames_raggedEight :
    Holdings.eightFrames.stop < Word.bound
      ∧ Live Holdings.eightFrames (raggedEight.after (.free 0x3000 3))
      ∧ (∃ b, Represents Holdings.eightFrames (raggedEight.after (.free 0x3000 3)) b)
      ∧ (raggedEight.after (.free 0x3000 3)).available .legacy = 6 := by
  have hlive := live_raggedEight.after (.free 0x3000 3)
  exact ⟨by decide, hlive, bitmap_represents_frames (by decide) hlive, by decide +kernel⟩

end FrameAllocator

end KernelMemory
