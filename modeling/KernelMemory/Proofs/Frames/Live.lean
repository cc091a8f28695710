/-
  KernelMemory.Proofs.Frames.Live — the allocators that calls lead to once one was started.

  A live allocator was started with a map, and any calls were made since, with any arguments:
  requests, frames given back by whomever, and starts that come too late.

  Main results:
    * `Carries.after` — what one call keeps;
    * `Live.carries` — what every live allocator carries: a bitmap of the frames of its map whose
      tail is inside its words.
-/

import KernelMemory.Proofs.Frames.Searches
import KernelMemory.Proofs.Frames.StrayFrees

namespace KernelMemory

/-! ## Bitmaps -/

namespace FrameBitmap

/-- A well-formed bitmap whose tail is inside its words and whose frames start at words. -/
structure Sound (b : FrameBitmap) : Prop extends WellFormed b where
  tail_le : b.usedTail ≤ (b.frames + 63) / 64
  frames_word : b.frames * frameSize < Word.bound

variable {b : FrameBitmap}

theorem Sound.tail_le_size (h : b.Sound) : b.usedTail ≤ b.words.size := by
  rw [h.size]
  exact h.tail_le

theorem sound_allUsed {frames : Nat} (h : frames * frameSize < Word.bound) :
    (allUsed frames).Sound :=
  ⟨wellFormed_allUsed frames, Nat.zero_le _, h⟩

theorem Sound.markUsed (h : b.Sound) (frame : Nat) : (b.markUsed frame).Sound := by
  refine ⟨h.toWellFormed.markUsed frame, ?_, ?_⟩
  · have htail : (b.markUsed frame).usedTail = b.usedTail := by
      unfold FrameBitmap.markUsed; split <;> rfl
    rw [htail, frames_markUsed]
    exact h.tail_le
  · rw [frames_markUsed]
    exact h.frames_word

theorem Sound.markFree (h : b.Sound) (frame : Nat) : (b.markFree frame).Sound := by
  refine ⟨h.toWellFormed.markFree frame, ?_, ?_⟩
  · have htail : (b.markFree frame).usedTail ≤ b.usedTail := by
      unfold FrameBitmap.markFree
      split
      · exact Nat.le_refl _
      · exact Nat.min_le_left _ _
    rw [frames_markFree]
    exact Nat.le_trans htail h.tail_le
  · rw [frames_markFree]
    exact h.frames_word

theorem Sound.settle (h : b.Sound) : b.settle.Sound := by
  refine ⟨h.toWellFormed.settle, ?_, h.frames_word⟩
  obtain ⟨-, hbound, -, -⟩ := skipFull_spec b.words (b.words.size - b.usedTail) b.usedTail
  have htail := h.tail_le_size
  show skipFull b.words (b.words.size - b.usedTail) b.usedTail ≤ (b.frames + 63) / 64
  rw [← h.size]
  omega

theorem Sound.markFreeFrom (h : b.Sound) (start count : Nat) : (b.markFreeFrom start count).Sound := by
  induction count generalizing b start with
  | zero => exact h
  | succ count ih => exact ih (h.markFree start) (start + 1)

theorem Sound.markRangeFree (h : b.Sound) (start count : Nat) :
    (b.markRangeFree start count).Sound := h.markFreeFrom _ _

theorem Sound.markUsedFrom (h : b.Sound) (start count : Nat) : (b.markUsedFrom start count).Sound := by
  induction count generalizing b start with
  | zero => exact h
  | succ count ih => exact ih (h.markUsed start) (start + 1)

theorem Sound.markRangeUsed (h : b.Sound) (start count : Nat) :
    (b.markRangeUsed start count).Sound := (h.markUsedFrom start count).settle

theorem Sound.takeLowest (h : b.Sound) : b.takeLowest.2.Sound := by
  unfold FrameBitmap.takeLowest
  simp only
  split
  · exact h.settle
  · exact h.settle.markUsed _

theorem Sound.takeRun (h : b.Sound) (count align limit : Nat) :
    (b.takeRun count align limit).2.Sound := by
  unfold FrameBitmap.takeRun
  simp only
  split
  · exact h.markRangeUsed _ _
  · exact h

theorem Sound.takePool (h : b.Sound) (pages : Nat) : (b.takePool pages).2.Sound := by
  have hlow := h.takeRun pages 1 Zone.kernel.frameLimit
  unfold FrameBitmap.takePool
  split
  · rename_i start b' htake
    rw [htake] at hlow
    exact hlow
  · rename_i b' htake
    rw [htake] at hlow
    exact hlow.takeRun pages 1 Word.max

theorem Sound.releaseRegion (h : b.Sound) (region : BootRegion) : (b.releaseRegion region).Sound := by
  unfold FrameBitmap.releaseRegion
  split
  · exact h.markRangeFree _ _
  · exact h

theorem Sound.foldl_releaseRegion (h : b.Sound) (regions : List BootRegion) :
    (regions.foldl FrameBitmap.releaseRegion b).Sound := by
  induction regions generalizing b with
  | nil => exact h
  | cons region rest ih => exact ih (h.releaseRegion region)

theorem sound_ofMap {map : BootMap} (hwords : map.stop < Word.bound) : (ofMap map).Sound := by
  have hframes : map.stop / frameSize * frameSize < Word.bound :=
    Nat.lt_of_le_of_lt (Nat.div_mul_le_self _ _) hwords
  exact (((sound_allUsed hframes).foldl_releaseRegion map.regions).markUsed 0).settle

end FrameBitmap

namespace FrameAllocator

variable {a : FrameAllocator} {map : BootMap} {b : FrameBitmap}

/-! ## Calls -/

/-- The allocator after a call. -/
def after (a : FrameAllocator) : FrameCall → FrameAllocator
  | .allocate request => (a.allocate request).2
  | .free address order => (a.freeBlock address order).2
  | .init map d => (a.init map d).2.1

/-- The allocator after calls made one after another. -/
def run (a : FrameAllocator) (calls : List FrameCall) : FrameAllocator :=
  calls.foldl FrameAllocator.after a

/-- The allocators that were started with a map, after any calls. -/
inductive Live (map : BootMap) : FrameAllocator → Prop where
  | started (pages : Nat) (d : Descriptor) : Live map (init ⟨pages, none⟩ map d).2.1
  | after {a : FrameAllocator} (h : Live map a) (call : FrameCall) : Live map (a.after call)

/-- What a live allocator carries. -/
structure Carries (map : BootMap) (a : FrameAllocator) (b : FrameBitmap) : Prop where
  bitmap : a.bitmap = some b
  sound : b.Sound
  frames : b.frames = map.stop / frameSize
  null : b.isFree 0 = false

theorem Carries.wellFormed (h : Carries map a b) : a.WellFormed := by
  obtain ⟨pool, bitmap⟩ := a
  obtain ⟨rfl, hsound, -, hnull⟩ := h
  exact ⟨fun _ heq => by cases heq; exact hsound.toWellFormed, hnull, hsound.frames_word⟩

theorem Carries.isInitialized (h : Carries map a b) : a.isInitialized = true := by
  unfold FrameAllocator.isInitialized
  rw [h.bitmap]
  rfl

theorem Carries.freeSet_eq (h : Carries map a b) : a.freeSet = b.freeSet := by
  obtain ⟨pool, bitmap⟩ := a
  obtain ⟨rfl, -, -, -⟩ := h
  rfl

/-! ## The start -/

theorem bitmap_init (pages : Nat) (map : BootMap) (d : Descriptor) :
    (init ⟨pages, none⟩ map d).2.1.bitmap
      = some (donate pages (FrameBitmap.ofMap map) (map.regions.foldl Descriptor.noteRegion d)).1 :=
  rfl

theorem sound_donate {pages : Nat} (h : b.Sound) (d : Descriptor) : (donate pages b d).1.Sound := by
  have hpool := h.takePool pages
  unfold donate
  split
  · exact h
  · split
    · rename_i start b' htake
      rw [htake] at hpool
      exact hpool
    · rename_i b' htake
      rw [htake] at hpool
      exact hpool

/-- What an allocator carries right after its start. -/
theorem carries_init (hwords : map.stop < Word.bound) (pages : Nat) (d : Descriptor) :
    ∃ b, Carries map (init ⟨pages, none⟩ map d).2.1 b := by
  obtain ⟨hwf, hstarted⟩ := init_wellFormed (wellFormed_unstarted pages) hwords d
  refine ⟨_, bitmap_init pages map d, sound_donate (FrameBitmap.sound_ofMap hwords) _, ?_, hwf.null⟩
  exact totalPages_init hwords d

/-! ## One call -/

/-- A page is the lowest frame of the bitmap. -/
theorem allocatePage_eq (pool : Nat) (b : FrameBitmap) : allocatePage ⟨pool, some b⟩
    = (b.takeLowest.1.elim (.error .outOfMemory) fun frame => .ok frame.start,
      ⟨pool, some b.takeLowest.2⟩) := by
  unfold allocatePage
  simp only
  split
  · rename_i frame b' htake
    rw [htake]
    rfl
  · rename_i b' htake
    rw [htake]
    rfl

/-- A block is a run of the bitmap. -/
theorem allocateBlock_eq (pool : Nat) (b : FrameBitmap) {order : Nat} (horder : order ≤ maxOrder)
    (zone : Zone) : allocateBlock ⟨pool, some b⟩ order zone
      = ((b.takeRun (2 ^ order) (2 ^ order) zone.frameLimit).1.elim (.error .outOfMemory)
          fun frame => .ok frame.start,
        ⟨pool, some (b.takeRun (2 ^ order) (2 ^ order) zone.frameLimit).2⟩) := by
  unfold allocateBlock
  rw [if_neg (Nat.not_lt.mpr horder)]
  simp only
  split
  · rename_i frame b' htake
    rw [htake]
    rfl
  · rename_i b' htake
    rw [htake]
    rfl

theorem allocateBlock_of_lt (a : FrameAllocator) {order : Nat} (horder : maxOrder < order)
    (zone : Zone) : a.allocateBlock order zone = (.error (.orderTooLarge order), a) := if_pos horder

theorem sound_allocate {b' : FrameBitmap} (h : b.Sound) (hbitmap : a.bitmap = some b)
    (request : Request) (hbitmap' : (a.allocate request).2.bitmap = some b') : b'.Sound := by
  obtain ⟨pool, bitmap⟩ := a
  cases hbitmap
  cases request with
  | page =>
    have hpage : allocate ⟨pool, some b⟩ .page = _ := allocatePage_eq pool b
    rw [hpage] at hbitmap'
    cases hbitmap'
    exact h.takeLowest
  | block order zone =>
    by_cases horder : order ≤ maxOrder
    · have hblock : allocate ⟨pool, some b⟩ (.block order zone) = _ :=
        allocateBlock_eq pool b horder zone
      rw [hblock] at hbitmap'
      cases hbitmap'
      exact h.takeRun _ _ _
    · have hblock : allocate ⟨pool, some b⟩ (.block order zone) = _ :=
        allocateBlock_of_lt _ (Nat.lt_of_not_le horder) zone
      rw [hblock] at hbitmap'
      cases hbitmap'
      exact h

theorem sound_freeBlock {b' : FrameBitmap} (h : b.Sound) (hbitmap : a.bitmap = some b)
    (address order : Nat) (hbitmap' : (a.freeBlock address order).2.bitmap = some b') : b'.Sound := by
  obtain ⟨pool, bitmap⟩ := a
  cases hbitmap
  unfold freeBlock at hbitmap'
  split at hbitmap'
  · cases hbitmap'
    exact h
  · cases hbitmap'
    exact h.markRangeFree _ _

/-- A started, well-formed allocator of as many frames carries its bitmap. -/
theorem carries_of_wellFormed (hwf : a.WellFormed) (hstarted : a.isInitialized = true)
    (hpages : a.totalPages = map.stop / frameSize)
    (hsound : ∀ b, a.bitmap = some b → b.Sound) : ∃ b, Carries map a b := by
  obtain ⟨pool, _ | b⟩ := a
  · cases hstarted
  · exact ⟨b, rfl, hsound b rfl, hpages, hwf.null⟩

theorem Carries.totalPages_eq (h : Carries map a b) : a.totalPages = map.stop / frameSize := by
  obtain ⟨pool, bitmap⟩ := a
  obtain ⟨rfl, -, hframes, -⟩ := h
  exact hframes

/-- One call keeps what an allocator carries. -/
theorem Carries.after (h : Carries map a b) (call : FrameCall) :
    ∃ b', Carries map (a.after call) b' := by
  cases call with
  | allocate request =>
    have hsound : ∀ b', (a.allocate request).2.bitmap = some b' → b'.Sound :=
      fun _ hbitmap' => sound_allocate h.sound h.bitmap request hbitmap'
    have hstarted := (isInitialized_allocate a request).trans h.isInitialized
    cases hanswer : a.allocate request with
    | mk result a' =>
      rw [hanswer] at hsound hstarted
      have hafter : a.after (.allocate request) = a' := congrArg Prod.snd hanswer
      rw [hafter]
      cases result with
      | ok address =>
        have hgranted := allocate_ok h.wellFormed hanswer
        exact carries_of_wellFormed hgranted.wellFormed hstarted
          (hgranted.pages.trans h.totalPages_eq) hsound
      | error error =>
        obtain ⟨hwf, hpages, -⟩ := allocate_error h.wellFormed hanswer
        exact carries_of_wellFormed hwf hstarted (hpages.trans h.totalPages_eq) hsound
  | free address order =>
    obtain ⟨hwf, hpages⟩ := freeBlock_wellFormed h.wellFormed address order
    exact carries_of_wellFormed hwf ((isInitialized_freeBlock a address order).trans h.isInitialized)
      (hpages.trans h.totalPages_eq) fun _ => sound_freeBlock h.sound h.bitmap address order
  | init later d =>
    have hsame : a.after (.init later d) = a := init_of_isInitialized h.isInitialized later d
    rw [hsame]
    exact ⟨b, h⟩

theorem Live.run (h : Live map a) (calls : List FrameCall) : Live map (a.run calls) := by
  induction calls generalizing a with
  | nil => exact h
  | cons call calls ih => exact ih (h.after call)

/-- Every live allocator carries a bitmap of the frames of its map. -/
theorem Live.carries (hwords : map.stop < Word.bound) (h : Live map a) : ∃ b, Carries map a b := by
  induction h with
  | started pages d => exact carries_init hwords pages d
  | after _ call ih =>
    obtain ⟨b, hb⟩ := ih
    exact hb.after call

end FrameAllocator

end KernelMemory
