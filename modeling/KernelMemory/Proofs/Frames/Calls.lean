/-
  KernelMemory.Proofs.Frames.Calls — what each call does to the set of free frames, and which
  frames there are to begin with.

  A page is a block of one frame that may lie anywhere, so what is asked for is one request.
  What was handed out lies where it may, and was free; what is given back is free again if it
  exists.  The pool that is set aside when the allocator starts is a run of free frames that
  are not free any more.

  Main results:
    * `allocate_ok`, `allocate_error` — a request granted, and one refused;
    * `freeSet_freeBlock` — a block given back;
    * `mem_freeSet_init` — the frames that are free after the start.
-/

import KernelMemory.Proofs.Boot.Regions
import KernelMemory.Proofs.Frames.Allocator

namespace KernelMemory

/-! ## Blocks -/

/-- The frames that a region has an address in. -/
def MemoryRegion.frames (region : MemoryRegion) : Set Nat :=
  {f | f * frameSize < region.stop ∧ region.base < (f + 1) * frameSize}

/-- A block as a client knows it. -/
structure Block where
  address : PhysAddr
  order : Nat
  /-- The zone it was asked for in. -/
  zone : Zone
  deriving DecidableEq, Repr

namespace Block

/-- The frames of the block. -/
def frames (b : Block) : Set Nat := FrameAllocator.block b.address b.order

/-- Number of frames in the block. -/
def size (b : Block) : Nat := 2 ^ b.order

/-- First address after the block. -/
def stop (b : Block) : Nat := b.address + b.size * frameSize

/-- Whether the block lies where it may: not at the null address, aligned to its size, and below
the ceiling of its zone. -/
structure Placed (b : Block) : Prop where
  notNull : b.address ≠ 0
  small : b.order ≤ maxOrder
  aligned : b.address % (frameSize * 2 ^ b.order) = 0
  below : b.stop ≤ b.zone.ceiling

theorem Placed.accepted {b : Block} (h : b.Placed) : FrameAllocator.accepts b.address b.order := by
  refine ⟨h.notNull, h.small, ?_⟩
  exact Nat.mod_eq_zero_of_dvd (dvd_of_mul_right_dvd (Nat.dvd_of_mod_eq_zero h.aligned))

/-- The frames of a block are those of a run. -/
theorem mem_frames {b : Block} {f : Nat} :
    f ∈ b.frames ↔ b.address / frameSize ≤ f ∧ f < b.address / frameSize + b.size := Iff.rfl

theorem frames_eq_coe_Ico (b : Block) : b.frames
    = (Finset.Ico (b.address / frameSize) (b.address / frameSize + b.size) : Finset Nat) := by
  ext f
  rw [mem_frames, Finset.mem_coe, Finset.mem_Ico]

theorem finite_frames (b : Block) : b.frames.Finite := by
  rw [frames_eq_coe_Ico]
  exact Finset.finite_toSet _

theorem ncard_frames (b : Block) : b.frames.ncard = b.size := by
  rw [frames_eq_coe_Ico, Set.ncard_coe_finset, Nat.card_Ico]
  omega

end Block

/-! ## Requests -/

/-- What can be asked for: the lowest free frame, or a block in a zone. -/
inductive Request where
  | page
  | block (order : Nat) (zone : Zone)
  deriving DecidableEq, Repr

/-- The block that a request is granted with, if it is at an address. -/
def Request.blockAt (address : PhysAddr) : Request → Block
  | page => ⟨address, 0, .normal⟩
  | block order zone => ⟨address, order, zone⟩

namespace FrameAllocator

variable {a a' : FrameAllocator} {request : Request} {address order : Nat}

/-- Hands out what is asked for. -/
def allocate (a : FrameAllocator) : Request → Except FrameError PhysAddr × FrameAllocator
  | .page => a.allocatePage
  | .block order zone => a.allocateBlock order zone

/-- What it is to hand a block out. -/
structure Granted (a : FrameAllocator) (b : Block) (a' : FrameAllocator) : Prop where
  placed : b.Placed
  free : b.frames ⊆ a.freeSet
  wellFormed : a'.WellFormed
  pages : a'.totalPages = a.totalPages
  left : a'.freeSet = a.freeSet \ b.frames

theorem granted_page (ha : a.WellFormed) (e : a.allocatePage = (.ok address, a')) :
    a.Granted ⟨address, 0, .normal⟩ a' := by
  have hfree := block_subset_of_allocatePage ha e
  obtain ⟨frame, rfl, hframe, hwf, hpages, hview⟩ := allocatePage_ok ha e
  have hne := ne_zero_of_isFree ha hframe
  have hlt := lt_totalPages hframe
  have hword : a.totalPages * 4096 < Word.max + 1 := ha.word
  refine ⟨⟨?_, ?_, ?_, ?_⟩, hfree, hwf, hpages, ?_⟩
  · show frame * 4096 ≠ 0
    omega
  · exact Nat.zero_le _
  · show frame * 4096 % (4096 * 1) = 0
    omega
  · show frame * 4096 + 1 * 4096 ≤ Word.max
    omega
  · ext f
    show a'.isFree f = true ↔ a.isFree f = true ∧ f ∉ block (frame * frameSize) 0
    rw [hview, mem_block_page, Bool.and_eq_true, decide_eq_true_eq]

/-- A block handed out starts at a multiple of its size, and ends below the limit of its zone. -/
theorem allocateBlock_place (ha : a.WellFormed) {zone : Zone}
    (e : a.allocateBlock order zone = (.ok address, a')) : ∃ frame : Nat,
      address = frame * frameSize ∧ order ≤ maxOrder ∧ frame % 2 ^ order = 0
        ∧ frame + 2 ^ order ≤ zone.frameLimit := by
  unfold allocateBlock at e
  split at e
  · simp at e
  · rename_i horder
    obtain ⟨pool, _ | b⟩ := a
    · simp at e
    · simp only at e
      split at e
      · rename_i frame b' htake
        obtain ⟨haddr, -⟩ := Prod.mk.injEq .. ▸ e
        injection haddr with haddr
        obtain ⟨halign, hlimit, hframes⟩ := FrameBitmap.takeRun_place htake
        have hlt : frame < b.frames :=
          Nat.lt_of_lt_of_le (Nat.lt_add_of_pos_right (Nat.two_pow_pos order)) hframes
        have hstart := start_of_lt (a := ⟨pool, some b⟩) ha hlt
        exact ⟨frame, haddr.symm.trans hstart, Nat.le_of_not_lt horder, halign, hlimit⟩
      · simp at e

theorem granted_block (ha : a.WellFormed) {zone : Zone}
    (e : a.allocateBlock order zone = (.ok address, a')) :
    a.Granted ⟨address, order, zone⟩ a' := by
  have hfree := block_subset_of_allocateBlock ha e
  obtain ⟨frame, haddr, horder, halign, hlimit⟩ := allocateBlock_place ha e
  obtain ⟨frame', haddr', -, hwf, hpages, hview⟩ := allocateBlock_ok ha e
  have heq : frame' = frame := by
    have hmul : frame' * 4096 = frame * 4096 := haddr'.symm.trans haddr
    omega
  rw [heq] at hview
  subst haddr
  have hdiv : frame * frameSize / frameSize = frame := Nat.mul_div_cancel _ (by decide)
  have hin : frame ∈ block (frame * frameSize) order := by
    show frame * frameSize / frameSize ≤ frame ∧ frame < frame * frameSize / frameSize + 2 ^ order
    have hpos : 0 < 2 ^ order := Nat.two_pow_pos order
    omega
  have hne := ne_zero_of_isFree ha (hfree hin)
  refine ⟨⟨?_, horder, ?_, ?_⟩, hfree, hwf, hpages, ?_⟩
  · show frame * 4096 ≠ 0
    omega
  · show frame * frameSize % (frameSize * 2 ^ order) = 0
    rw [Nat.mul_comm frame, Nat.mul_mod_mul_left, halign, Nat.mul_zero]
  · show frame * frameSize + 2 ^ order * frameSize ≤ zone.ceiling
    rw [← Nat.add_mul]
    exact (Nat.le_div_iff_mul_le (by decide)).mp hlimit
  · ext f
    show a'.isFree f = true ↔ a.isFree f = true ∧ f ∉ block (frame * frameSize) order
    rw [hview, block, Set.mem_ofPred_eq, hdiv]

/-- What is handed out lies where it may, was free, and is not free any more. -/
theorem allocate_ok (ha : a.WellFormed) (e : a.allocate request = (.ok address, a')) :
    a.Granted (request.blockAt address) a' := by
  cases request with
  | page => exact granted_page ha e
  | block order zone => exact granted_block ha e

/-- A request that is refused changes nothing about the frames. -/
theorem allocate_error (ha : a.WellFormed) {error : FrameError}
    (e : a.allocate request = (.error error, a')) :
    a'.WellFormed ∧ a'.totalPages = a.totalPages ∧ a'.freeSet = a.freeSet := by
  cases request with
  | page =>
    obtain ⟨hwf, hpages, hview, -⟩ := allocatePage_error ha e
    refine ⟨hwf, hpages, ?_⟩
    ext f
    show a'.isFree f = true ↔ a.isFree f = true
    rw [hview]
  | block order zone =>
    rw [allocateBlock_error e]
    exact ⟨ha, rfl, rfl⟩

/-- The frames that a block given back makes free: those that exist. -/
theorem freeSet_freeBlock (ha : a.WellFormed) (address order : Nat) :
    (a.freeBlock address order).2.freeSet
      = a.freeSet ∪ {f | f ∈ givenBack address order ∧ f < a.totalPages} := by
  ext f
  show (a.freeBlock address order).2.isFree f = true ↔ _
  rw [isFree_freeBlock ha]
  constructor
  · rintro (hfree | ⟨haccept, hlow, hhigh, hlt⟩)
    · exact .inl hfree
    · exact .inr ⟨⟨haccept, hlow, hhigh⟩, hlt⟩
  · rintro (hfree | ⟨⟨haccept, hlow, hhigh⟩, hlt⟩)
    · exact .inl hfree
    · exact .inr ⟨haccept, hlow, hhigh, hlt⟩

end FrameAllocator

/-! ## The pool -/

namespace FrameAllocator

/-- The region that is set aside for the heap when `pages` are to be. -/
def pool (pages : Nat) (b : FrameBitmap) : Option MemoryRegion :=
  if pages = 0 then none
  else (b.takePool pages).1.map fun start => ⟨start.start, pages * frameSize⟩

/-- The pool is published as the heap, unless one is published already. -/
theorem heap_donate (pages : Nat) (b : FrameBitmap) (d : Descriptor) :
    (donate pages b d).2.1.heap = d.heap.or (pool pages b) := by
  unfold donate pool
  split
  · simp
  · split
    · rename_i start b' htake
      rw [htake]
      rfl
    · rename_i b' htake
      rw [htake]
      simp

theorem heap_foldl (regions : List BootRegion) (d : Descriptor) :
    (regions.foldl Descriptor.noteRegion d).heap = d.heap := by
  induction regions generalizing d with
  | nil => rfl
  | cons region rest ih =>
    rw [List.foldl_cons, ih]
    unfold Descriptor.noteRegion
    split <;> rfl

theorem heap_init (pages : Nat) (map : BootMap) (d : Descriptor) :
    (init ⟨pages, none⟩ map d).2.2.1.heap = d.heap.or (pool pages (FrameBitmap.ofMap map)) := by
  show (donate pages (FrameBitmap.ofMap map)
    (map.regions.foldl Descriptor.noteRegion d)).2.1.heap = _
  rw [heap_donate, heap_foldl]

/-- The frames of a pool are a run. -/
theorem exists_run_of_pool {b : FrameBitmap} (h : b.WellFormed)
    (hword : b.frames * frameSize < Word.bound) {pages : Nat} {region : MemoryRegion}
    (e : pool pages b = some region) : ∃ (start : Nat) (b' : FrameBitmap),
      b.takePool pages = (some start, b')
        ∧ ∀ f : Nat, f ∈ region.frames ↔ start ≤ f ∧ f < start + pages := by
  unfold pool at e
  split at e
  · cases e
  · rename_i hpages
    obtain ⟨start, htake, hregion⟩ := Option.map_eq_some_iff.mp e
    obtain ⟨-, hend, -⟩ :=
      FrameBitmap.takePool_eq_some h (Prod.ext htake rfl : b.takePool pages = (some start, _))
    have hstart : FrameNumber.start start = start * frameSize :=
      FrameNumber.start_eq (Nat.lt_of_le_of_lt
        (Nat.mul_le_mul_right _ (Nat.le_trans (Nat.le_add_right start pages) hend)) hword)
    refine ⟨start, _, Prod.ext htake rfl, fun f => ?_⟩
    rw [← hregion, hstart]
    show f * 4096 < start * 4096 + pages * 4096 ∧ (f + 1) * 4096 > start * 4096
      ↔ f ≥ start ∧ f < start + pages
    omega

/-- The pool is made of frames that were free. -/
theorem pool_subset {b : FrameBitmap} (h : b.WellFormed) (hword : b.frames * frameSize < Word.bound)
    {pages : Nat} {region : MemoryRegion} (e : pool pages b = some region) :
    region.frames ⊆ b.freeSet := by
  obtain ⟨start, b', htake, hrun⟩ := exists_run_of_pool h hword e
  obtain ⟨hfree, -⟩ := FrameBitmap.takePool_eq_some h htake
  intro f hf
  obtain ⟨hlow, hhigh⟩ := (hrun f).mp hf
  exact hfree f hlow hhigh

/-- What is set aside is not free any more; all else stays as it is. -/
theorem isFree_donate {b : FrameBitmap} (h : b.WellFormed)
    (hword : b.frames * frameSize < Word.bound) (pages : Nat) (d : Descriptor) (frame : Nat) :
    (donate pages b d).1.isFree frame = true
      ↔ b.isFree frame = true ∧ ∀ region, pool pages b = some region → frame ∉ region.frames := by
  cases hpool : pool pages b with
  | none =>
    have hsame : (donate pages b d).1 = b := by
      unfold pool at hpool
      unfold donate
      split
      · rfl
      · rename_i hpages
        rw [if_neg hpages] at hpool
        have htake := Option.map_eq_none_iff.mp hpool
        split
        · rename_i start b' hsome
          rw [hsome] at htake
          cases htake
        · rename_i b' hnone
          exact FrameBitmap.takePool_eq_none hnone
    rw [hsame]
    simp
  | some region =>
    obtain ⟨start, b', htake, hrun⟩ := exists_run_of_pool h hword hpool
    obtain ⟨-, -, -, -, hview⟩ := FrameBitmap.takePool_eq_some h htake
    have htaken : (donate pages b d).1 = b' := by
      have hpages : pages ≠ 0 := by
        intro hzero
        unfold pool at hpool
        rw [if_pos hzero] at hpool
        cases hpool
      unfold donate
      rw [if_neg hpages, htake]
    rw [htaken, hview]
    constructor
    · intro hin
      refine ⟨hin.1, fun other hother => ?_⟩
      injection hother with hother
      rw [← hother, hrun]
      exact hin.2
    · intro hin
      refine ⟨hin.1, fun hrange => hin.2 region rfl ?_⟩
      exact (hrun frame).mpr hrange

/-! ## Starting -/

variable {pages : Nat} {map : BootMap}

/-- Where addresses are words, so are the ends of regions and the addresses of frames. -/
theorem words_of_map (hwords : map.stop < Word.bound) :
    (∀ region ∈ map.regions, region.stop < Word.bound)
      ∧ (FrameBitmap.ofMap map).frames * frameSize < Word.bound := by
  obtain ⟨-, hframes, -⟩ := FrameBitmap.ofMap_wellFormed map
  refine ⟨fun region hregion => ?_, ?_⟩
  · exact Nat.lt_of_le_of_lt (BootMap.region_stop_le hregion) hwords
  · rw [hframes]
    exact Nat.lt_of_le_of_lt (Nat.div_mul_le_self _ _) hwords

/-- A started allocator covers the whole frames of the map. -/
theorem totalPages_init (hwords : map.stop < Word.bound) (d : Descriptor) :
    (init ⟨pages, none⟩ map d).2.1.totalPages = map.stop / frameSize := by
  obtain ⟨-, hstarted⟩ := init_wellFormed (wellFormed_unstarted pages) hwords d
  rcases hstarted with hsame | ⟨-, htotal⟩
  · cases hsame
  · exact htotal

/-- The pool is made of frames that regions offer. -/
theorem offers_of_pool (hwords : map.stop < Word.bound) {region : MemoryRegion}
    (e : pool pages (FrameBitmap.ofMap map) = some region) {frame : Nat}
    (hframe : frame ∈ region.frames) : ∃ region ∈ map.regions, region.Offers frame := by
  obtain ⟨hwf, -, -⟩ := FrameBitmap.ofMap_wellFormed map
  obtain ⟨hstops, hlast⟩ := words_of_map hwords
  have hfree : (FrameBitmap.ofMap map).isFree frame = true := pool_subset hwf hlast e hframe
  exact ((FrameBitmap.isFree_ofMap hstops frame).mp hfree).2.2

/-- After the start those frames are free that regions offer, but for frame 0 and the pool. -/
theorem mem_freeSet_init (hwords : map.stop < Word.bound) (d : Descriptor) (frame : Nat) :
    frame ∈ (init ⟨pages, none⟩ map d).2.1.freeSet
      ↔ (frame ≠ 0 ∧ frame < map.stop / frameSize ∧ ∃ region ∈ map.regions, region.Offers frame)
        ∧ ∀ region, pool pages (FrameBitmap.ofMap map) = some region → frame ∉ region.frames := by
  obtain ⟨hwf, -, -⟩ := FrameBitmap.ofMap_wellFormed map
  obtain ⟨hstops, hlast⟩ := words_of_map hwords
  show (donate pages (FrameBitmap.ofMap map)
    (map.regions.foldl Descriptor.noteRegion d)).1.isFree frame = true ↔ _
  rw [isFree_donate hwf hlast, FrameBitmap.isFree_ofMap hstops]

end FrameAllocator

end KernelMemory
