/-
  KernelMemory.Proofs.Frames.Starting — what the start of the allocator frees and sets aside.

  A frame is there to be handed out if a free region of the map holds all of it.  From these
  frames the pool for the kernel heap is taken: the lowest run below 256 MiB, or else the lowest
  run anywhere; all others are free after the start.  An allocator starts once.

  Main results:
    * `FrameBitmap.Sound.poolChosen` — which pool is set aside;
    * `starts_exactly` — the free frames, the pool, that no step fails, and that later starts
      change nothing.
-/

import KernelMemory.Proofs.Frames.Represented

namespace KernelMemory

open FrameAllocator

/-! ## Frames of a map -/

/-- The frames of a map that can be handed out: not frame 0, below the end of the map, and as a
whole in one free region. -/
def BootMap.wholeFrames (map : BootMap) : Set Nat :=
  {frame | frame ≠ 0 ∧ frame < map.stop / frameSize ∧ ∃ region ∈ map.regions,
    region.kind = .free ∧ region.base ≤ frame * frameSize ∧ (frame + 1) * frameSize ≤ region.stop}

/-- What a region offers lies in it as a whole. -/
theorem BootRegion.offers_iff {region : BootRegion} {frame : Nat} : region.Offers frame
    ↔ region.kind = .free ∧ region.base ≤ frame * frameSize
      ∧ (frame + 1) * frameSize ≤ region.stop := by
  rw [BootRegion.Offers, Nat.not_lt, Nat.not_lt]

/-- No address limits a run that ends below the last frame. -/
theorem FrameBitmap.Sound.runStarts_max {b : FrameBitmap} (h : b.Sound) {count align : Nat}
    (hcount : 0 < count) : b.runStarts count align Word.max
      = {start | start % align = 0 ∧ IsRun b.freeSet start count} := by
  ext start
  constructor
  · rintro ⟨hmod, -, hrun⟩
    exact ⟨hmod, hrun⟩
  · rintro ⟨hmod, hrun⟩
    -- the last frame of the run is in the bitmap
    have hlast : b.isFree (start + count - 1) = true := hrun _ (by omega) (by omega)
    have hlt := lt_of_isFree hlast
    have hword := h.lt_bound (n := start + count) (by omega)
    exact ⟨hmod, Nat.le_of_lt_succ hword, hrun⟩

/-- The free frames of the bitmap of a map. -/
theorem FrameBitmap.freeSet_ofMap {map : BootMap} (hwords : map.stop < Word.bound) :
    (ofMap map).freeSet = map.wholeFrames := by
  ext frame
  show (ofMap map).isFree frame = true ↔ _
  rw [isFree_ofMap (words_of_map hwords).1]
  simp only [BootRegion.offers_iff]
  rfl

/-! ## The pool -/

/-- Which region is set aside for a pool of `pages` frames, where the frames `free` are there: the
lowest run that ends at or below 256 MiB, or the lowest of all runs, or none. -/
inductive PoolChosen (free : Set Nat) (pages : Nat) : Option MemoryRegion → Prop where
  | low {start : Nat} (wanted : pages ≠ 0)
      (least : IsLeast {start | (start + pages) * frameSize ≤ 256 * 2 ^ 20 ∧ IsRun free start pages}
        start) :
      PoolChosen free pages (some ⟨start * frameSize, pages * frameSize⟩)
  | anywhere {start : Nat} (wanted : pages ≠ 0)
      (noneLow : ∀ start, IsRun free start pages → ¬ (start + pages) * frameSize ≤ 256 * 2 ^ 20)
      (least : IsLeast {start | IsRun free start pages} start) :
      PoolChosen free pages (some ⟨start * frameSize, pages * frameSize⟩)
  | nowhere (noRoom : pages = 0 ∨ ∀ start, ¬ IsRun free start pages) : PoolChosen free pages none

/-- There is no pool exactly where none is wanted or there is no room for it. -/
theorem PoolChosen.eq_none_iff {free : Set Nat} {pages : Nat} {heap : Option MemoryRegion}
    (h : PoolChosen free pages heap) :
    heap = none ↔ pages = 0 ∨ ∀ start, ¬ IsRun free start pages := by
  cases h with
  | low wanted least =>
    refine ⟨fun heq => (by cases heq), fun hnone => ?_⟩
    exact (hnone.elim wanted fun hrun => hrun _ least.1.2).elim
  | anywhere wanted _ least =>
    refine ⟨fun heq => (by cases heq), fun hnone => ?_⟩
    exact (hnone.elim wanted fun hrun => hrun _ least.1).elim
  | nowhere noRoom => exact ⟨fun _ => noRoom, fun _ => rfl⟩

namespace FrameBitmap

variable {b : FrameBitmap} {pages : Nat}

theorem runStarts_kernel : b.runStarts pages 1 Zone.kernel.frameLimit
    = {start | (start + pages) * frameSize ≤ 256 * 2 ^ 20 ∧ IsRun b.freeSet start pages} := by
  ext start
  show start % 1 = 0 ∧ start + pages ≤ 256 * 2 ^ 20 / frameSize ∧ IsRun b.freeSet start pages ↔ _
  rw [Nat.le_div_iff_mul_le (by decide)]
  exact ⟨fun h => h.2, fun h => ⟨Nat.mod_one start, h⟩⟩

theorem Sound.runStarts_anywhere (h : b.Sound) (hpages : 0 < pages) :
    b.runStarts pages 1 Word.max = {start | IsRun b.freeSet start pages} := by
  rw [h.runStarts_max hpages]
  ext start
  exact ⟨fun hin => hin.2, fun hin => ⟨Nat.mod_one start, hin⟩⟩

/-- The pool that is taken is the lowest of those that end low, or of all, or there is none. -/
theorem Sound.takePool_fst (h : b.Sound) (hpages : pages ≠ 0) :
    match (b.takePool pages).1 with
    | some start =>
      IsLeast {start | (start + pages) * frameSize ≤ 256 * 2 ^ 20 ∧ IsRun b.freeSet start pages} start
        ∨ ((∀ start, IsRun b.freeSet start pages → ¬ (start + pages) * frameSize ≤ 256 * 2 ^ 20)
          ∧ IsLeast {start | IsRun b.freeSet start pages} start)
    | none => ∀ start, ¬ IsRun b.freeSet start pages := by
  have hpos : 0 < pages := Nat.pos_of_ne_zero hpages
  rw [FrameBitmap.takePool]
  cases hlow : b.takeRun pages 1 Zone.kernel.frameLimit with
  | mk low? b' =>
    cases low? with
    | some start =>
      have hleast := takeRun_some_isLeast h.toWellFormed hpos Nat.one_pos hlow
      rw [runStarts_kernel] at hleast
      exact .inl hleast
    | none =>
      have hnone := takeRun_none_empty h.toWellFormed hpos Nat.one_pos hlow
      rw [runStarts_kernel] at hnone
      have hnoneLow : ∀ start, IsRun b.freeSet start pages →
          ¬ (start + pages) * frameSize ≤ 256 * 2 ^ 20 := fun start hrun hend =>
        Set.notMem_empty start (hnone ▸ ⟨hend, hrun⟩)
      -- the search that failed left the bitmap as it was, so the second one sees the same frames
      rw [takeRun_eq_none hlow]
      simp only
      cases hall : b.takeRun pages 1 Word.max with
      | mk start? b'' =>
        cases start? with
        | some start =>
          have hleast := takeRun_some_isLeast h.toWellFormed hpos Nat.one_pos hall
          rw [h.runStarts_anywhere hpos] at hleast
          exact .inr ⟨hnoneLow, hleast⟩
        | none =>
          have hempty := takeRun_none_empty h.toWellFormed hpos Nat.one_pos hall
          rw [h.runStarts_anywhere hpos] at hempty
          exact fun start hrun => Set.notMem_empty start (hempty ▸ hrun)

/-- The region that is set aside is the one to choose. -/
theorem Sound.poolChosen (h : b.Sound) (pages : Nat) : PoolChosen b.freeSet pages (pool pages b) := by
  unfold pool
  split
  · rename_i hnone
    exact .nowhere (.inl hnone)
  · rename_i hpages
    have htake := h.takePool_fst hpages
    cases hstart : (b.takePool pages).1 with
    | none =>
      rw [hstart] at htake
      exact .nowhere (.inr htake)
    | some start =>
      rw [hstart] at htake
      obtain ⟨-, hend, -⟩ := takePool_eq_some h.toWellFormed
        (Prod.ext hstart rfl : b.takePool pages = (some start, _))
      have haddress : FrameNumber.start start = start * frameSize :=
        FrameNumber.start_eq (Nat.lt_of_le_of_lt
          (Nat.mul_le_mul_right _ (Nat.le_trans (Nat.le_add_right start pages) hend)) h.frames_word)
      rw [Option.map_some, haddress]
      rcases htake with hlow | ⟨hnoneLow, hleast⟩
      · exact .low hpages hlow
      · exact .anywhere hpages hnoneLow hleast

end FrameBitmap

/-! ## The start -/

namespace FrameAllocator

variable {a : FrameAllocator} {map : BootMap} {pages : Nat} {d : Descriptor}

/-- What the first start of an allocator does, where `pages` frames are to be set aside. -/
structure StartsExactly (pages : Nat) (map : BootMap) (d : Descriptor) : Prop where
  starts : (init ⟨pages, none⟩ map d).1 = true
  pool : PoolChosen map.wholeFrames pages (init ⟨pages, none⟩ map d).2.2.1.heap
  /-- Nothing is published exactly where no pool is wanted or there is no room for it. -/
  unpublished : (init ⟨pages, none⟩ map d).2.2.1.heap = none
    ↔ pages = 0 ∨ ∀ start, ¬ IsRun map.wholeFrames start pages
  free : ∀ frame, frame ∈ (init ⟨pages, none⟩ map d).2.1.freeSet ↔ frame ∈ map.wholeFrames
    ∧ ∀ region, (init ⟨pages, none⟩ map d).2.2.1.heap = some region → frame ∉ region.frames
  /-- No step of arithmetic fails. -/
  safe : checkedInit ⟨pages, none⟩ map d = .ok (init ⟨pages, none⟩ map d)
  /-- After any calls, starting again does nothing. -/
  once : ∀ (calls : List FrameCall) (map' : BootMap) (d' : Descriptor),
    let later := (init ⟨pages, none⟩ map d).2.1.run calls
    (later.init map' d').1 = false ∧ (later.init map' d').2.1 = later
      ∧ (later.init map' d').2.2.1 = d'

/-- An allocator that carries a bitmap does not start again. -/
theorem Carries.init_eq {b : FrameBitmap} (h : Carries map a b) (map' : BootMap) (d' : Descriptor) :
    (a.init map' d').1 = false ∧ (a.init map' d').2.1 = a ∧ (a.init map' d').2.2.1 = d' := by
  unfold init
  rw [h.bitmap]
  exact ⟨rfl, rfl, rfl⟩

/-- For every map, and whatever is to be set aside, the first start frees the whole frames of free
regions but for the pool, does not fail, and is the only one. -/
theorem starts_exactly (hwords : map.stop < Word.bound) (hheap : d.heap = none) (pages : Nat) :
    StartsExactly pages map d := by
  have hsound := FrameBitmap.sound_ofMap hwords
  have hpublished : (init ⟨pages, none⟩ map d).2.2.1.heap = pool pages (FrameBitmap.ofMap map) := by
    rw [heap_init, hheap, Option.none_or]
  have hchosen := hsound.poolChosen pages
  rw [FrameBitmap.freeSet_ofMap hwords] at hchosen
  rw [← hpublished] at hchosen
  refine ⟨rfl, hchosen, hchosen.eq_none_iff, fun frame => ?_, checkedInit_eq hwords _ d, ?_⟩
  · rw [hpublished, ← FrameBitmap.freeSet_ofMap hwords]
    exact isFree_donate hsound.toWellFormed hsound.frames_word pages _ frame
  · intro calls map' d'
    obtain ⟨b, hb⟩ := ((Live.started pages d).run calls).carries hwords
    exact hb.init_eq map' d'

/-- Free memory that starts and ends inside frames, and is cut in two by a record between. -/
def adjoiningFree : BootMap :=
  ⟨[⟨0x800, .free, .none⟩, ⟨0x3800, .free, .none⟩, ⟨0x6000, .free, .none⟩,
    ⟨0x8800, .endMarker, .none⟩],
    by decide⟩

/-- Frames 3 and 8 are in no region as a whole, so the lowest run of three frames starts behind
the first. -/
theorem starts_exactly_adjoiningFree :
    adjoiningFree.stop < Word.bound ∧ ({} : Descriptor).heap = none
      ∧ StartsExactly 3 adjoiningFree {}
      ∧ (init ⟨3, none⟩ adjoiningFree {}).2.2.1.heap = some ⟨0x4000, 0x3000⟩
      ∧ (init ⟨3, none⟩ adjoiningFree {}).2.1.available .normal = 3 :=
  ⟨by decide, rfl, starts_exactly (by decide) rfl 3, by decide +kernel, by decide +kernel⟩

end FrameAllocator

end KernelMemory
