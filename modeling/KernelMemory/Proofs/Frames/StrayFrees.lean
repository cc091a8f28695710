/-
  KernelMemory.Proofs.Frames.StrayFrees — frames given back by those who do not hold them.

  The bitmap does not tell a frame that was handed out from one that never could be: giving back
  makes either free.  So a frame that was given back while it was not handed out may be handed
  out later, wherever it lies.  Beside the allocator a history keeps the frames that are handed
  out, and those that were given back while they were not.

  Main results:
    * `Traced.after`, `Traced.run` — free frames and frames handed out are those of the start and
      the strays, and nothing else;
    * `any_calls_answerable` — what a free changes, and what can be handed out, after any calls.
-/

import KernelMemory.Proofs.Frames.Calls

namespace KernelMemory

open FrameAllocator

/-! ## Calls -/

/-- A call of the frame allocator, by whomever. -/
inductive FrameCall where
  | allocate (request : Request)
  /-- Give back a block; a page is a block of order 0. -/
  | free (address : PhysAddr) (order : Nat)
  /-- Start the allocator again. -/
  | init (map : BootMap) (d : Descriptor)

/-- An allocator, and what became of its frames. -/
structure History where
  allocator : FrameAllocator
  /-- Frames handed out and not given back since. -/
  handed : Set Nat := ∅
  /-- Frames that were given back while they were not handed out. -/
  stray : Set Nat := ∅

namespace History

/-- The history after a request was answered. -/
def answered (h : History) (request : Request) :
    Except FrameError PhysAddr × FrameAllocator → History
  | (.ok address, a) => ⟨a, h.handed ∪ (request.blockAt address).frames, h.stray⟩
  | (.error _, a) => ⟨a, h.handed, h.stray⟩

/-- The history after a call. -/
def after (h : History) : FrameCall → History
  | .allocate request => h.answered request (h.allocator.allocate request)
  | .free address order =>
    ⟨(h.allocator.freeBlock address order).2, h.handed \ givenBack address order,
      h.stray ∪ (givenBack address order \ h.handed)⟩
  | .init map d => ⟨(h.allocator.init map d).2.1, h.handed, h.stray⟩

/-- The history after calls made one after another. -/
def run (h : History) (calls : List FrameCall) : History := calls.foldl after h

end History

namespace FrameAllocator

/-! ## Started allocators -/

variable {a a' : FrameAllocator}

/-- A started allocator does not start again. -/
theorem init_of_isInitialized (h : a.isInitialized = true) (map : BootMap) (d : Descriptor) :
    (a.init map d).2.1 = a := by
  obtain ⟨pool, _ | b⟩ := a
  · cases h
  · rfl

theorem isInitialized_allocate (a : FrameAllocator) (request : Request) :
    (a.allocate request).2.isInitialized = a.isInitialized := by
  cases request with
  | page => exact isInitialized_allocatePage a
  | block order zone => exact isInitialized_allocateBlock a order zone

end FrameAllocator

namespace History

/-! ## Where frames come from -/

/-- Where the frames of an allocator that was started as `start` come from. -/
structure Traced (start : FrameAllocator) (h : History) : Prop where
  wellFormed : h.allocator.WellFormed
  pages : h.allocator.totalPages = start.totalPages
  started : h.allocator.isInitialized = true
  apart : ∀ f ∈ h.allocator.freeSet, f ∉ h.handed
  known : h.allocator.freeSet ∪ h.handed
    = start.freeSet ∪ (h.stray ∩ {f | f < start.totalPages})

section

variable {start : FrameAllocator} {h : History}

theorem Traced.initial (hwf : start.WellFormed) (hstarted : start.isInitialized = true) :
    Traced start ⟨start, ∅, ∅⟩ where
  wellFormed := hwf
  pages := rfl
  started := hstarted
  apart := fun f _ => Set.notMem_empty f
  known := by simp

theorem Traced.allocate (ht : Traced start h) (request : Request) :
    Traced start (h.after (.allocate request)) := by
  have hstarted := (isInitialized_allocate h.allocator request).trans ht.started
  show Traced start (h.answered request (h.allocator.allocate request))
  cases hanswer : h.allocator.allocate request with
  | mk result a' =>
    rw [hanswer] at hstarted
    cases result with
    | ok address =>
      have hgranted := allocate_ok ht.wellFormed hanswer
      refine ⟨hgranted.wellFormed, hgranted.pages.trans ht.pages, hstarted, ?_, ?_⟩
      · show ∀ f ∈ a'.freeSet, f ∉ h.handed ∪ (request.blockAt address).frames
        rw [hgranted.left]
        intro f hf hhanded
        exact hhanded.elim (ht.apart f hf.1) hf.2
      · show a'.freeSet ∪ (h.handed ∪ (request.blockAt address).frames)
          = start.freeSet ∪ (h.stray ∩ {f | f < start.totalPages})
        -- the frames only move from the one set to the other
        rw [← ht.known, hgranted.left, Set.union_comm h.handed, ← Set.union_assoc,
          Set.sdiff_union_of_subset hgranted.free]
    | error error =>
      obtain ⟨hwf, hpages, hfree⟩ := allocate_error ht.wellFormed hanswer
      refine ⟨hwf, hpages.trans ht.pages, hstarted, ?_, ?_⟩
      · show ∀ f ∈ a'.freeSet, f ∉ h.handed
        rw [hfree]
        exact ht.apart
      · show a'.freeSet ∪ h.handed = _
        rw [hfree]
        exact ht.known

theorem Traced.free (ht : Traced start h) (address order : Nat) :
    Traced start (h.after (.free address order)) := by
  obtain ⟨hwf, hpages⟩ := freeBlock_wellFormed ht.wellFormed address order
  have hstarted := (isInitialized_freeBlock h.allocator address order).trans ht.started
  have hfree : (h.allocator.freeBlock address order).2.freeSet
      = h.allocator.freeSet ∪ {f | f ∈ givenBack address order ∧ f < start.totalPages} := by
    rw [freeSet_freeBlock ht.wellFormed, ht.pages]
  have hknown : ∀ f, f ∈ h.allocator.freeSet ∨ f ∈ h.handed
      ↔ f ∈ start.freeSet ∨ (f ∈ h.stray ∧ f < start.totalPages) := Set.ext_iff.mp ht.known
  have hlt : ∀ f, f ∈ start.freeSet → f < start.totalPages := fun f hf => lt_totalPages hf
  refine ⟨hwf, hpages.trans ht.pages, hstarted, ?_, ?_⟩
  · show ∀ f ∈ (h.allocator.freeBlock address order).2.freeSet,
      f ∉ h.handed \ givenBack address order
    rw [hfree]
    intro f hf hhanded
    rcases hf with hf | ⟨hf, -⟩
    · exact ht.apart f hf hhanded.1
    · exact hhanded.2 hf
  · show (h.allocator.freeBlock address order).2.freeSet ∪ (h.handed \ givenBack address order)
      = start.freeSet ∪ ((h.stray ∪ (givenBack address order \ h.handed))
          ∩ {f | f < start.totalPages})
    rw [hfree]
    ext f
    have hf := hknown f
    have hexists := hlt f
    simp only [Set.mem_union, Set.mem_sdiff, Set.mem_inter_iff, Set.mem_ofPred_eq]
    by_cases hback : f ∈ givenBack address order
    · by_cases hhanded : f ∈ h.handed
      · grind
      · grind
    · grind

theorem Traced.after (ht : Traced start h) (call : FrameCall) : Traced start (h.after call) := by
  cases call with
  | allocate request => exact ht.allocate request
  | free address order => exact ht.free address order
  | init map d =>
    show Traced start ⟨(h.allocator.init map d).2.1, h.handed, h.stray⟩
    rw [init_of_isInitialized ht.started]
    exact ht

theorem Traced.run (ht : Traced start h) (calls : List FrameCall) :
    Traced start (h.run calls) := by
  induction calls generalizing h with
  | nil => exact ht
  | cons call calls ih => exact ih (ht.after call)

end

/-! ## What can be handed out -/

/-- Whether a frame is there to be handed out: a region of the map offers it, and it was not set
aside. -/
def Provided (map : BootMap) (heap : Option MemoryRegion) (frame : Nat) : Prop :=
  (∃ region ∈ map.regions, region.Offers frame)
    ∧ ∀ region, heap = some region → frame ∉ region.frames

/-- What giving back changes, and what can be handed out. -/
structure Answerable (map : BootMap) (heap : Option MemoryRegion) (h : History) : Prop where
  /-- A block that is given back becomes free as far as it exists, whatever its frames are. -/
  freed : ∀ address order frame, frame ∈ (h.allocator.freeBlock address order).2.freeSet
    ↔ frame ∈ h.allocator.freeSet
      ∨ (frame ∈ givenBack address order ∧ frame < map.stop / frameSize)
  /-- A frame that was neither free nor handed out is not there to be handed out. -/
  kept : ∀ frame, frame ≠ 0 → frame < map.stop / frameSize → frame ∉ h.allocator.freeSet →
    frame ∉ h.handed → ¬ Provided map heap frame
  /-- A frame that is handed out is not frame 0, it exists, and it is there to be handed out or
  was given back while it was not handed out. -/
  granted : ∀ request address a', h.allocator.allocate request = (.ok address, a') →
    ∀ frame ∈ (request.blockAt address).frames, frame ≠ 0 ∧ frame < map.stop / frameSize
      ∧ (Provided map heap frame ∨ frame ∈ h.stray)

/-- After any calls whatever, frames become free when they are given back whether they were
handed out or not; what is handed out comes from the map, but for frames given back like that. -/
theorem any_calls_answerable {pages : Nat} {map : BootMap} (hwords : map.stop < Word.bound)
    {d : Descriptor} (hheap : d.heap = none) (calls : List FrameCall) :
    Answerable map (init ⟨pages, none⟩ map d).2.2.1.heap
      (run ⟨(init ⟨pages, none⟩ map d).2.1, ∅, ∅⟩ calls) := by
  have hwf := (init_wellFormed (wellFormed_unstarted pages) hwords d).1
  have htraced := (Traced.initial hwf rfl).run calls
  have hpages := htraced.pages.trans (totalPages_init hwords d)
  rw [heap_init, hheap, Option.none_or]
  refine ⟨fun address order frame => ?_, fun frame hne hlt hfree hhanded hprovided => ?_, ?_⟩
  · rw [freeSet_freeBlock htraced.wellFormed, hpages]
    rfl
  · -- it would have been free at the start
    have hfirst : frame ∈ (init ⟨pages, none⟩ map d).2.1.freeSet :=
      (mem_freeSet_init hwords d frame).mpr ⟨⟨hne, hlt, hprovided.1⟩, hprovided.2⟩
    have hknown := htraced.known.symm.subset (.inl hfirst)
    exact hknown.elim hfree hhanded
  · intro request address a' hanswer frame hframe
    have hfree := (allocate_ok htraced.wellFormed hanswer).free hframe
    have hlt : frame < map.stop / frameSize := hpages ▸ lt_totalPages hfree
    refine ⟨ne_zero_of_isFree htraced.wellFormed hfree, hlt, ?_⟩
    rcases htraced.known.subset (.inl hfree) with hfirst | ⟨hstray, -⟩
    · obtain ⟨⟨-, -, hoffers⟩, hpool⟩ := (mem_freeSet_init hwords d frame).mp hfirst
      exact .inl ⟨hoffers, hpool⟩
    · exact .inr hstray

/-- Two frames of reserved memory, then four of free memory. -/
def reservedLow : BootMap :=
  ⟨[⟨0, .reserved, .none⟩, ⟨0x2000, .free, .none⟩, ⟨0x6000, .endMarker, .none⟩], by decide⟩

theorem any_calls_answerable_reservedLow :
    reservedLow.stop < Word.bound ∧ ({} : Descriptor).heap = none
      ∧ Answerable reservedLow (init ⟨1, none⟩ reservedLow {}).2.2.1.heap
          (run ⟨(init ⟨1, none⟩ reservedLow {}).2.1, ∅, ∅⟩ [.free 0x1000 0, .allocate .page]) :=
  ⟨by decide, rfl, any_calls_answerable (by decide) rfl [.free 0x1000 0, .allocate .page]⟩

/-- A frame of reserved memory, and the one that was set aside, are given back by someone who
does not hold them.  Both are handed out next. -/
theorem stray_frees_handed_out :
    let start := (init ⟨1, none⟩ reservedLow {}).2.1
    (∀ region ∈ reservedLow.regions, ¬ region.Offers 1)
      ∧ (init ⟨1, none⟩ reservedLow {}).2.2.1.heap = some ⟨0x2000, 0x1000⟩
      ∧ start.isFree 1 = false ∧ (start.freeBlock 0x1000 0).2.isFree 1 = true
      ∧ ((run ⟨start, ∅, ∅⟩ [.free 0x1000 0]).allocator.allocate .page).1 = .ok 0x1000
      ∧ start.isFree 2 = false ∧ (start.freeBlock 0x2000 0).2.isFree 2 = true
      ∧ ((run ⟨start, ∅, ∅⟩ [.free 0x2000 0]).allocator.allocate .page).1 = .ok 0x2000 := by
  refine ⟨fun region hregion hoffers => ?_, ?_⟩
  · obtain ⟨hkind, hlow, -⟩ := hoffers
    have hregions : reservedLow.regions
        = [⟨⟨0, 0x2000⟩, .reserved, .none⟩, ⟨⟨0x2000, 0x4000⟩, .free, .none⟩] := by decide
    rw [hregions] at hregion
    simp only [List.mem_cons, List.not_mem_nil, or_false] at hregion
    -- the first region is not free, and the frame is before the second
    rcases hregion with heq | heq
    · rw [heq] at hkind
      cases hkind
    · rw [heq] at hlow
      exact hlow (by decide)
  · decide +kernel

end History

end KernelMemory
