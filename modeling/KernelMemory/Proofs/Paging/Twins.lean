/-
  KernelMemory.Proofs.Paging.Twins — what the allocator and the tables do hangs on free frames alone.

  The bitmap remembers where it looked last, and the log grows.  Neither tells in what is done next:
  frames are handed out lowest first, so two allocators with the same free frames hand out the same
  ones, and tables are made, mapped and removed alike.  Only what was in the log before differs.

  Main results:
    * `Twin.allocatePage`, `Twin.freeBlock` — allocators with the same free frames;
    * `respected_twin`, `lockstep_removeAll` — mapping and removing tables on such stores.
-/

import KernelMemory.Proofs.Frames.Allocator
import KernelMemory.Proofs.Paging.Following

namespace KernelMemory

open Steps

/-! ## Allocators -/

namespace FrameAllocator

variable {a b : FrameAllocator}

/-- Two allocators in order with the same free frames. -/
structure Twin (a b : FrameAllocator) : Prop where
  left : a.WellFormed
  right : b.WellFormed
  initialized : b.isInitialized = a.isInitialized
  pages : b.totalPages = a.totalPages
  free : ∀ f, b.isFree f = a.isFree f

/-- Why a page is refused is told by whether the allocator was started. -/
theorem error_of_allocatePage {error : FrameError} (e : a.allocatePage.1 = .error error) :
    error = if a.isInitialized then .outOfMemory else .notInitialized := by
  obtain ⟨pool, _ | bitmap⟩ := a
  · cases e
    rfl
  · simp only [allocatePage] at e
    split at e
    · cases e
    · cases e
      rfl

/-- The same page is handed out, as it is the lowest one that is free, or none by both. -/
theorem Twin.fst_allocatePage (h : Twin a b) : b.allocatePage.1 = a.allocatePage.1 := by
  cases ha : a.allocatePage with
  | mk left a' =>
    cases hb : b.allocatePage with
    | mk right b' =>
      cases left with
      | ok address =>
        obtain ⟨f, hf, hfree, -⟩ := allocatePage_ok h.left ha
        cases right with
        | ok address' =>
          obtain ⟨f', hf', hfree', -⟩ := allocatePage_ok h.right hb
          have hle := allocatePage_le h.left ha ((h.free f').symm.trans hfree')
          have hle' := allocatePage_le h.right hb ((h.free f).trans hfree)
          rw [← hf'] at hle
          rw [← hf] at hle'
          rw [Nat.le_antisymm hle' hle]
        | error error =>
          obtain ⟨-, -, -, hnone⟩ := allocatePage_error h.right hb
          rw [← h.free, hnone] at hfree
          cases hfree
      | error error =>
        cases right with
        | ok address' =>
          obtain ⟨f', -, hfree', -⟩ := allocatePage_ok h.right hb
          obtain ⟨-, -, -, hnone⟩ := allocatePage_error h.left ha
          rw [h.free, hnone] at hfree'
          cases hfree'
        | error error' =>
          have herror : error = _ := error_of_allocatePage (by rw [ha])
          have herror' : error' = _ := error_of_allocatePage (by rw [hb])
          rw [herror', h.initialized, ← herror]

theorem Twin.allocatePage (h : Twin a b) : Twin a.allocatePage.2 b.allocatePage.2 := by
  have hinit : b.allocatePage.2.isInitialized = a.allocatePage.2.isInitialized := by
    rw [isInitialized_allocatePage, isInitialized_allocatePage, h.initialized]
  have hsame := h.fst_allocatePage
  cases ha : a.allocatePage with
  | mk left a' =>
    cases hb : b.allocatePage with
    | mk right b' =>
      rw [ha, hb] at hsame hinit
      have hsame : right = left := hsame
      subst hsame
      cases right with
      | ok address =>
        obtain ⟨f, hf, -, hwf, hpages, hview⟩ := allocatePage_ok h.left ha
        obtain ⟨f', hf', -, hwf', hpages', hview'⟩ := allocatePage_ok h.right hb
        have heq : f' = f := by
          rw [hf] at hf'
          exact (Nat.eq_of_mul_eq_mul_right (by decide) hf').symm
        refine ⟨hwf, hwf', hinit, ?_, fun g => ?_⟩
        · rw [hpages', hpages, h.pages]
        · rw [hview', hview, h.free, heq]
      | error error =>
        obtain ⟨hwf, hpages, hview, -⟩ := allocatePage_error h.left ha
        obtain ⟨hwf', hpages', hview', -⟩ := allocatePage_error h.right hb
        refine ⟨hwf, hwf', hinit, ?_, fun g => ?_⟩
        · rw [hpages', hpages, h.pages]
        · rw [hview', hview, h.free]

theorem Twin.freeBlock (h : Twin a b) (address order : Nat) :
    Twin (a.freeBlock address order).2 (b.freeBlock address order).2 := by
  obtain ⟨hwf, hpages⟩ := freeBlock_wellFormed h.left address order
  obtain ⟨hwf', hpages'⟩ := freeBlock_wellFormed h.right address order
  refine ⟨hwf, hwf', ?_, ?_, fun f => ?_⟩
  · rw [isInitialized_freeBlock, isInitialized_freeBlock, h.initialized]
  · rw [hpages', hpages, h.pages]
  · rw [Bool.eq_iff_iff, isFree_freeBlock h.right, isFree_freeBlock h.left, h.free, h.pages]

/-- The number of free frames that is kept is that of the free frames there are. -/
theorem Twin.count_eq {pool pool' : Nat} {bitmap bitmap' : FrameBitmap}
    (h : Twin ⟨pool, some bitmap⟩ ⟨pool', some bitmap'⟩) : bitmap'.free = bitmap.free := by
  rw [(h.left.bitmap bitmap rfl).counted, (h.right.bitmap bitmap' rfl).counted]
  congr 1
  ext f
  exact Bool.eq_iff_iff.mp (h.free f)

/-- As many frames become free. -/
theorem Twin.fst_freeBlock (h : Twin a b) (address order : Nat) :
    (b.freeBlock address order).1 = (a.freeBlock address order).1 := by
  have hafter := h.freeBlock address order
  unfold FrameAllocator.freeBlock at hafter ⊢
  split
  · rfl
  · rename_i haccept
    rw [if_neg haccept, if_neg haccept] at hafter
    obtain ⟨pool, _ | bitmap⟩ := a
    · obtain ⟨pool', _ | bitmap'⟩ := b
      · rfl
      · have hinit := h.initialized
        cases hinit
    · obtain ⟨pool', _ | bitmap'⟩ := b
      · have hinit := h.initialized
        cases hinit
      · simp only at hafter ⊢
        rw [h.count_eq, hafter.count_eq]

end FrameAllocator

/-! ## Stores -/

namespace TableStore

/-- Two stores with the same tables and the same free frames, to whose logs the same records were
added since they were `base` and `base'`. -/
structure Twin (base base' : Array LogRecord) (s t : TableStore) : Prop where
  frames : FrameAllocator.Twin s.frames t.frames
  arena : t.arena = s.arena
  log : ∃ records, s.log = base ++ records ∧ t.log = base' ++ records

variable {base base' : Array LogRecord} {s t : TableStore}

/-- Stores are twins from the logs on that they have. -/
theorem Twin.start (frames : FrameAllocator.Twin s.frames t.frames) (arena : t.arena = s.arena) :
    Twin s.log t.log s t :=
  ⟨frames, arena, #[], (Array.append_empty).symm, (Array.append_empty).symm⟩

theorem lockstep_write (level : LogLevel) (text : String) :
    Lockstep (Twin base base') (write level text) := by
  apply lockstep_modify
  intro s t h
  obtain ⟨records, hs, ht⟩ := h.log
  refine ⟨h.frames, h.arena, records.push ⟨level, text⟩, ?_, ?_⟩
  · show s.log.push _ = _
    rw [hs, Array.append_push]
  · show t.log.push _ = _
    rw [ht, Array.append_push]

theorem lockstep_allocatePage : Lockstep (Twin base base') allocatePage := by
  unfold allocatePage
  refine (lockstep_modifyGet fun s t h => ?_).bind fun result => ?_
  · exact ⟨h.frames.fst_allocatePage, h.frames.allocatePage, h.arena, h.log⟩
  · cases result with
    | ok address => exact (lockstep_write _ _).bind fun _ => lockstep_pure _
    | error error => exact (lockstep_pure _).bind fun _ => lockstep_pure _

theorem lockstep_freePage (address : PhysAddr) : Lockstep (Twin base base') (freePage address) := by
  unfold freePage freeBlock
  refine (lockstep_modifyGet fun s t h => ?_).bind fun freed => ?_
  · exact ⟨h.frames.fst_freeBlock address 0, h.frames.freeBlock address 0, h.arena, h.log⟩
  · cases freed with
    | some count => exact lockstep_write _ _
    | none => exact lockstep_pure _

theorem lockstep_slot (id index : Nat) : Lockstep (Twin base base') (slot id index) := by
  intro s t h
  unfold slot
  rw [h.arena]
  cases s.arena.slot id index with
  | ok x => exact ⟨rfl, h⟩
  | error fault => exact ⟨rfl, h⟩

theorem lockstep_table (id : TableId) : Lockstep (Twin base base') (table id) := by
  intro s t h
  unfold table
  rw [h.arena]
  cases s.arena.table id with
  | ok x => exact ⟨rfl, h⟩
  | error fault => exact ⟨rfl, h⟩

theorem lockstep_setSlot (id index : Nat) (x : Slot) :
    Lockstep (Twin base base') (setSlot id index x) := by
  intro s t h
  unfold setSlot
  rw [h.arena]
  cases s.arena.slotProblem id index with
  | some fault => exact ⟨rfl, h⟩
  | none => exact ⟨rfl, h.frames, rfl, h.log⟩

theorem lockstep_addTable (format : Format) (level : Nat) (user : Bool) :
    Lockstep (Twin base base') (addTable format level user) := by
  unfold addTable
  split
  · apply lockstep_allocatePage.bind
    intro result
    cases result with
    | error error => exact lockstep_refuse _
    | ok frame =>
      refine (lockstep_modifyGet fun s t h => ?_).bind fun id =>
        (lockstep_write _ _).bind fun _ => lockstep_pure _
      exact ⟨by rw [h.arena], h.frames, by rw [h.arena], h.log⟩
  · exact lockstep_stop _

theorem lockstep_removeTable (id : TableId) : Lockstep (Twin base base') (removeTable id) := by
  unfold removeTable
  refine (lockstep_modifyGet fun s t h => ?_).bind fun frame => ?_
  · exact ⟨by rw [h.arena], h.frames, by rw [h.arena], h.log⟩
  · cases frame with
    | some address => exact lockstep_freePage address
    | none => exact lockstep_pure _

theorem lockstep_removeFrom : ∀ {count id : Nat}, Lockstep (Twin base base') (removeFrom id count) := by
  intro count
  induction count with
  | zero => intro id; exact lockstep_pure _
  | succ count ih => intro id; exact (lockstep_removeTable id).bind fun _ => ih

theorem lockstep_removeAll : Lockstep (Twin base base') removeAll := by
  unfold removeAll
  refine lockstep_get (fun s t h => by rw [h.arena]) fun s => lockstep_removeFrom.bind fun _ => ?_
  exact lockstep_modify fun s t h => ⟨h.frames, by rw [h.arena], h.log⟩

/-- Mapping ranges leaves twins twins. -/
theorem respected_twin : Respected (fun _ => False) (Twin base base') where
  write := fun _ _ => (lockstep_write _ _).follows
  slot := fun _ _ => (lockstep_slot _ _).follows
  setSlot := fun _ _ _ => (lockstep_setSlot _ _ _).follows
  addTable := fun _ _ _ => (lockstep_addTable _ _ _).follows

end TableStore

end KernelMemory
