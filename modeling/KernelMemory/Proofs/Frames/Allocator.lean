/-
  KernelMemory.Proofs.Frames.Allocator — what the allocator does to the set of free frames.

  The view of an allocator is `isFree`; before it is started no frame is free.  Every frame
  handed out was free, and a frame given back becomes free if it exists.

  Main results:
    * `allocatePage_ok`, `allocateBlock_ok` — frames handed out, and nothing else, stop
      being free;
    * `isFree_freeBlock` — frames given back, and nothing else, become free;
    * `init_wellFormed` — a started allocator is well formed and never has frame 0 free.
-/

import Mathlib.Data.Set.Basic
import Mathlib.Order.Interval.Finset.Nat
import KernelMemory.Proofs.Frames.Bitmap

namespace KernelMemory

namespace FrameAllocator

/-- Whether a frame can be handed out. -/
def isFree (a : FrameAllocator) (frame : Nat) : Bool :=
  match a.bitmap with
  | some b => b.isFree frame
  | none => false

/-- What every operation keeps of an allocator. -/
structure WellFormed (a : FrameAllocator) : Prop where
  bitmap : ∀ b, a.bitmap = some b → b.WellFormed
  null : a.isFree 0 = false
  word : a.totalPages * frameSize < Word.bound

@[simp] theorem isFree_mk_some (pool : Nat) (b : FrameBitmap) (frame : Nat) :
    isFree ⟨pool, some b⟩ frame = b.isFree frame := rfl

@[simp] theorem isFree_mk_none (pool frame : Nat) : isFree ⟨pool, none⟩ frame = false := rfl

@[simp] theorem totalPages_mk_some (pool : Nat) (b : FrameBitmap) :
    totalPages ⟨pool, some b⟩ = b.frames := rfl

@[simp] theorem totalPages_mk_none (pool : Nat) : totalPages ⟨pool, none⟩ = 0 := rfl

theorem totalPages_of_not_initialized {a : FrameAllocator} (h : a.isInitialized = false) :
    a.totalPages = 0 := by
  obtain ⟨pool, _ | b⟩ := a
  · rfl
  · cases h

/-- Handing out and taking back leaves an allocator started or not. -/
theorem isInitialized_allocatePage (a : FrameAllocator) :
    a.allocatePage.2.isInitialized = a.isInitialized := by
  unfold allocatePage
  split
  · rfl
  · split <;> rfl

theorem isInitialized_allocateBlock (a : FrameAllocator) (order : Nat) (zone : Zone) :
    (a.allocateBlock order zone).2.isInitialized = a.isInitialized := by
  unfold allocateBlock
  split
  · rfl
  · split
    · rfl
    · split <;> rfl

theorem isInitialized_freeBlock (a : FrameAllocator) (address order : Nat) :
    (a.freeBlock address order).2.isInitialized = a.isInitialized := by
  unfold freeBlock
  split
  · rfl
  · split <;> rfl

theorem wellFormed_unstarted (pool : Nat) : WellFormed ⟨pool, none⟩ :=
  ⟨fun b h => (by cases h), rfl, by simp⟩

/-- The frames that are free. -/
def freeSet (a : FrameAllocator) : Set Nat := {frame | a.isFree frame = true}

theorem lt_totalPages {a : FrameAllocator} {frame : Nat} (h : a.isFree frame = true) :
    frame < a.totalPages := by
  obtain ⟨pool, _ | b⟩ := a
  · simp at h
  · exact FrameBitmap.lt_of_isFree h

theorem ne_zero_of_isFree {a : FrameAllocator} (ha : a.WellFormed) {frame : Nat}
    (h : a.isFree frame = true) : frame ≠ 0 := by
  rintro rfl; rw [ha.null] at h; cases h

theorem finite_freeSet (a : FrameAllocator) : a.freeSet.Finite :=
  (Set.finite_lt_nat a.totalPages).subset fun _ h => lt_totalPages h

/-- Every frame is below the ceiling of the normal zone, so all that are free are available. -/
theorem available_normal {a : FrameAllocator} (ha : a.WellFormed) :
    a.available .normal = a.freeSet.ncard := by
  obtain ⟨pool, _ | b⟩ := a
  · show 0 = Set.ncard {frame : Nat | false = true}
    simp
  · have hword : b.frames * frameSize < Word.bound := ha.word
    have hlimit : b.frames ≤ Zone.normal.frameLimit := by
      show b.frames ≤ Word.max / frameSize
      rw [Nat.le_div_iff_mul_le (by decide)]
      exact Nat.le_of_lt_succ hword
    show b.freeBelow Zone.normal.frameLimit = b.freeSet.ncard
    unfold FrameBitmap.freeBelow
    rw [if_pos hlimit]
    exact (ha.bitmap b rfl).counted

theorem exists_isFree {a : FrameAllocator} (ha : a.WellFormed) (h : 0 < a.available .normal) :
    ∃ frame, a.isFree frame = true := by
  rw [available_normal ha] at h
  exact Set.nonempty_of_ncard_ne_zero (Nat.ne_of_gt h)

theorem available_eq_zero_iff {a : FrameAllocator} (ha : a.WellFormed) :
    a.available .normal = 0 ↔ ∀ frame : Nat, a.isFree frame = false := by
  rw [available_normal ha, Set.ncard_eq_zero (finite_freeSet a), Set.eq_empty_iff_forall_notMem]
  exact forall_congr' fun frame => Bool.not_eq_true _ ▸ Iff.rfl

/-- A frame that exists starts at a word. -/
theorem start_of_lt {a : FrameAllocator} (ha : a.WellFormed) {frame : Nat}
    (h : frame < a.totalPages) : FrameNumber.start frame = frame * frameSize := by
  refine FrameNumber.start_eq ?_
  show frame * frameSize < Word.bound
  exact Nat.lt_of_le_of_lt (Nat.mul_le_mul_right _ (Nat.le_of_lt h)) ha.word

/-! ## Handing out -/

/-- A page handed out is the start of a frame that was free, and is not free any more. -/
theorem allocatePage_ok {a a' : FrameAllocator} (ha : a.WellFormed) {address : Nat}
    (e : a.allocatePage = (.ok address, a')) :
    ∃ frame : Nat, address = frame * frameSize ∧ a.isFree frame = true ∧ a'.WellFormed
      ∧ a'.totalPages = a.totalPages
      ∧ ∀ other : Nat, a'.isFree other = (a.isFree other && decide (other ≠ frame)) := by
  obtain ⟨pool, _ | b⟩ := a
  · simp [allocatePage] at e
  · have hb : b.WellFormed := ha.bitmap b rfl
    simp only [allocatePage] at e
    split at e
    · rename_i frame b' htake
      obtain ⟨haddr, rfl⟩ := Prod.mk.injEq .. ▸ e
      obtain ⟨hfree, hb', hframes, hview⟩ := FrameBitmap.takeLowest_eq_some hb htake
      have hstart := start_of_lt ha (lt_totalPages (a := ⟨pool, some b⟩) hfree)
      injection haddr with haddr
      refine ⟨frame, haddr.symm.trans hstart, hfree, ⟨fun _ h => ?_, ?_, ?_⟩, hframes, hview⟩
      · cases h; exact hb'
      · rw [isFree_mk_some, hview]; have := ha.null; simp_all
      · have := ha.word; simp_all
    · simp at e

/-- No frame below the page was free. -/
theorem allocatePage_le {a a' : FrameAllocator} (ha : a.WellFormed) {address : Nat}
    (e : a.allocatePage = (.ok address, a')) {other : Nat} (hother : a.isFree other = true) :
    address ≤ other * frameSize := by
  obtain ⟨pool, _ | b⟩ := a
  · simp [allocatePage] at e
  · have hb : b.WellFormed := ha.bitmap b rfl
    simp only [allocatePage] at e
    split at e
    · rename_i frame b' htake
      obtain ⟨haddr, -⟩ := Prod.mk.injEq .. ▸ e
      obtain ⟨hfree, -⟩ := FrameBitmap.takeLowest_eq_some hb htake
      have hstart := start_of_lt ha (lt_totalPages (a := ⟨pool, some b⟩) hfree)
      injection haddr with haddr
      rw [← haddr, hstart]
      exact Nat.mul_le_mul_right _ (FrameBitmap.takeLowest_le hb htake hother)
    · simp at e

/-- A page is refused only when no frame is free. -/
theorem allocatePage_error {a a' : FrameAllocator} (ha : a.WellFormed) {error : FrameError}
    (e : a.allocatePage = (.error error, a')) :
    a'.WellFormed ∧ a'.totalPages = a.totalPages
      ∧ (∀ other : Nat, a'.isFree other = a.isFree other)
      ∧ ∀ other : Nat, a.isFree other = false := by
  obtain ⟨pool, _ | b⟩ := a
  · simp only [allocatePage] at e
    obtain ⟨-, rfl⟩ := Prod.mk.injEq .. ▸ e
    exact ⟨ha, rfl, fun _ => rfl, fun _ => rfl⟩
  · have hb : b.WellFormed := ha.bitmap b rfl
    simp only [allocatePage] at e
    split at e
    · simp at e
    · rename_i b' htake
      obtain ⟨-, rfl⟩ := Prod.mk.injEq .. ▸ e
      obtain ⟨hb', hframes, hview, hnone⟩ := FrameBitmap.takeLowest_eq_none hb htake
      refine ⟨⟨fun _ h => ?_, ?_, ?_⟩, hframes, hview, hnone⟩
      · cases h; exact hb'
      · rw [isFree_mk_some, hview]; exact ha.null
      · have := ha.word; simp_all

/-- Every frame of a block handed out was free, and none of them is any more. -/
theorem allocateBlock_ok {a a' : FrameAllocator} (ha : a.WellFormed) {order address : Nat}
    {zone : Zone} (e : a.allocateBlock order zone = (.ok address, a')) :
    ∃ frame : Nat, address = frame * frameSize
      ∧ (∀ other : Nat, frame ≤ other → other < frame + 2 ^ order → a.isFree other = true)
      ∧ a'.WellFormed ∧ a'.totalPages = a.totalPages
      ∧ ∀ other : Nat, a'.isFree other = true
          ↔ a.isFree other = true ∧ ¬ (frame ≤ other ∧ other < frame + 2 ^ order) := by
  unfold allocateBlock at e
  split at e
  · simp at e
  · obtain ⟨pool, _ | b⟩ := a
    · simp at e
    · have hb : b.WellFormed := ha.bitmap b rfl
      simp only at e
      split at e
      · rename_i frame b' htake
        obtain ⟨haddr, rfl⟩ := Prod.mk.injEq .. ▸ e
        obtain ⟨hfree, hb', hframes, hview⟩ := FrameBitmap.takeRun_eq_some hb htake
        have hpos : 0 < 2 ^ order := Nat.two_pow_pos order
        have hstart := start_of_lt ha
          (lt_totalPages (a := ⟨pool, some b⟩) (hfree frame (by omega) (by omega)))
        injection haddr with haddr
        refine ⟨frame, haddr.symm.trans hstart, hfree, ⟨fun _ h => ?_, ?_, ?_⟩, hframes, hview⟩
        · cases h; exact hb'
        · have hnull := ha.null
          rw [isFree_mk_some] at hnull ⊢
          rw [← Bool.not_eq_true, hview, hnull]
          simp
        · have := ha.word; simp_all
      · simp at e

theorem allocateBlock_error {a a' : FrameAllocator} {order : Nat} {zone : Zone}
    {error : FrameError} (e : a.allocateBlock order zone = (.error error, a')) : a' = a := by
  unfold allocateBlock at e
  split at e
  · exact (Prod.mk.injEq .. ▸ e).2.symm
  · obtain ⟨pool, _ | b⟩ := a
    · exact (Prod.mk.injEq .. ▸ e).2.symm
    · simp only at e
      split at e
      · simp at e
      · rename_i b' htake
        obtain ⟨-, rfl⟩ := Prod.mk.injEq .. ▸ e
        rw [FrameBitmap.takeRun_eq_none htake]

/-- While a frame is free, a page is handed out. -/
theorem exists_allocatePage {a : FrameAllocator} (ha : a.WellFormed) {frame : Nat}
    (hfree : a.isFree frame = true) : ∃ address a', a.allocatePage = (.ok address, a') := by
  cases hresult : a.allocatePage with
  | mk result a' =>
    cases result with
    | ok address => exact ⟨address, a', rfl⟩
    | error error =>
      obtain ⟨-, -, -, hnone⟩ := allocatePage_error ha hresult
      rw [hnone frame] at hfree
      cases hfree

/-- Handing out a page takes one frame from those that are available. -/
theorem available_of_allocatePage {a a' : FrameAllocator} (ha : a.WellFormed) {address : Nat}
    (e : a.allocatePage = (.ok address, a')) :
    a.available .normal = a'.available .normal + 1 := by
  obtain ⟨frame, -, hfree, hwf, -, hview⟩ := allocatePage_ok ha e
  have hmem : frame ∈ a.freeSet := hfree
  rw [available_normal ha, available_normal hwf]
  have hset : a'.freeSet = a.freeSet \ {frame} := by
    ext other
    show a'.isFree other = true ↔ a.isFree other = true ∧ other ≠ frame
    rw [hview, Bool.and_eq_true, decide_eq_true_eq]
  rw [hset, Set.ncard_sdiff_singleton_add_one hmem (finite_freeSet a)]

/-- Where a page is refused, no frame is available, and a started allocator says so. -/
theorem available_of_allocatePage_error {a a' : FrameAllocator} (ha : a.WellFormed)
    {error : FrameError} (e : a.allocatePage = (.error error, a')) :
    a.available .normal = 0 ∧ (error = .outOfMemory ∨ a.isInitialized = false) := by
  obtain ⟨-, -, -, hnone⟩ := allocatePage_error ha e
  refine ⟨(available_eq_zero_iff ha).mpr hnone, ?_⟩
  obtain ⟨pool, _ | b⟩ := a
  · exact .inr rfl
  · simp only [allocatePage] at e
    split at e
    · cases e
    · injection e with herror
      injection herror with herror
      exact .inl herror.symm

/-- What a started allocator refuses a page for. -/
theorem outOfMemory_of_allocatePage {a : FrameAllocator} (ha : a.WellFormed)
    (initialized : a.isInitialized = true) {error : FrameError}
    (e : a.allocatePage.1 = .error error) : error = .outOfMemory ∧ a.available .normal = 0 := by
  have hpair : a.allocatePage = (.error error, a.allocatePage.2) := by rw [← e]
  obtain ⟨hnone, hmemory⟩ := available_of_allocatePage_error ha hpair
  refine ⟨hmemory.resolve_right ?_, hnone⟩
  rw [initialized]
  decide

/-! ## Giving back -/

/-- Whether a block with this address and order is looked at when it is given back. -/
def accepts (address order : Nat) : Prop :=
  address ≠ 0 ∧ order ≤ maxOrder ∧ address % frameSize = 0

/-- The frames of a block. -/
def block (address order : Nat) : Set Nat :=
  {f | address / frameSize ≤ f ∧ f < address / frameSize + 2 ^ order}

/-- The frames that are given back with a block; none if it is not looked at. -/
def givenBack (address order : Nat) : Set Nat := {f | accepts address order ∧ f ∈ block address order}

theorem mem_block_page {frame f : Nat} : f ∈ block (frame * frameSize) 0 ↔ f = frame := by
  rw [block, Set.mem_ofPred_eq, Nat.mul_div_cancel _ (by decide)]
  omega

/-- A page handed out was free. -/
theorem block_subset_of_allocatePage {a a' : FrameAllocator} (ha : a.WellFormed) {address : Nat}
    (e : a.allocatePage = (.ok address, a')) : block address 0 ⊆ a.freeSet := by
  obtain ⟨frame, rfl, hfree, -⟩ := allocatePage_ok ha e
  intro f hf
  rw [mem_block_page.mp hf]
  exact hfree

/-- A block handed out was free. -/
theorem block_subset_of_allocateBlock {a a' : FrameAllocator} (ha : a.WellFormed)
    {order address : Nat} {zone : Zone} (e : a.allocateBlock order zone = (.ok address, a')) :
    block address order ⊆ a.freeSet := by
  obtain ⟨frame, rfl, hfree, -⟩ := allocateBlock_ok ha e
  intro f hf
  rw [block, Set.mem_ofPred_eq, Nat.mul_div_cancel _ (by decide)] at hf
  exact hfree f hf.1 hf.2

theorem freeBlock_wellFormed {a : FrameAllocator} (ha : a.WellFormed) (address order : Nat) :
    (a.freeBlock address order).2.WellFormed
      ∧ (a.freeBlock address order).2.totalPages = a.totalPages := by
  unfold freeBlock
  split
  · exact ⟨ha, rfl⟩
  · rename_i haccept
    obtain ⟨pool, _ | b⟩ := a
    · exact ⟨ha, rfl⟩
    · have hb : b.WellFormed := ha.bitmap b rfl
      refine ⟨⟨fun _ h => ?_, ?_, ?_⟩, FrameBitmap.frames_markRangeFree _ _ _⟩
      · cases h; exact hb.markRangeFree _ _
      · -- an accepted address is not null, so its frame is not frame 0
        have hnull := ha.null
        rw [isFree_mk_some] at hnull ⊢
        rw [← Bool.not_eq_true, FrameBitmap.isFree_markRangeFree hb, hnull]
        simp only [Bool.or_eq_true, decide_eq_true_eq, bne_iff_ne, ne_eq, not_or,
          Decidable.not_not, PhysAddr.frame, frameSize] at haccept ⊢
        refine ⟨by simp, fun hin => ?_⟩
        have hne : address ≠ 0 := haccept.1.1
        have hmod : address % 4096 = 0 := haccept.2
        omega
      · have := ha.word; simpa using this

/-- A block given back makes those of its frames free that exist. -/
theorem isFree_freeBlock {a : FrameAllocator} (ha : a.WellFormed) (address order other : Nat) :
    (a.freeBlock address order).2.isFree other = true
      ↔ a.isFree other = true ∨ (accepts address order ∧ address / frameSize ≤ other
          ∧ other < address / frameSize + 2 ^ order ∧ other < a.totalPages) := by
  unfold freeBlock accepts
  split
  · rename_i hskip
    simp only [Bool.or_eq_true, decide_eq_true_eq, bne_iff_ne, ne_eq] at hskip
    constructor
    · exact .inl
    · rintro (hfree | ⟨⟨hne, horder, hmod⟩, -⟩)
      · exact hfree
      · rcases hskip with (hnull | hlarge) | hunaligned
        · exact absurd hnull hne
        · exact absurd horder (Nat.not_le.mpr hlarge)
        · exact absurd hmod hunaligned
  · rename_i haccept
    simp only [Bool.or_eq_true, decide_eq_true_eq, bne_iff_ne, ne_eq, not_or,
      Decidable.not_not, Nat.not_lt] at haccept
    obtain ⟨pool, _ | b⟩ := a
    · simp
    · simp only [isFree_mk_some, totalPages_mk_some]
      rw [FrameBitmap.isFree_markRangeFree (ha.bitmap b rfl), PhysAddr.frame]
      constructor
      · rintro (hfree | hin)
        · exact .inl hfree
        · exact .inr ⟨⟨haccept.1.1, haccept.1.2, haccept.2⟩, hin⟩
      · rintro (hfree | ⟨-, hin⟩)
        · exact .inl hfree
        · exact .inr hin

end FrameAllocator

/-! ## Starting -/

/-- Whether a region gives the allocator a frame: it is free, and the frame neither starts before
the region nor ends after it. -/
def BootRegion.Offers (region : BootRegion) (frame : Nat) : Prop :=
  region.kind = .free ∧ ¬ frame * frameSize < region.base
    ∧ ¬ region.stop < (frame + 1) * frameSize

namespace FrameBitmap

@[simp] theorem frames_releaseRegion (b : FrameBitmap) (region : BootRegion) :
    (b.releaseRegion region).frames = b.frames := by
  unfold releaseRegion
  split
  · exact frames_markRangeFree _ _ _
  · rfl

theorem WellFormed.releaseRegion {b : FrameBitmap} (h : b.WellFormed) (region : BootRegion) :
    (b.releaseRegion region).WellFormed := by
  unfold FrameBitmap.releaseRegion
  split
  · exact h.markRangeFree _ _
  · exact h

theorem bit_allUsed (frames frame : Nat) : (allUsed frames).bit frame = true := by
  have hplace : frame % 64 < 64 := Nat.mod_lt _ (by omega)
  simp only [bit, allUsed, Array.getD_eq_getD_getElem?, Array.getElem?_replicate]
  split <;> simpa using testBit_full hplace

theorem wellFormed_allUsed (frames : Nat) : (allUsed frames).WellFormed where
  size := by simp [allUsed]
  word_lt := fun i w h => by
    simp only [allUsed, Array.getElem?_replicate] at h
    split at h
    · injection h with h
      subst h
      decide
    · cases h
  padding := fun frame _ => bit_allUsed frames frame
  tail := fun frame _ => bit_allUsed frames frame
  counted := by
    have hempty : (allUsed frames).freeSet = ∅ := by
      refine Set.eq_empty_of_forall_notMem fun frame hfree => ?_
      have hfree : (allUsed frames).isFree frame = true := hfree
      rw [isFree_eq, bit_allUsed] at hfree
      simp at hfree
    rw [hempty, Set.ncard_empty]
    rfl

theorem foldl_releaseRegion {b : FrameBitmap} (h : b.WellFormed) (regions : List BootRegion) :
    (regions.foldl FrameBitmap.releaseRegion b).WellFormed
      ∧ (regions.foldl FrameBitmap.releaseRegion b).frames = b.frames := by
  induction regions generalizing b with
  | nil => exact ⟨h, rfl⟩
  | cons region rest ih =>
    obtain ⟨hwf, hframes⟩ := ih (h.releaseRegion region)
    exact ⟨hwf, hframes.trans (frames_releaseRegion b region)⟩

/-- Releasing a region makes the frames free that it offers and that exist. -/
theorem isFree_releaseRegion {b : FrameBitmap} (h : b.WellFormed) {region : BootRegion}
    (hstop : region.stop < Word.bound) (frame : Nat) :
    (b.releaseRegion region).isFree frame = true
      ↔ b.isFree frame = true ∨ (region.Offers frame ∧ frame < b.frames) := by
  unfold FrameBitmap.releaseRegion BootRegion.Offers
  by_cases hkind : region.kind = .free
  · rw [if_pos hkind]
    rw [isFree_markRangeFree h]
    unfold floorTo Word.saturatingAdd
    simp only [frameSize]
    -- rounding up leaves the word only where no whole frame follows
    have hmax : Word.max + 1 = 4096 * 2 ^ 52 := rfl
    have hstop : region.stop < Word.max + 1 := hstop
    constructor
    · intro hin
      rcases hin with hfree | hin
      · exact .inl hfree
      · refine .inr ⟨⟨hkind, ?_, ?_⟩, ?_⟩
        all_goals omega
    · intro hin
      rcases hin with hfree | ⟨⟨-, hlow, hhigh⟩, hlt⟩
      · exact .inl hfree
      · exact .inr (by omega)
  · rw [if_neg hkind]
    constructor
    · exact fun hfree => .inl hfree
    · intro hin
      rcases hin with hfree | ⟨⟨hfree, -⟩, -⟩
      · exact hfree
      · exact absurd hfree hkind

theorem isFree_foldl_releaseRegion {b : FrameBitmap} (h : b.WellFormed)
    {regions : List BootRegion} (hstop : ∀ region ∈ regions, region.stop < Word.bound)
    (frame : Nat) :
    (regions.foldl FrameBitmap.releaseRegion b).isFree frame = true
      ↔ b.isFree frame = true ∨ ((∃ region ∈ regions, region.Offers frame) ∧ frame < b.frames) := by
  induction regions generalizing b with
  | nil => simp
  | cons region rest ih =>
    have hrest : ∀ other ∈ rest, other.stop < Word.bound :=
      fun other hother => hstop other (List.mem_cons_of_mem region hother)
    rw [List.foldl_cons, ih (h.releaseRegion region) hrest,
      isFree_releaseRegion h (hstop region List.mem_cons_self), frames_releaseRegion]
    simp only [List.mem_cons, exists_eq_or_imp]
    constructor
    · rintro ((hfree | hin) | hin)
      · exact .inl hfree
      · exact .inr ⟨.inl hin.1, hin.2⟩
      · exact .inr ⟨.inr hin.1, hin.2⟩
    · rintro (hfree | ⟨hin | hin, hlt⟩)
      · exact .inl (.inl hfree)
      · exact .inl (.inr ⟨hin, hlt⟩)
      · exact .inr ⟨hin, hlt⟩

theorem ofMap_wellFormed (map : BootMap) :
    (ofMap map).WellFormed ∧ (ofMap map).frames = map.stop / frameSize
      ∧ (ofMap map).isFree 0 = false := by
  obtain ⟨hwf, hframes⟩ :=
    foldl_releaseRegion (wellFormed_allUsed (map.stop / frameSize)) map.regions
  refine ⟨(hwf.markUsed 0).settle, ?_, ?_⟩
  · simp only [ofMap, frames_settle, frames_markUsed, hframes]; rfl
  · rw [ofMap, isFree_settle, isFree_markUsed hwf]; simp

/-- After the start the free frames are those that regions offer, but for frame 0. -/
theorem isFree_ofMap {map : BootMap} (hstop : ∀ region ∈ map.regions, region.stop < Word.bound)
    (frame : Nat) :
    (ofMap map).isFree frame = true
      ↔ frame ≠ 0 ∧ frame < map.stop / frameSize ∧ ∃ region ∈ map.regions, region.Offers frame := by
  have hall := wellFormed_allUsed (map.stop / frameSize)
  obtain ⟨hwf, -⟩ := foldl_releaseRegion hall map.regions
  have hused : (allUsed (map.stop / frameSize)).isFree frame = false := by
    rw [isFree_eq, bit_allUsed]
    simp
  rw [ofMap, isFree_settle, isFree_markUsed hwf, Bool.and_eq_true,
    isFree_foldl_releaseRegion hall hstop, hused]
  show (false = true ∨ _ ∧ frame < map.stop / frameSize) ∧ _ ↔ _
  rw [decide_eq_true_eq]
  constructor
  · rintro ⟨hfalse | ⟨hin, hlt⟩, hne⟩
    · cases hfalse
    · exact ⟨hne, hlt, hin⟩
  · rintro ⟨hne, hlt, hin⟩
    exact ⟨.inr ⟨hin, hlt⟩, hne⟩

/-! ## The pool -/

/-- Every frame of a pool taken was free, and no other frame changes. -/
theorem takePool_eq_some {b b' : FrameBitmap} (h : b.WellFormed) {pages start : Nat}
    (e : b.takePool pages = (some start, b')) :
    (∀ frame : Nat, start ≤ frame → frame < start + pages → b.isFree frame = true)
      ∧ start + pages ≤ b.frames ∧ b'.WellFormed ∧ b'.frames = b.frames
      ∧ ∀ other : Nat, b'.isFree other = true
          ↔ b.isFree other = true ∧ ¬ (start ≤ other ∧ other < start + pages) := by
  unfold takePool at e
  -- a pool is a run below the kernel limit or, where there is none, any run
  split at e
  · rename_i low b1 hlow
    obtain ⟨hstart, rfl⟩ := Prod.mk.injEq .. ▸ e
    injection hstart with hstart
    subst hstart
    obtain ⟨hfree, hwf, hframes, hview⟩ := takeRun_eq_some h hlow
    exact ⟨hfree, (takeRun_place hlow).2.2, hwf, hframes, hview⟩
  · rename_i b1 hnone
    rw [takeRun_eq_none hnone] at e
    obtain ⟨hfree, hwf, hframes, hview⟩ := takeRun_eq_some h e
    exact ⟨hfree, (takeRun_place e).2.2, hwf, hframes, hview⟩

theorem takePool_eq_none {b b' : FrameBitmap} {pages : Nat}
    (e : b.takePool pages = (none, b')) : b' = b := by
  unfold takePool at e
  split at e
  · simp at e
  · rename_i b1 hnone
    rw [takeRun_eq_none hnone] at e
    exact takeRun_eq_none e

end FrameBitmap

/-- The first kernel image that a map tells of. -/
def BootMap.image? (map : BootMap) : Option MemoryRegion :=
  (map.regions.find? (·.kind == .kernelImage)).map BootRegion.region

namespace FrameAllocator

/-- Setting the pool aside takes free frames only. -/
theorem donate_wellFormed (pages : Nat) {b : FrameBitmap} (h : b.WellFormed) (d : Descriptor) :
    (donate pages b d).1.WellFormed ∧ (donate pages b d).1.frames = b.frames
      ∧ ∀ frame : Nat, (donate pages b d).1.isFree frame = true → b.isFree frame = true := by
  unfold donate
  split
  · exact ⟨h, rfl, fun _ => id⟩
  · split
    · rename_i start b' htake
      obtain ⟨-, -, hwf, hframes, hview⟩ := FrameBitmap.takePool_eq_some h htake
      exact ⟨hwf, hframes, fun frame hf => ((hview frame).mp hf).1⟩
    · rename_i b' htake
      rw [FrameBitmap.takePool_eq_none htake]
      exact ⟨h, rfl, fun _ => id⟩

/-- A pool set aside is published as the heap, and nothing else is. -/
theorem kernelImage_donate (pages : Nat) (b : FrameBitmap) (d : Descriptor) :
    (donate pages b d).2.1.kernelImage = d.kernelImage := by
  unfold donate
  split
  · rfl
  · split <;> rfl

theorem kernelImage_foldl (regions : List BootRegion) (d : Descriptor) :
    (regions.foldl Descriptor.noteRegion d).kernelImage
      = d.kernelImage.or ((regions.find? (·.kind == .kernelImage)).map BootRegion.region) := by
  induction regions generalizing d with
  | nil => simp
  | cons region rest ih =>
    rw [List.foldl_cons, ih, List.find?_cons]
    unfold Descriptor.noteRegion
    split
    · rename_i hkind
      simp [hkind, Descriptor.publishKernelImage]
    · rename_i hkind
      rw [hkind]
      rfl
    · rename_i hkind _
      rw [show (region.kind == .kernelImage) = false by simpa using hkind]

/-- Starting publishes the kernel image of the map, unless one is published already. -/
theorem kernelImage_init {a : FrameAllocator} (h : a.bitmap = none) (map : BootMap)
    (d : Descriptor) : (a.init map d).2.2.1.kernelImage = d.kernelImage.or map.image? := by
  unfold init
  rw [h]
  simp only
  rw [kernelImage_donate, kernelImage_foldl]
  rfl

/-- Starting keeps an allocator well formed; one that was started already stays as it is. -/
theorem init_wellFormed {a : FrameAllocator} (ha : a.WellFormed) {map : BootMap}
    (hmap : map.stop < Word.bound) (d : Descriptor) :
    (a.init map d).2.1.WellFormed
      ∧ ((a.init map d).2.1 = a
        ∨ (a.bitmap = none ∧ (a.init map d).2.1.totalPages = map.stop / frameSize)) := by
  obtain ⟨pool, _ | b⟩ := a
  · obtain ⟨hwf, hframes, hnull⟩ := FrameBitmap.ofMap_wellFormed map
    obtain ⟨hwf', hframes', hview⟩ := donate_wellFormed pool hwf
      (map.regions.foldl Descriptor.noteRegion d)
    -- frame 0 is marked as used at the end, and the pool only takes more
    refine ⟨⟨fun _ h => ?_, ?_, ?_⟩, .inr ⟨rfl, hframes'.trans hframes⟩⟩
    · cases h; exact hwf'
    · cases hfree : (donate pool (FrameBitmap.ofMap map)
          (map.regions.foldl Descriptor.noteRegion d)).1.isFree 0 with
      | false => exact hfree
      | true => rw [hview 0 hfree] at hnull; cases hnull
    · show (donate pool (FrameBitmap.ofMap map)
          (map.regions.foldl Descriptor.noteRegion d)).1.frames * frameSize < Word.bound
      rw [hframes', hframes]
      exact Nat.lt_of_le_of_lt (Nat.div_mul_le_self _ _) hmap
  · exact ⟨ha, .inl rfl⟩

/-- Without a pool to set aside, the frames of the map are free after the start. -/
theorem isFree_init (map : BootMap) (d : Descriptor) (frame : Nat) :
    (init ⟨0, none⟩ map d).2.1.isFree frame = (FrameBitmap.ofMap map).isFree frame := rfl

/-- So all frames are available that a region offers. -/
theorem le_available_init {map : BootMap} (hmap : map.stop < Word.bound)
    (hstop : ∀ region ∈ map.regions, region.stop < Word.bound) {region : BootRegion}
    (hregion : region ∈ map.regions) {low high : Nat} (hlow : 0 < low)
    (hhigh : high ≤ map.stop / frameSize)
    (hoffers : ∀ frame, low ≤ frame → frame < high → region.Offers frame) (d : Descriptor) :
    high - low ≤ (init ⟨0, none⟩ map d).2.1.available .normal := by
  have hwf : (init ⟨0, none⟩ map d).2.1.WellFormed :=
    (init_wellFormed (wellFormed_unstarted 0) hmap d).1
  have hsubset : ((Finset.Ico low high : Finset Nat) : Set Nat)
      ⊆ (init ⟨0, none⟩ map d).2.1.freeSet := by
    intro frame hframe
    obtain ⟨hle, hlt⟩ := Finset.mem_Ico.mp (Finset.mem_coe.mp hframe)
    show (init ⟨0, none⟩ map d).2.1.isFree frame = true
    rw [isFree_init, FrameBitmap.isFree_ofMap hstop]
    exact ⟨by omega, by omega, region, hregion, hoffers frame hle hlt⟩
  rw [available_normal hwf]
  have hcard := Set.ncard_le_ncard hsubset (finite_freeSet _)
  rwa [Set.ncard_coe_finset, Nat.card_Ico] at hcard

end FrameAllocator

end KernelMemory
