/-
  KernelMemory.Proofs.Paging.Bookkeeping — what an arena keeps beside its tables.

  Tables come and go under names and in frames that are both used again.  At all times the index by
  frame, the names free for use, the queue of those that wait and the bitmap of the allocator agree
  with the tables in use.

  Main results:
    * `Sound.exists_removeAll` — what is free once every table is removed;
    * `bookkeeping` — the records in every state.
-/

import KernelMemory.Proofs.Paging.TableUse

namespace KernelMemory

open FrameAllocator Steps

/-- The allocator after a search: the tail may have moved past words that became full. -/
def FrameAllocator.settle (frames : FrameAllocator) : FrameAllocator :=
  { frames with bitmap := frames.bitmap.map FrameBitmap.settle }

/-- Where no frame was to be had, the search alone moved on. -/
theorem FrameAllocator.allocatePage_error_eq {frames frames' : FrameAllocator} {error : FrameError}
    (e : frames.allocatePage = (.error error, frames')) : frames' = frames.settle := by
  obtain ⟨pool, _ | b⟩ := frames
  · cases e
    rfl
  · rw [allocatePage_eq] at e
    obtain ⟨hnone, rfl⟩ := Prod.mk.injEq .. ▸ e
    unfold FrameBitmap.takeLowest at hnone ⊢
    simp only at hnone ⊢
    split
    · rfl
    · rename_i hsome
      rw [hsome] at hnone
      cases hnone

namespace TableSystem

variable {format : Format} {s : TableSystem}

/-! ## The records -/

/-- All tables are gone, and their frames are free with those that were. -/
structure AllReturned (s s' : TableStore) : Prop where
  gone : ∀ id : Nat, s'.arena.get? id = none
  size : s'.arena.size = 0
  free : s'.frames.freeSet = s.frames.freeSet ∪ s.arena.tableFrames
  used : ∀ f ∈ s.arena.tableFrames, f ∉ s.frames.freeSet

/-- How the records of tables agree. -/
structure Bookkept (format : Format) (s : TableSystem) : Prop where
  /-- A table is found in a frame exactly if it is in use there. -/
  found : ∀ frame id : Nat, s.store.arena.find? frame = some id ↔ s.store.arena.frame? id = some frame
  counted : s.store.arena.size = {id : Nat | s.store.arena.get? id ≠ none}.ncard
  known : ∀ id : Nat, s.store.arena.get? id ≠ none → id ∈ s.issued
  /-- Names given out and not in use wait for their next use, each of them once, and no others. -/
  vacant : ∀ id : Nat, s.store.arena.vacant.count id
    = if id ∈ s.issued ∧ s.store.arena.get? id = none then 1 else 0
  apart : ∀ id other frame : Nat, s.store.arena.frame? id = some frame →
    s.store.arena.frame? other = some frame → id = other
  placed : ∀ id frame : Nat, s.store.arena.frame? id = some frame →
    frame % frameSize = 0 ∧ frame / frameSize < s.store.frames.totalPages
      ∧ s.store.frames.isFree (frame / frameSize) = false
  /-- Removing a table that is not in use changes nothing. -/
  ignored : ∀ id : Nat, s.store.arena.get? id = none →
    TableStore.removeTable id s.store = .ok () s.store
  /-- Nor does a table that is refused, but for the place where the next search starts: no frame is
  used or free that was not. -/
  refused : ∀ {level : Nat} {user : Bool} {error : MemoryError} {store : TableStore},
    TableStore.addTable format level user s.store = .error (.refused error) store →
      store = { s.store with frames := s.store.frames.settle }
        ∧ ∀ frame : Nat, store.frames.isFree frame = s.store.frames.isFree frame
  removedAll : ∃ store, TableStore.removeAll s.store = .ok () store ∧ AllReturned s.store store
  /-- Tables that changed since they were written wait to be written. -/
  queued : ∀ id ∈ s.unwritten, s.store.arena.get? id ≠ none ∧ id ∈ s.store.arena.pending

theorem Sound.exists_removeAll (h : Sound format s) :
    ∃ store, TableStore.removeAll s.store = .ok () store ∧ AllReturned s.store store := by
  obtain ⟨⟨⟩, store, e, s₁, hledger, hnone, rfl⟩ := exists_of_ends (TableStore.ends_removeAll
    (P := fun store => Ledger s.stock store.frames store.arena)
    TableStore.ends_removeTable_ledger h.ledger)
  have hempty : ∀ f, f ∉ s₁.arena.tableFrames := by
    rintro f ⟨id, hid⟩
    rw [Arena.frame?, hnone] at hid
    cases hid
  refine ⟨_, e, hnone, ?_, ?_, ?_⟩
  · show s₁.arena.size = 0
    rw [hledger.size_eq]
    simp [hnone]
  · -- frames that are neither free nor held by a client are those of tables
    ext f
    show f ∈ s₁.frames.freeSet ↔ f ∈ s.store.frames.freeSet ∨ f ∈ s.store.arena.tableFrames
    rw [hledger.mem_freeSet_iff, h.ledger.mem_freeSet_iff]
    constructor
    · rintro ⟨hlt, hheld, -⟩
      by_cases htable : f ∈ s.store.arena.tableFrames
      · exact .inr htable
      · exact .inl ⟨hlt, hheld, htable⟩
    · rintro (⟨hlt, hheld, -⟩ | htable)
      · exact ⟨hlt, hheld, hempty f⟩
      · obtain ⟨hlt, -, hheld⟩ := h.ledger.tableFrame htable
        exact ⟨h.ledger.total ▸ hlt, hheld, hempty f⟩
  · exact fun f htable hfree => (h.ledger.mem_freeSet_iff.mp hfree).2.2 htable

/-- In every state of every run the records agree with the tables. -/
theorem bookkeeping (h : Reachable format s) : Bookkept format s := by
  have hsound := h.sound
  have hledger := hsound.ledger
  refine ⟨fun _ _ => hledger.books.find, hledger.size_eq, fun id huse => ?_, fun id => ?_,
    fun _ _ _ => hledger.books.frame_inj, fun id frame hf => ?_,
    fun _ => TableStore.removeTable_eq_self, fun e => ?_, hsound.exists_removeAll, fun id hid => ?_⟩
  · obtain ⟨t, ht⟩ := Option.ne_none_iff_exists'.mp huse
    exact hsound.issued.mpr (Arena.lt_size_of_get? ht)
  · split
    · rename_i hgone
      exact List.count_eq_one_of_mem hledger.books.names.nodup (hsound.vacant hgone.1 hgone.2)
    · rename_i hnot
      refine List.count_eq_zero.mpr fun hin => hnot ?_
      obtain ⟨hlt, hnone⟩ := hledger.books.names.vacant id hin
      exact ⟨hsound.issued.mpr hlt, hnone⟩
  · obtain ⟨hmod, -, hlt, hused, -⟩ := hledger.table hf
    exact ⟨hmod, hlt, hused⟩
  · obtain ⟨cause, hframes, -, hstore⟩ := TableStore.addTable_refused e
    obtain ⟨-, -, hsame, -⟩ := allocatePage_error hledger.allocator hframes
    refine ⟨?_, hsame⟩
    rw [hstore, allocatePage_error_eq hframes]
  · have hd := hsound.changed.mp (hsound.unwritten ▸ hid)
    obtain ⟨t, ht, -⟩ := Option.map_eq_some_iff.mp hd
    exact ⟨by rw [ht]; exact nofun, hledger.books.queued hd⟩

/-- Two tables are added, and the second is removed again. -/
theorem bookkeeping_twoTables : ∃ s, Reachable .narrow s ∧ s.issued = {0, 1}
    ∧ s.store.arena.get? 0 ≠ none ∧ s.store.arena.get? 1 = none ∧ Bookkept .narrow s := by
  have hends : Ends (do
      let root ← TableStore.addTable .narrow 1 false
      let leaf ← TableStore.addTable .narrow 0 true
      TableStore.removeTable leaf
      return (root, leaf)) eightFrames.store
      (fun names store => names = (0, 1) ∧ store.arena.get? 0 ≠ none ∧ store.arena.get? 1 = none)
      (fun _ _ => False) := by decide +kernel
  obtain ⟨names, store, e, hnames, hroot, hleaf⟩ := exists_of_ends hends
  obtain ⟨root, s₁, hadd, e⟩ := bind_eq_ok_iff.mp e
  obtain ⟨leaf, s₂, hadd', e⟩ := bind_eq_ok_iff.mp e
  obtain ⟨⟨⟩, s₃, hremove, e⟩ := bind_eq_ok_iff.mp e
  cases e
  cases hnames
  have hreachable := (((reachable_eightFrames .narrow).step (.added hadd)).step
    (.added hadd')).step (.removed hremove)
  have hissued : (insert 1 (insert 0 ∅) : Finset Nat) = {0, 1} := by decide
  exact ⟨_, hreachable, hissued, hroot, hleaf, bookkeeping hreachable⟩

end TableSystem

end KernelMemory
