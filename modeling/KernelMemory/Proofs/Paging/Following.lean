/-
  KernelMemory.Proofs.Paging.Following — mapping a range where there is more room.

  The walk reads and writes slots, makes tables and writes to the log, and does nothing else to the
  store.  So of two stores that stay related by these operations, the one follows the other when a
  range is mapped (`Respected`).  One such relation is that of a store to a roomier one: the same
  tables, whatever frames they are in, and no fewer free frames.  What can be mapped in the former
  can be mapped in the latter, and is seen there alike.

  Main results:
    * `Respected.mapRange` — the walk, for any such relation;
    * `respected_roomier` — tables in other frames;
    * `Parallel.lookup` — what is looked up in them.
-/

import KernelMemory.Paging.Walk
import KernelMemory.Proofs.Lockstep
import KernelMemory.Proofs.Paging.Edits

namespace KernelMemory

open Steps

/-! ## The walk -/

namespace TableStore

/-- A relation between stores that the operations of the walk keep, but for failures of the first run
that are excused. -/
structure Respected (excused : Failure → Prop) (R : TableStore → TableStore → Prop) : Prop where
  write : ∀ level text, Follows excused R (write level text)
  slot : ∀ id index, Follows excused R (slot id index)
  setSlot : ∀ id index x, Follows excused R (setSlot id index x)
  addTable : ∀ format level user, Follows excused R (addTable format level user)

variable {excused : Failure → Prop} {R : TableStore → TableStore → Prop} {format : Format}
  {request : MapRequest}

namespace Respected

open Walk

theorem descend (h : Respected excused R) {virt phys target : Nat} : ∀ {steps id : Nat},
    Follows excused R (descend format request virt phys target steps id) := by
  intro steps
  induction steps with
  | zero => intro id; exact (lockstep_pure _).follows
  | succ steps ih =>
    intro id
    rw [Walk.descend]
    apply (h.slot _ _).bind
    intro x
    cases x with
    | table child => exact ih
    | leaf mapping => exact (lockstep_refuse _).follows
    | empty =>
      simp only
      split
      · exact (lockstep_refuse _).follows
      · exact (h.addTable _ _ _).bind fun _ => (h.setSlot _ _ _).bind fun _ => ih
    | large existing =>
      apply (lockstep_lift _).follows.bind
      intro expected
      split
      · exact (lockstep_pure _).follows
      · exact (h.write _ _).bind fun _ => (lockstep_refuse _).follows

theorem remap (h : Respected excused R) {virt phys target id index : Nat} {existing : Mapping} :
    Follows excused R (remap request virt phys target id index existing) := by
  unfold Walk.remap
  split
  · exact (h.write _ _).bind fun _ => (lockstep_refuse _).follows
  · split
    · exact (lockstep_pure _).follows
    · exact (h.setSlot _ _ _).bind fun _ => (lockstep_pure _).follows

theorem install (h : Respected excused R) {virt phys target id : Nat} :
    Follows excused R (install format request virt phys target id) := by
  unfold Walk.install
  apply (h.slot _ _).bind
  intro x
  cases x with
  | empty =>
    simp only
    split
    · exact (lockstep_refuse _).follows
    · exact (h.setSlot _ _ _).bind fun _ => (lockstep_pure _).follows
  | table child => exact (lockstep_pure _).follows
  | leaf existing => exact h.remap.bind fun _ => (lockstep_pure _).follows
  | large existing => exact h.remap.bind fun _ => (lockstep_pure _).follows

theorem mapPage (h : Respected excused R) {virt phys target : Nat} :
    Follows excused R (mapPage format request virt phys target) := by
  unfold Walk.mapPage
  apply h.descend.bind
  intro descent
  cases descent with
  | covered => exact (lockstep_pure _).follows
  | reached id => exact h.install

theorem mapNext (h : Respected excused R) {virt phys remaining : Nat} :
    Follows excused R (mapNext format request virt phys remaining) := by
  -- where no large page is mapped, a small one is
  unfold Walk.mapNext
  split
  · exact h.mapPage.bind_option (fun _ => (lockstep_pure _).follows)
      (h.mapPage.bind_option (fun _ => (lockstep_pure _).follows) (lockstep_stop _).follows)
  · exact (lockstep_pure none).follows.bind_option (fun _ => (lockstep_pure _).follows)
      (h.mapPage.bind_option (fun _ => (lockstep_pure _).follows) (lockstep_stop _).follows)

theorem mapPages (h : Respected excused R) :
    ∀ {rounds virt phys remaining : Nat} {summary : MapSummary},
      Follows excused R (mapPages format request rounds virt phys remaining summary) := by
  intro rounds
  induction rounds with
  | zero => intro virt phys remaining summary; exact (lockstep_pure _).follows
  | succ rounds ih =>
    intro virt phys remaining summary
    rw [Walk.mapPages]
    split
    · exact (lockstep_pure _).follows
    · apply h.mapNext.bind
      intro done
      simp only
      split
      · exact (lockstep_pure _).follows
      · exact (lockstep_lift _).follows.bind fun _ => (lockstep_lift _).follows.bind fun _ => ih

theorem mapRange (h : Respected excused R) : Follows excused R (mapRange format request) := by
  unfold Walk.mapRange
  split
  · exact (lockstep_refuse _).follows
  · rename_i virt phys length _
    split
    · generalize Word.add phys frameSize = next
      exact (lockstep_lift next).follows.bind fun _ => h.mapPages
    · exact h.mapPages

end Respected

end TableStore

/-! ## Tables in other frames -/

namespace Arena

/-- The same tables under the same names, but for the frames they are in and what waits to be
written. -/
structure Parallel (a b : Arena) : Prop where
  size : b.tables.size = a.tables.size
  vacant : b.vacant = a.vacant
  slots : ∀ id, (b.get? id).map Table.slots = (a.get? id).map Table.slots

variable {a b : Arena}

theorem Parallel.refl (a : Arena) : Parallel a a := ⟨rfl, rfl, fun _ => rfl⟩

theorem Parallel.slot? (h : Parallel a b) (id index : Nat) : b.slot? id index = a.slot? id index := by
  have hslots := congrArg (Option.bind · fun slots => slots[index]?) (h.slots id)
  simp only [Option.bind_map] at hslots
  exact hslots

theorem Parallel.slot (h : Parallel a b) (id index : Nat) : b.slot id index = a.slot id index := by
  have hslots := h.slots id
  unfold Arena.slot
  cases ha : a.get? id with
  | none =>
    rw [ha, Option.map_none, Option.map_eq_none_iff] at hslots
    rw [hslots]
  | some t =>
    rw [ha, Option.map_some, Option.map_eq_some_iff] at hslots
    obtain ⟨t', ht', heq⟩ := hslots
    rw [ht']
    simp only [heq]

theorem Parallel.slotProblem (h : Parallel a b) (id index : Nat) :
    b.slotProblem id index = a.slotProblem id index := by
  have hsizes : (b.get? id).map (fun t => t.slots.size) = (a.get? id).map fun t => t.slots.size := by
    have hslots := congrArg (Option.map Array.size) (h.slots id)
    rwa [Option.map_map, Option.map_map] at hslots
  unfold Arena.slotProblem
  rw [h.size, hsizes]

/-- What is looked up is the same. -/
theorem Parallel.lookup (h : Parallel a b) (format : Format) (v : Nat) : ∀ steps id,
    b.lookup format v steps id = a.lookup format v steps id := by
  intro steps
  induction steps with
  | zero => intro id; rfl
  | succ level ih => intro id; simp only [Arena.lookup, h.slot?, ih]

theorem Parallel.names (h : Parallel a b) (names : a.Names) : b.Names where
  nodup := by rw [h.vacant]; exact names.nodup
  vacant := fun id hid => by
    rw [h.vacant] at hid
    obtain ⟨hlt, hnone⟩ := names.vacant id hid
    have hslots := h.slots id
    rw [hnone, Option.map_none, Option.map_eq_none_iff] at hslots
    exact ⟨by rw [h.size]; exact hlt, hslots⟩

theorem Parallel.put (h : Parallel a b) (id index : Nat) (x : Slot) :
    Parallel (a.put id index x) (b.put id index x) where
  size := by rw [size_put, size_put, h.size]
  vacant := by rw [vacant_put, vacant_put, h.vacant]
  slots := fun other => by
    rw [get?_put, get?_put]
    split
    · have hslots := congrArg (Option.map fun slots => slots.setIfInBounds index x) (h.slots id)
      rw [Option.map_map, Option.map_map] at hslots ⊢
      exact hslots
    · exact h.slots other

theorem Parallel.fst_add (h : Parallel a b) (t t' : Table) : (b.add t').1 = (a.add t).1 := by
  rw [Arena.fst_add, Arena.fst_add, h.vacant, h.size]

theorem Parallel.add (h : Parallel a b) (names : a.Names) {t t' : Table} (slots : t'.slots = t.slots) :
    Parallel (a.add t).2 (b.add t').2 where
  size := by
    unfold Arena.add
    rw [h.vacant]
    split
    · simp [place, h.size, apply_ite Array.size]
    · simp [place, h.size]
  vacant := by
    unfold Arena.add
    rw [h.vacant]
    split
    · simp [place]
    · simp [place, h.vacant]
  slots := fun other => by
    rw [get?_add (h.names names), get?_add names, h.fst_add t t']
    split
    · exact congrArg some slots
    · exact h.slots other

end Arena

namespace TableStore

/-- A store in order, and another one with the same tables, where no fewer frames are free. -/
structure Roomier (s t : TableStore) : Prop where
  names : s.arena.Names
  arena : s.arena.Parallel t.arena
  left : s.frames.WellFormed
  right : t.frames.WellFormed
  initialized : s.frames.isInitialized = true
  room : s.frames.available .normal ≤ t.frames.available .normal

variable {s s' t : TableStore}

/-- There was no frame for a table. -/
def Exhausted (failure : Failure) : Prop := failure = .refused .outOfMemory

/-- What is logged does not matter. -/
theorem Roomier.same {t' : TableStore} (h : Roomier s t) (same : s.Same s') (same' : t.Same t') :
    Roomier s' t' := by
  obtain ⟨names, arena, left, right, initialized, room⟩ := h
  rw [← same.arena] at names arena
  rw [← same'.arena] at arena
  rw [← same.frames] at left initialized room
  rw [← same'.frames] at right room
  exact ⟨names, arena, left, right, initialized, room⟩

theorem follows_slot (id index : Nat) : Follows Exhausted Roomier (slot id index) := by
  intro s t h
  unfold slot
  rw [h.arena.slot]
  cases s.arena.slot id index with
  | ok x => exact ⟨rfl, h⟩
  | error fault => exact .inr ⟨rfl, h⟩

theorem follows_setSlot (id index : Nat) (x : Slot) :
    Follows Exhausted Roomier (setSlot id index x) := by
  intro s t h
  unfold setSlot
  rw [h.arena.slotProblem]
  cases s.arena.slotProblem id index with
  | some fault => exact .inr ⟨rfl, h⟩
  | none => exact ⟨rfl, h.names.put _ _ _, h.arena.put _ _ _, h.left, h.right, h.initialized, h.room⟩

/-- The roomier store has a frame for a table if the other has. -/
theorem follows_addTable (format : Format) (level : Nat) (user : Bool) :
    Follows Exhausted Roomier (addTable format level user) := by
  by_cases hlevel : level < format.levels
  · intro s t h
    have hends : ∀ r : TableStore, Ends (addTable format level user) r
        (fun id r' => ∃ frame, r.frames.allocatePage = (.ok frame, r'.frames)
          ∧ r'.arena = (r.arena.add (.blank frame level user format.entries)).2
          ∧ id = (r.arena.add (.blank frame level user format.entries)).1)
        (onRefusal fun e r' => ∃ error, r.frames.allocatePage = (.error error, r'.frames)
          ∧ e = .ofFrameError error) := fun r =>
      ends_addTable hlevel (fun frame _ hframes harena => ⟨frame, hframes, harena, rfl⟩)
        fun error _ hframes _ => ⟨error, hframes, rfl⟩
    cases hs : addTable format level user s with
    | ok id s' =>
      obtain ⟨frame, hframes, harena, rfl⟩ := (hends s).of_ok hs
      have hspent := FrameAllocator.available_of_allocatePage h.left hframes
      obtain ⟨-, -, -, hwf, -⟩ := FrameAllocator.allocatePage_ok h.left hframes
      have hinit := FrameAllocator.isInitialized_allocatePage s.frames
      rw [hframes, h.initialized] at hinit
      cases ht : addTable format level user t with
      | ok id' t' =>
        obtain ⟨frame', hframes', harena', rfl⟩ := (hends t).of_ok ht
        have hspent' := FrameAllocator.available_of_allocatePage h.right hframes'
        obtain ⟨-, -, -, hwf', -⟩ := FrameAllocator.allocatePage_ok h.right hframes'
        have hroom := h.room
        refine ⟨h.arena.fst_add _ _, ?_, ?_, hwf, hwf', hinit, by omega⟩
        · rw [harena]
          exact h.names.add _
        · rw [harena, harena']
          exact h.arena.add h.names rfl
      | error failure t' =>
        have hfailed := (hends t).of_error ht
        cases failure with
        | fault fault => exact hfailed.elim
        | refused error =>
          obtain ⟨error', hframes', -⟩ := hfailed
          obtain ⟨hnone, -⟩ := FrameAllocator.available_of_allocatePage_error h.right hframes'
          have hroom := h.room
          omega
    | error failure s' =>
      have hfailed := (hends s).of_error hs
      cases failure with
      | fault fault => exact hfailed.elim
      | refused error =>
        obtain ⟨error', hframes, rfl⟩ := hfailed
        obtain ⟨-, hmemory⟩ := FrameAllocator.available_of_allocatePage_error h.left hframes
        obtain rfl := hmemory.resolve_right (by simp [h.initialized])
        have hexhausted : Exhausted (.refused (.ofFrameError .outOfMemory)) := rfl
        cases addTable format level user t with
        | ok id' t' => exact hexhausted
        | error failure t' => exact .inl hexhausted
  · unfold addTable
    rw [if_neg hlevel]
    exact (lockstep_stop _).follows

/-- A roomier store stays so, as long as there are frames. -/
theorem respected_roomier : Respected Exhausted Roomier where
  write := fun _ _ => (lockstep_modify fun _ _ h => ⟨h.names, h.arena, h.left, h.right, h.initialized,
    h.room⟩).follows
  slot := follows_slot
  setSlot := follows_setSlot
  addTable := follows_addTable

end TableStore

end KernelMemory
