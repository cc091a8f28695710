/-
  KernelMemory.Proofs.Paging.TableUse — tables in use by anyone, in any order.

  Tables are added, changed and removed by names that may be in use, free again or unknown, and the
  waiting ones are written at any time; other clients take frames, and give back those they hold.
  Beside the tables a system keeps what became of them: which names were given out, which tables
  changed since they were written, and which were removed before they could be.

  Main results:
    * `Ledger.after` — what a call of another client keeps;
    * `Sound.step`, `Reachable.sound` — what each step keeps, and so every run.
-/

import Mathlib.Data.Finset.Basic
import KernelMemory.Proofs.Frames.Clients
import KernelMemory.Proofs.Frames.Live
import KernelMemory.Proofs.Paging.Commit

namespace KernelMemory

open FrameAllocator Steps

/-! ## Clients -/

/-- What is asked of a client: the addresses of a boot map are words, and frames that are given
back are held. -/
def FrameCall.Permitted (held : Set Nat) : FrameCall → Prop
  | .allocate _ => True
  | .free address order => givenBack address order ⊆ held
  | .init map _ => map.stop < Word.bound

/-- Frames held after a call.  When the allocator starts, somebody holds each of its frames that is
not free. -/
def Stock.after (stock : Stock) (frames : FrameAllocator) : FrameCall → Stock
  | .allocate request =>
    match (frames.allocate request).1 with
    | .ok address => ⟨stock.held ∪ (request.blockAt address).frames, stock.total⟩
    | .error _ => stock
  | .free address order => ⟨stock.held \ givenBack address order, stock.total⟩
  | .init map d => if frames.isInitialized then stock else (frames.init map d).2.1.inUse

theorem Ledger.after {stock : Stock} {frames : FrameAllocator} {a : Arena} {call : FrameCall}
    (h : Ledger stock frames a) (permitted : call.Permitted stock.held) :
    Ledger (stock.after frames call) (frames.after call) a := by
  cases call with
  | allocate request =>
    rw [Stock.after, FrameAllocator.after]
    cases hanswer : frames.allocate request with
    | mk result frames' =>
      cases result with
      | ok address =>
        have hgranted := allocate_ok h.allocator hanswer
        exact h.handOut hgranted.wellFormed hgranted.pages hgranted.free (Set.ext_iff.mp hgranted.left)
      | error error =>
        obtain ⟨hwf, hpages, hfree⟩ := allocate_error h.allocator hanswer
        -- a search that found nothing hands out no frames
        have hkept : Ledger ⟨stock.held ∪ ∅, stock.total⟩ frames' a :=
          h.handOut hwf hpages (Set.empty_subset _) fun f =>
            (Set.ext_iff.mp hfree f).trans (by simp; rfl)
        rwa [Set.union_empty] at hkept
  | free address order => exact h.giveBack permitted
  | init map d =>
    rw [Stock.after, FrameAllocator.after]
    cases hstarted : frames.isInitialized with
    | true =>
      -- a second start does nothing
      rw [init_of_isInitialized hstarted, if_pos rfl]
      exact h
    | false =>
      rw [if_neg Bool.false_ne_true]
      exact h.started (totalPages_of_not_initialized hstarted) (init_wellFormed h.allocator permitted d).1

/-! ## Steps -/

/-- Tables and memory, the frames that clients hold, and what became of the tables. -/
structure TableSystem where
  store : TableStore
  memory : Memory
  stock : Stock
  /-- Names given out so far. -/
  issued : Finset TableId
  /-- Tables in use that changed since they were last written. -/
  unwritten : Finset TableId
  /-- Tables in use that were added or changed since the waiting tables were last written. -/
  changed : Finset TableId
  /-- Names of tables that were in `changed` when they were removed, once for each time. -/
  lost : List TableId

namespace TableSystem

/-- No tables, and an allocator that is not started. -/
def start (poolPages : Nat) (memory : Memory) : TableSystem where
  store := { TableStore.empty with frames := ⟨poolPages, none⟩ }
  memory := memory
  stock := ⟨∅, 0⟩
  issued := ∅
  unwritten := ∅
  changed := ∅
  lost := []

/-- The system after a table in use changed. -/
def withChange (s : TableSystem) (id : TableId) : TableSystem :=
  { s with unwritten := insert id s.unwritten, changed := insert id s.changed }

/-- The system after a table was removed. -/
def withLoss (s : TableSystem) (id : TableId) : TableSystem :=
  { s with
    unwritten := s.unwritten.erase id
    changed := s.changed.erase id
    lost := if id ∈ s.changed then id :: s.lost else s.lost }

/-- One call.  A fault is not a step: the system stops. -/
inductive Step (format : Format) : TableSystem → TableSystem → Prop where
  | added {s : TableSystem} {level : Nat} {user : Bool} {id : TableId} {store : TableStore}
      (ends : TableStore.addTable format level user s.store = .ok id store) :
      Step format s ({ s with store := store, issued := insert id s.issued }.withChange id)
  | refused {s : TableSystem} {level : Nat} {user : Bool} {error : MemoryError} {store : TableStore}
      (ends : TableStore.addTable format level user s.store = .error (.refused error) store) :
      Step format s { s with store := store }
  | removed {s : TableSystem} {id : TableId} {store : TableStore}
      (ends : TableStore.removeTable id s.store = .ok () store) :
      Step format s ({ s with store := store }.withLoss id)
  | removedAll {s : TableSystem} {store : TableStore}
      (ends : TableStore.removeAll s.store = .ok () store) :
      Step format s { s with store := store, unwritten := ∅, changed := ∅, lost := [] }
  | put {s : TableSystem} {id index : Nat} {slot : Slot} {store : TableStore}
      (inUse : s.store.arena.get? id ≠ none)
      (ends : TableStore.setSlot id index slot s.store = .ok () store) :
      Step format s ({ s with store := store }.withChange id)
  | passedOver {s : TableSystem} {id index : Nat} {slot : Slot} {store : TableStore}
      (gone : s.store.arena.get? id = none)
      (ends : TableStore.setSlot id index slot s.store = .ok () store) :
      Step format s { s with store := store }
  /-- Of the tables, those are written to whose frames pages go. -/
  | wrote {s : TableSystem} {count : Nat} {arena : Arena} {memory : Memory}
      (ends : s.store.arena.commit format s.memory = .ok (count, arena, memory)) :
      Step format s { s with
        store := { s.store with arena := arena }
        memory := memory
        unwritten := s.unwritten.filter fun id =>
          ∀ w ∈ s.store.arena.writes format, s.store.arena.frame? id ≠ some w.1
        changed := ∅
        lost := [] }
  | client {s : TableSystem} (call : FrameCall) (log : Array LogRecord)
      (permitted : call.Permitted s.stock.held) :
      Step format s { s with
        store := { s.store with frames := s.store.frames.after call, log := log }
        stock := s.stock.after s.store.frames call }

/-- The states of all runs. -/
inductive Reachable (format : Format) : TableSystem → Prop where
  | start (poolPages : Nat) (memory : Memory) : Reachable format (start poolPages memory)
  | step {s s' : TableSystem} (before : Reachable format s) (step : Step format s s') :
      Reachable format s'

/-! ## What every step keeps -/

/-- What holds at all times. -/
structure Sound (format : Format) (s : TableSystem) : Prop where
  ledger : Ledger s.stock s.store.frames s.store.arena
  width : ∀ {id w : Nat}, s.store.arena.width? id = some w → w = format.entries
  issued : ∀ {id : Nat}, id ∈ s.issued ↔ id < s.store.arena.tables.size
  vacant : ∀ {id : Nat}, id ∈ s.issued → s.store.arena.get? id = none → id ∈ s.store.arena.vacant
  changed : ∀ {id : Nat}, id ∈ s.changed ↔ s.store.arena.dirty? id = some true
  unwritten : s.unwritten = s.changed
  /-- A table that waits is queued once, and once more for each time it was lost. -/
  pending : ∀ id : Nat, s.store.arena.pending.count id
    = (if id ∈ s.changed then 1 else 0) + s.lost.count id
  lost : ∀ {id : Nat}, id ∈ s.lost → s.store.arena.get? id ≠ none → id ∈ s.changed

variable {format : Format} {s s' : TableSystem}

theorem sound_start (poolPages : Nat) (memory : Memory) : Sound format (start poolPages memory) where
  ledger := ⟨Arena.books_empty, wellFormed_unstarted poolPages, rfl,
    fun hf => by simp [start, TableStore.empty, Arena.frame?] at hf, fun hf => hf.elim,
    fun hlt => absurd hlt (Nat.not_lt_zero _)⟩
  width := fun h => by simp [start, TableStore.empty, Arena.width?] at h
  issued := by simp [start, TableStore.empty, Arena.empty]
  vacant := by simp [start]
  changed := by simp [start, TableStore.empty, Arena.dirty?]
  unwritten := rfl
  pending := by simp [start, TableStore.empty, Arena.empty]
  lost := by simp [start]

/-- A table that is not in use did not change. -/
theorem Sound.not_mem_changed (h : Sound format s) {id : TableId}
    (hid : s.store.arena.get? id = none) : id ∉ s.changed := by
  rw [h.changed, Arena.dirty?, hid]
  simp

theorem Sound.added (h : Sound format s) {frame level id : Nat} {user : Bool} {store : TableStore}
    (hframes : s.store.frames.allocatePage = (.ok frame, store.frames))
    (hid : id = (s.store.arena.add (.blank frame level user format.entries)).1)
    (harena : store.arena = (s.store.arena.add (.blank frame level user format.entries)).2) :
    Sound format ({ s with store := store, issued := insert id s.issued }.withChange id) := by
  have names := h.ledger.books.names
  have hfresh : s.store.arena.get? id = none := hid ▸ Arena.get?_fst_add names _
  have hnot := h.not_mem_changed hfresh
  refine ⟨?ledger, ?width, ?issued, ?vacant, ?changed, ?unwritten, ?pending, ?lost⟩
  case ledger =>
    show Ledger s.stock store.frames store.arena
    rw [harena]
    exact h.ledger.add hframes
  case width =>
    intro x w hw
    have hw : store.arena.width? x = some w := hw
    rw [harena, Arena.width?_add names] at hw
    split at hw
    · rw [Table.blank, Array.size_replicate] at hw
      exact (Option.some.inj hw).symm
    · exact h.width hw
  case issued =>
    intro x
    show x ∈ insert id s.issued ↔ x < store.arena.tables.size
    have hle : id ≤ s.store.arena.tables.size := hid ▸ Arena.fst_add_le names _
    rw [harena, Arena.size_add names, Finset.mem_insert, h.issued, ← hid]
    show x = id ∨ x < s.store.arena.tables.size ↔ x < max s.store.arena.tables.size (id + 1)
    omega
  case vacant =>
    intro x hx hnone
    have hnone : store.arena.get? x = none := hnone
    show x ∈ store.arena.vacant
    rw [harena, Arena.get?_add names, ← hid] at hnone
    by_cases heq : x = id
    · rw [if_pos heq] at hnone
      cases hnone
    · -- an older name, which was vacant before
      rw [if_neg heq] at hnone
      have hold := h.vacant ((Finset.mem_insert.mp hx).resolve_left heq) hnone
      rw [harena, Arena.vacant_add]
      cases hv : s.store.arena.vacant with
      | nil =>
        rw [hv] at hold
        cases hold
      | cons next rest =>
        rw [hv] at hold
        refine (List.mem_cons.mp hold).resolve_left fun hnext => heq ?_
        rw [hnext, hid, Arena.fst_add, hv]
        rfl
  case changed =>
    intro x
    show x ∈ insert id s.changed ↔ store.arena.dirty? x = some true
    rw [harena, Arena.dirty?_add names, Finset.mem_insert, h.changed, ← hid]
    split
    · simp_all
    · simp_all
  case unwritten => exact congrArg (insert id) h.unwritten
  case pending =>
    intro x
    show store.arena.pending.count x = (if x ∈ insert id s.changed then 1 else 0) + s.lost.count x
    rw [harena, Arena.pending_add names rfl, Array.count_push, h.pending, ← hid]
    by_cases heq : x = id
    · -- the new table did not wait, but tables that had its name before may be queued
      subst heq
      simp [hnot, Nat.add_comm]
    · simp [heq, Ne.symm heq]
  case lost =>
    intro x hx huse
    have huse : store.arena.get? x ≠ none := huse
    rw [harena, Arena.get?_add names, ← hid] at huse
    show x ∈ insert id s.changed
    by_cases heq : x = id
    · exact Finset.mem_insert.mpr (.inl heq)
    · rw [if_neg heq] at huse
      exact Finset.mem_insert_of_mem (h.lost hx huse)

/-- Nothing changes of the tables when only frames, the log or memory do. -/
theorem Sound.of_arena (h : Sound format s) {stock : Stock} {store : TableStore} {memory : Memory}
    (harena : store.arena = s.store.arena) (ledger : Ledger stock store.frames s.store.arena) :
    Sound format { s with store := store, memory := memory, stock := stock } := by
  refine ⟨?_, ?_, ?_, ?_, ?_, h.unwritten, ?_, ?_⟩
  all_goals simp only [harena]
  · exact ledger
  · exact h.width
  · exact h.issued
  · exact h.vacant
  · exact h.changed
  · exact h.pending
  · exact h.lost

theorem Sound.refused (h : Sound format s) {cause : FrameError} {store : TableStore}
    (hframes : s.store.frames.allocatePage = (.error cause, store.frames))
    (hstore : store = { s.store with frames := store.frames }) :
    Sound format { s with store := store } :=
  h.of_arena (by rw [hstore]) (h.ledger.exhausted hframes)

/-- Nothing is lost with a name under which nothing was in use. -/
theorem Sound.withLoss_eq_self (h : Sound format s) {id : Nat}
    (hid : s.store.arena.get? id = none) : s.withLoss id = s := by
  have hnot := h.not_mem_changed hid
  have hunwritten : s.unwritten.erase id = s.unwritten :=
    Finset.erase_eq_of_notMem (h.unwritten ▸ hnot)
  rw [withLoss, hunwritten, Finset.erase_eq_of_notMem hnot, if_neg hnot]

theorem Sound.removed (h : Sound format s) {id : Nat} {store : TableStore}
    (e : TableStore.removeTable id s.store = .ok () store) :
    Sound format ({ s with store := store }.withLoss id) := by
  cases hid : s.store.arena.get? id with
  | none =>
    rw [TableStore.removeTable_eq_self hid] at e
    cases e
    exact (h.withLoss_eq_self hid).symm ▸ h
  | some t =>
    have hframe := Arena.frame?_of_get? hid
    obtain ⟨hframes, harena⟩ : store.frames = (s.store.frames.freeBlock t.frame 0).2
        ∧ store.arena = (s.store.arena.remove id).2 :=
      (TableStore.ends_removeTable hframe (fun _ store => store.frames
        = (s.store.frames.freeBlock t.frame 0).2 ∧ store.arena = (s.store.arena.remove id).2)
        (fun _ _ => False) fun _ hframes harena => ⟨hframes, harena⟩).of_ok e
    have hget : ∀ x : Nat, store.arena.get? x = if x = id then none else s.store.arena.get? x :=
      fun x => by rw [harena, Arena.get?_remove]
    -- the queue stays as it is: what waited under this name goes from `changed` to `lost`
    refine ⟨?ledger, ?width, ?issued, ?vacant, ?changed, ?unwritten, ?pending, ?lost⟩
    case ledger =>
      show Ledger s.stock store.frames store.arena
      rw [hframes, harena]
      exact h.ledger.remove hframe
    case width =>
      intro x w hw
      have hw : (store.arena.get? x).map (fun t => t.slots.size) = some w := hw
      rw [hget] at hw
      split at hw
      · cases hw
      · exact h.width hw
    case issued =>
      intro x
      show x ∈ s.issued ↔ x < store.arena.tables.size
      rw [harena, Arena.size_remove, h.issued]
    case vacant =>
      intro x hx hnone
      have hnone : store.arena.get? x = none := hnone
      show x ∈ store.arena.vacant
      rw [harena, Arena.vacant_remove hid]
      rw [hget] at hnone
      by_cases heq : x = id
      · exact List.mem_cons.mpr (.inl heq)
      · rw [if_neg heq] at hnone
        exact List.mem_cons_of_mem _ (h.vacant hx hnone)
    case changed =>
      intro x
      show x ∈ s.changed.erase id ↔ (store.arena.get? x).map Table.dirty = some true
      rw [hget, Finset.mem_erase, h.changed]
      split
      · simp_all
      · simp_all [Arena.dirty?]
    case unwritten => exact congrArg (Finset.erase · id) h.unwritten
    case pending =>
      intro x
      show store.arena.pending.count x = (if x ∈ s.changed.erase id then 1 else 0)
        + (if id ∈ s.changed then id :: s.lost else s.lost).count x
      rw [harena, Arena.pending_remove, h.pending]
      by_cases heq : x = id
      · subst heq
        by_cases hin : x ∈ s.changed
        · simp [hin, Nat.add_comm]
        · simp [hin]
      · by_cases hin : id ∈ s.changed
        · simp [hin, heq, Ne.symm heq]
        · simp [hin]
    case lost =>
      intro x hx huse
      have hx : x ∈ if id ∈ s.changed then id :: s.lost else s.lost := hx
      have huse : store.arena.get? x ≠ none := huse
      show x ∈ s.changed.erase id
      rw [hget] at huse
      by_cases heq : x = id
      · exact absurd (if_pos heq) huse
      · rw [if_neg heq] at huse
        refine Finset.mem_erase.mpr ⟨heq, h.lost ?_ huse⟩
        split at hx
        · exact (List.mem_cons.mp hx).resolve_left heq
        · exact hx

/-- Once no table is left, nothing waits. -/
theorem Sound.cleared (h : Sound format s) (hnone : ∀ x : Nat, s.store.arena.get? x = none) :
    Sound format { s with
      store := { s.store with arena := s.store.arena.clearPending }
      unwritten := ∅, changed := ∅, lost := [] } where
  ledger := (Arena.unmarked_clearPending _).ledger h.ledger fun id hd => by
    rw [Arena.dirty?, show s.store.arena.clearPending.get? id = none from hnone id] at hd
    cases hd
  width := h.width
  issued := h.issued
  vacant := h.vacant
  changed := fun {id} => by
    simp [Arena.dirty?, show s.store.arena.clearPending.get? id = none from hnone id]
  unwritten := rfl
  pending := fun id => rfl
  lost := nofun

theorem Sound.removedAll (h : Sound format s) {store : TableStore}
    (e : TableStore.removeAll s.store = .ok () store) :
    Sound format { s with store := store, unwritten := ∅, changed := ∅, lost := [] } := by
  -- removing all tables is removing one after another
  let P (store : TableStore) : Prop := ∃ t, Sound format t ∧ t.store = store
    ∧ t.memory = s.memory ∧ t.stock = s.stock ∧ t.issued = s.issued
  have hremove : ∀ {store : TableStore} {id : TableId}, P store →
      Ends (TableStore.removeTable id) store (fun _ store' => P store') (fun _ _ => False) := by
    rintro _ id ⟨t, ht, rfl, hmemory, hstock, hissued⟩
    obtain ⟨⟨⟩, store', e', -⟩ := exists_of_ends (TableStore.ends_removeTable_left (s := t.store) id)
    rw [Ends, e']
    exact ⟨_, ht.removed e', rfl, hmemory, hstock, hissued⟩
  obtain ⟨_, ⟨t, ht, rfl, hmemory, hstock, hissued⟩, hnone, rfl⟩ :=
    (TableStore.ends_removeAll (P := P) hremove ⟨s, h, rfl, rfl, rfl, rfl⟩).of_ok e
  have hcleared := ht.cleared hnone
  rwa [hmemory, hstock, hissued] at hcleared

theorem Sound.put (h : Sound format s) {id index : Nat} {slot : Slot} {store : TableStore}
    (inUse : s.store.arena.get? id ≠ none)
    (e : TableStore.setSlot id index slot s.store = .ok () store) :
    Sound format ({ s with store := store }.withChange id) := by
  rw [TableStore.setSlot_ok e]
  obtain ⟨t, ht⟩ := Option.ne_none_iff_exists'.mp inUse
  have hdirty := Arena.dirty?_of_get? ht
  refine ⟨h.ledger.put id index slot, ?width, ?issued, ?vacant, ?changed, ?unwritten, ?pending, ?lost⟩
  case width =>
    intro x w hw
    exact h.width (by rwa [← Arena.width?_put s.store.arena id index slot])
  case issued =>
    intro x
    exact h.issued.trans (by rw [← Arena.size_put s.store.arena id index slot]; rfl)
  case vacant =>
    intro x hx hnone
    have hnone : (s.store.arena.put id index slot).get? x = none := hnone
    show x ∈ (s.store.arena.put id index slot).vacant
    rw [Arena.get?_eq_none_iff, Arena.level?_put, ← Arena.get?_eq_none_iff] at hnone
    rw [Arena.vacant_put]
    exact h.vacant hx hnone
  case changed =>
    intro x
    show x ∈ insert id s.changed ↔ (s.store.arena.put id index slot).dirty? x = some true
    rw [Arena.dirty?_put, hdirty, Finset.mem_insert, h.changed]
    split
    · simp_all
    · simp_all
  case unwritten => exact congrArg (insert id) h.unwritten
  case pending =>
    intro x
    show (s.store.arena.put id index slot).pending.count x
      = (if x ∈ insert id s.changed then 1 else 0) + s.lost.count x
    rw [Arena.pending_put]
    cases hd : t.dirty with
    | true =>
      -- it waits already
      have hin : id ∈ s.changed := h.changed.mpr (by rw [hdirty, hd])
      rw [hdirty, hd, if_neg (by decide), h.pending, Finset.insert_eq_of_mem hin]
    | false =>
      have hout : id ∉ s.changed := by
        rw [h.changed, hdirty, hd]
        decide
      rw [hdirty, hd, if_pos rfl, Array.count_push, h.pending]
      by_cases heq : x = id
      · subst heq
        simp [hout, Nat.add_comm]
      · simp [heq, Ne.symm heq]
  case lost =>
    intro x hx huse
    have huse : (s.store.arena.put id index slot).get? x ≠ none := huse
    rw [ne_eq, Arena.get?_eq_none_iff, Arena.level?_put, ← Arena.get?_eq_none_iff] at huse
    exact Finset.mem_insert_of_mem (h.lost hx huse)

/-- A table that waits is written, if writing succeeds. -/
theorem Sound.mem_writes (h : Sound format s) {done : Nat × Arena × Memory}
    (e : s.store.arena.commit format s.memory = .ok done) {id : Nat} (hid : id ∈ s.changed) :
    ∃ w ∈ s.store.arena.writes format, s.store.arena.frame? id = some w.1 := by
  have hd := h.changed.mp hid
  obtain ⟨t, ht, -⟩ := Option.map_eq_some_iff.mp hd
  have hframe := Arena.frame?_of_get? ht
  have hqueued := h.ledger.books.queued hd
  obtain ⟨⟨page, himage⟩, -⟩ := (Arena.commit_eq_ok_iff.mp e).1 id hqueued ht
  exact ⟨(t.frame, page), Arena.mem_writes_iff.mpr ⟨id, hqueued, hframe, himage⟩, hframe⟩

theorem Sound.wrote (h : Sound format s) {count : Nat} {arena : Arena} {memory : Memory}
    (e : s.store.arena.commit format s.memory = .ok (count, arena, memory)) :
    Sound format { s with
      store := { s.store with arena := arena }
      memory := memory
      unwritten := s.unwritten.filter fun id =>
        ∀ w ∈ s.store.arena.writes format, s.store.arena.frame? id ≠ some w.1
      changed := ∅
      lost := [] } := by
  have hunmarked := Arena.unmarked_commit e
  have hview := hunmarked.alike
  -- a marked table is queued, so its mark was taken away
  have hclean : ∀ id, arena.dirty? id ≠ some true := by
    intro id hd
    rw [Arena.dirty?_commit e] at hd
    split at hd
    · obtain ⟨-, -, hfalse⟩ := Option.map_eq_some_iff.mp hd
      cases hfalse
    · rename_i hnot
      exact hnot (h.ledger.books.queued hd)
  refine ⟨hunmarked.ledger h.ledger hclean, ?width, ?issued, ?vacant, ?changed, ?unwritten, ?pending,
    nofun⟩
  case width =>
    intro x w hw
    exact h.width ((hview.width x).symm.trans hw)
  case issued =>
    intro x
    show x ∈ s.issued ↔ x < arena.tables.size
    rw [hunmarked.size, h.issued]
  case vacant =>
    intro x hx hnone
    show x ∈ arena.vacant
    rw [hunmarked.vacant]
    exact h.vacant hx (hview.get?_none_iff.mp hnone)
  case changed =>
    intro x
    exact iff_of_false (Finset.notMem_empty x) (hclean x)
  case unwritten =>
    show s.unwritten.filter _ = ∅
    rw [Finset.filter_eq_empty_iff]
    intro x hx hnot
    obtain ⟨w, hw, hframe⟩ := h.mem_writes e (h.unwritten ▸ hx)
    exact hnot w hw hframe
  case pending =>
    intro x
    show arena.pending.count x = 0
    rw [Arena.pending_commit e]
    rfl

theorem Sound.step (h : Sound format s) (hstep : Step format s s') : Sound format s' := by
  cases hstep with
  | added ends =>
    obtain ⟨frame, hframes, hid, harena⟩ := TableStore.addTable_ok ends
    exact h.added hframes hid harena
  | refused ends =>
    obtain ⟨cause, hframes, -, hstore⟩ := TableStore.addTable_refused ends
    exact h.refused hframes hstore
  | removed ends => exact h.removed ends
  | removedAll ends => exact h.removedAll ends
  | put inUse ends => exact h.put inUse ends
  | passedOver gone ends =>
    rw [TableStore.setSlot_ok ends, Arena.put_eq_self gone]
    exact h
  | wrote ends => exact h.wrote ends
  | client call log permitted => exact h.of_arena rfl (h.ledger.after permitted)

theorem Reachable.sound (h : Reachable format s) : Sound format s := by
  induction h with
  | start poolPages memory => exact sound_start poolPages memory
  | step _ hstep ih => exact ih.step hstep

/-- The system in which a client has started the allocator, with eight frames of which one is set
aside. -/
def eightFrames : TableSystem :=
  { start 1 .blank with
    store := { TableStore.empty with frames := (init ⟨1, none⟩ Holdings.eightFrames {}).2.1 }
    stock := (init ⟨1, none⟩ Holdings.eightFrames {}).2.1.inUse }

theorem reachable_eightFrames (format : Format) : Reachable format eightFrames :=
  (Reachable.start 1 .blank).step (.client (.init Holdings.eightFrames {}) #[]
    (show Holdings.eightFrames.stop < Word.bound by decide))

end TableSystem

end KernelMemory
