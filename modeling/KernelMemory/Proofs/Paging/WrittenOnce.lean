/-
  KernelMemory.Proofs.Paging.WrittenOnce — which frames are written, and how often.

  The tables that wait are queued by name.  A table is queued once, since it is marked while it
  waits; but the mark goes with the table and the name stays in the queue.  So a table whose name
  was lost while it waited is passed over, unless the name is in use again: then the new table is
  queued once more for each time, and written as often.

  Main results:
    * `Sound.queue_perm` — the queue is what changed and what was lost;
    * `commit_writes_changed` — what is written, where, how often, and that then nothing is.
-/

import KernelMemory.Proofs.Paging.TableUse

namespace KernelMemory

open Steps

namespace Arena

variable {format : Format} {a : Arena}

/-- No table in use names one that is not. -/
def Closed (a : Arena) : Prop :=
  ∀ id index child : Nat, a.slot? id index = some (.table child) → a.get? child ≠ none

/-- Without tables, none is named. -/
theorem closed_of_gone (h : ∀ id : Nat, a.get? id = none) : a.Closed := by
  intro id index child hs
  rw [slot?, h] at hs
  cases hs

/-- A new table names none. -/
theorem Closed.add (closed : a.Closed) (names : a.Names) (frame : PhysAddr) (level : Nat) (user : Bool)
    (entries : Nat) : (a.add (.blank frame level user entries)).2.Closed := by
  intro id index child hs
  rw [get?_add names]
  rw [slot?_add names] at hs
  split at hs
  · rw [slots_blank] at hs
    split at hs
    · cases hs
    · cases hs
  · split
    · exact nofun
    · exact closed _ _ _ hs

theorem Closed.addTable {s s' : TableStore} {level : Nat} {user : Bool} {id : TableId}
    (closed : s.arena.Closed) (names : s.arena.Names)
    (e : TableStore.addTable format level user s = .ok id s') : s'.arena.Closed := by
  obtain ⟨frame, -, -, harena⟩ := TableStore.addTable_ok e
  rw [harena]
  exact closed.add names frame level user format.entries

theorem Closed.put (closed : a.Closed) {id index : Nat} {s : Slot}
    (named : ∀ {child : Nat}, s = .table child → a.get? child ≠ none) :
    (a.put id index s).Closed := by
  intro other place child hs
  rw [ne_eq, get?_eq_none_iff, level?_put, ← get?_eq_none_iff]
  rw [slot?_put] at hs
  split at hs
  · obtain ⟨_, -, heq⟩ := Option.map_eq_some_iff.mp hs
    exact named heq
  · exact closed _ _ _ hs

/-- Where tables name only tables in use, all of them can be written. -/
theorem Closed.writable (closed : a.Closed)
    (width : ∀ {id w : Nat}, a.width? id = some w → w = format.entries)
    (aligned : ∀ {id frame : Nat}, a.frame? id = some frame → frame % frameSize = 0)
    (id : TableId) : a.Writable format id := by
  intro t ht
  have hwidth : t.slots.size = format.entries := width (show a.width? id = _ by rw [width?, ht]; rfl)
  obtain ⟨page, himage, -⟩ := exists_image ht (Nat.le_of_eq hwidth) fun {i c} hs => by
    exact Option.ne_none_iff_exists'.mp (closed id i c (by
      rw [slot?, ht]; exact hs))
  exact ⟨⟨page, himage⟩, aligned (frame?_of_get? ht)⟩

/-- Where all tables that wait can be written, the frames written are theirs. -/
theorem map_fst_writes (h : ∀ id ∈ a.pending, a.Writable format id) :
    (a.writes format).map Prod.fst = a.pending.toList.filterMap a.frame? := by
  rw [writes, List.map_filterMap]
  refine List.filterMap_congr fun id hid => ?_
  cases ht : a.get? id with
  | none => rw [page?, frame?, ht]; rfl
  | some t =>
    obtain ⟨⟨page, himage⟩, -⟩ := h id (Array.mem_toList_iff.mp hid) ht
    have hpage : a.page? format id = some (t.frame, page) :=
      page?_eq_some_iff.mpr ⟨frame?_of_get? ht, himage⟩
    rw [hpage, frame?_of_get? ht]
    rfl

end Arena

namespace TableSystem

variable {format : Format} {s : TableSystem}

/-- The queue is the tables that changed, each once, and the names that were lost. -/
theorem Sound.queue_perm (h : Sound format s) :
    s.store.arena.pending.toList.Perm (s.changed.toList ++ s.lost) := by
  rw [List.perm_iff_count]
  intro id
  rw [Array.count_toList, h.pending, List.count_append]
  by_cases hid : id ∈ s.changed
  · rw [if_pos hid, List.count_eq_one_of_mem s.changed.nodup_toList (Finset.mem_toList.mpr hid)]
  · rw [if_neg hid, List.count_eq_zero.mpr fun hin => hid (Finset.mem_toList.mp hin)]

theorem Sound.exists_frame (h : Sound format s) {id : Nat} (hid : id ∈ s.changed) :
    ∃ frame, s.store.arena.frame? id = some frame := by
  obtain ⟨t, ht, -⟩ := Option.map_eq_some_iff.mp (h.changed.mp hid)
  exact ⟨_, Arena.frame?_of_get? ht⟩

/-- What writing the waiting tables writes, one page after another. -/
structure WritesChanged (format : Format) (s : TableSystem) (writes : List (PhysAddr × Page)) :
    Prop where
  /-- Every page is that of a table that changed, and goes to its frame. -/
  pages : ∀ w ∈ writes, ∃ id ∈ s.changed,
    s.store.arena.frame? id = some w.1 ∧ s.store.arena.image format id = .ok w.2
  /-- A table that changed is written once, and once more for each time its name was lost. -/
  times : ∀ id ∈ s.changed, ∃ frame, s.store.arena.frame? id = some frame
    ∧ (writes.map Prod.fst).count frame = 1 + s.lost.count id
  length : writes.length = s.changed.card
    + s.lost.countP fun id => (s.store.arena.get? id).isSome
  /-- Unless a lost name is in use again, no frame is written twice. -/
  once : (∀ id ∈ s.lost, s.store.arena.get? id = none) →
    (writes.map Prod.fst).Nodup ∧ writes.length = s.changed.card
  /-- The frames of the tables that changed hold their pages. -/
  held : ∀ id ∈ s.changed, ∃ frame page, s.store.arena.frame? id = some frame
    ∧ s.store.arena.image format id = .ok page ∧ (s.memory.writeAll writes).read frame = page
  /-- No other frame is touched. -/
  untouched : ∀ number : FrameNumber,
    (∀ id ∈ s.changed, ∀ frame, s.store.arena.frame? id = some frame → PhysAddr.frame frame ≠ number) →
      (s.memory.writeAll writes).frames[number]? = s.memory.frames[number]?

theorem Sound.writable (h : Sound format s) (closed : s.store.arena.Closed) (id : TableId) :
    s.store.arena.Writable format id :=
  closed.writable h.width (fun hf => (h.ledger.table hf).1) id

/-- A table in use that is queued changed. -/
theorem Sound.mem_changed (h : Sound format s) {id : Nat} (queued : id ∈ s.store.arena.pending)
    (inUse : s.store.arena.get? id ≠ none) : id ∈ s.changed := by
  have hin := h.queue_perm.mem_iff.mp (Array.mem_toList_iff.mpr queued)
  rcases List.mem_append.mp hin with hchanged | hlost
  · exact Finset.mem_toList.mp hchanged
  · exact h.lost hlost inUse

/-- The frame of a table is written as often as its name is queued. -/
theorem Sound.count_frames (h : Sound format s) {id frame : Nat}
    (hframe : s.store.arena.frame? id = some frame) :
    (s.store.arena.pending.toList.filterMap s.store.arena.frame?).count frame
      = s.store.arena.pending.count id := by
  rw [List.count_filterMap, ← Array.count_toList, List.count]
  refine List.countP_congr fun x _ => ?_
  rw [beq_iff_eq, beq_iff_eq]
  constructor
  · exact fun hx => h.ledger.books.frame_inj hx hframe
  · rintro rfl
    exact hframe

/-- As many frames are written as there are tables that changed and lost names in use again. -/
theorem Sound.length_frames (h : Sound format s) :
    (s.store.arena.pending.toList.filterMap s.store.arena.frame?).length
      = s.changed.card + s.lost.countP fun id => (s.store.arena.get? id).isSome := by
  have hisSome : ∀ id, (s.store.arena.frame? id).isSome = (s.store.arena.get? id).isSome :=
    fun id => Option.isSome_map
  have hchanged : s.changed.toList.countP (fun id => (s.store.arena.get? id).isSome)
      = s.changed.card := by
    rw [List.countP_eq_length.mpr, Finset.length_toList]
    intro id hid
    obtain ⟨frame, hframe⟩ := h.exists_frame (Finset.mem_toList.mp hid)
    rw [← hisSome, hframe]
    rfl
  rw [List.length_filterMap_eq_countP, h.queue_perm.countP_eq, List.countP_append]
  simp only [hisSome, hchanged]

theorem Sound.writesChanged (h : Sound format s)
    (writable : ∀ id ∈ s.store.arena.pending, s.store.arena.Writable format id) :
    WritesChanged format s (s.store.arena.writes format) := by
  have hframes := Arena.map_fst_writes writable
  have hpages : ∀ w ∈ s.store.arena.writes format, ∃ id ∈ s.changed,
      s.store.arena.frame? id = some w.1 ∧ s.store.arena.image format id = .ok w.2 := by
    intro w hw
    obtain ⟨id, hid, hframe, himage⟩ := Arena.mem_writes_iff.mp hw
    refine ⟨id, h.mem_changed hid fun hnone => ?_, hframe, himage⟩
    rw [Arena.frame?, hnone] at hframe
    cases hframe
  have hlength : (s.store.arena.writes format).length = s.changed.card
      + s.lost.countP fun id => (s.store.arena.get? id).isSome := by
    rw [← List.length_map Prod.fst, hframes, h.length_frames]
  have htimes : ∀ {id frame : Nat}, id ∈ s.changed → s.store.arena.frame? id = some frame →
      ((s.store.arena.writes format).map Prod.fst).count frame = 1 + s.lost.count id := by
    intro id frame hid hframe
    rw [hframes, h.count_frames hframe, h.pending, if_pos hid]
  refine ⟨hpages, fun id hid => ?_, hlength, fun hgone => ⟨?_, ?_⟩, fun id hid => ?_,
    fun number hnumber => ?_⟩
  · obtain ⟨frame, hframe⟩ := h.exists_frame hid
    exact ⟨frame, hframe, htimes hid hframe⟩
  · -- each frame that is written is that of a table whose name was not lost
    rw [List.nodup_iff_count_le_one]
    intro frame
    by_cases hin : frame ∈ (s.store.arena.writes format).map Prod.fst
    · obtain ⟨w, hw, rfl⟩ := List.mem_map.mp hin
      obtain ⟨id, hid, hframe, -⟩ := hpages w hw
      have hnot : id ∉ s.lost := fun hlost => by
        rw [Arena.frame?, hgone id hlost] at hframe
        cases hframe
      rw [htimes hid hframe, List.count_eq_zero.mpr hnot]
    · rw [List.count_eq_zero.mpr hin]
      exact Nat.zero_le 1
  · rw [hlength, List.countP_eq_zero.mpr fun id hid => by rw [hgone id hid]; exact Bool.false_ne_true]
    rfl
  · have hqueued := h.ledger.books.queued (h.changed.mp hid)
    obtain ⟨t, ht, -⟩ := Option.map_eq_some_iff.mp (h.changed.mp hid)
    obtain ⟨⟨page, himage⟩, -⟩ := writable id hqueued ht
    have hframe := Arena.frame?_of_get? ht
    exact ⟨t.frame, page, hframe, himage, Arena.read_writes h.ledger.books
      (fun hf => (h.ledger.table hf).1) hframe hqueued himage⟩
  · refine Memory.frames_writeAll_other (fun w hw => ?_) s.memory
    obtain ⟨id, hid, hframe, -⟩ := hpages w hw
    exact hnumber id hid w.1 hframe

/-- In every state of every run in which tables name only tables in use, writing those that wait
succeeds.  It writes the tables that were added or changed since it was done last, as often as
their names are queued, and counts each time; done again, it writes nothing. -/
theorem commit_writes_changed (h : Reachable format s) (closed : s.store.arena.Closed) :
    ∃ writes arena, s.store.arena.commit format s.memory
        = .ok (writes.length, arena, s.memory.writeAll writes)
      ∧ WritesChanged format s writes
      ∧ arena.commit format (s.memory.writeAll writes)
        = .ok (0, arena, s.memory.writeAll writes) := by
  have hsound := h.sound
  have writable : ∀ id ∈ s.store.arena.pending, s.store.arena.Writable format id :=
    fun id _ => hsound.writable closed id
  have e := Arena.commit_of_writable writable s.memory
  exact ⟨_, _, e, hsound.writesChanged writable, Arena.commit_of_pending (Arena.pending_commit e)⟩

/-- A table is hung below another, and both are written. -/
theorem commit_writes_changed_twoTables :
    ∃ s, Reachable .narrow s ∧ s.store.arena.Closed ∧ s.changed = {0, 1}
      ∧ ∃ writes arena, s.store.arena.commit .narrow s.memory
          = .ok (writes.length, arena, s.memory.writeAll writes)
        ∧ WritesChanged .narrow s writes
        ∧ arena.commit .narrow (s.memory.writeAll writes)
          = .ok (0, arena, s.memory.writeAll writes) := by
  have hends : Ends (do
      let root ← TableStore.addTable .narrow 1 false
      let leaf ← TableStore.addTable .narrow 0 true
      return (root, leaf)) eightFrames.store
      (fun names store => names = (0, 1) ∧ store.arena.get? 0 ≠ none ∧ store.arena.get? 1 ≠ none
        ∧ store.arena.slotProblem 0 3 = none) (fun _ _ => False) := by decide +kernel
  obtain ⟨names, store, e, hnames, hroot, hleaf, hslot⟩ := exists_of_ends hends
  obtain ⟨root, s₁, hadd, e⟩ := bind_eq_ok_iff.mp e
  obtain ⟨leaf, s₂, hadd', e⟩ := bind_eq_ok_iff.mp e
  cases e
  cases hnames
  have hput : TableStore.setSlot 0 3 (.table 1) store
      = .ok () { store with arena := store.arena.put 0 3 (.table 1) } := by
    rw [TableStore.setSlot, hslot]
  have hfirst := (reachable_eightFrames .narrow).step (.added hadd)
  have hsecond := hfirst.step (.added hadd')
  have hreachable := hsecond.step (.put hroot hput)
  have hopened : eightFrames.store.arena.Closed := Arena.closed_of_gone Arena.get?_empty
  have hclosed : (store.arena.put 0 3 (.table 1)).Closed :=
    ((hopened.addTable Arena.names_empty hadd).addTable hfirst.sound.ledger.books.names hadd').put
      fun heq => by cases heq; exact hleaf
  have hchanged : (insert 0 (insert 1 (insert 0 ∅)) : Finset Nat) = {0, 1} := by decide
  exact ⟨_, hreachable, hclosed, hchanged, commit_writes_changed hreachable hclosed⟩

/-- A table is added and removed, and another is added under its name before any was written.  It
is the one table there is, and it is written and counted twice. -/
theorem reused_name_written_twice : ∃ s arena memory, Reachable .narrow s ∧ s.store.arena.Closed
    ∧ s.changed = {0} ∧ s.store.arena.size = 1
    ∧ s.store.arena.commit .narrow s.memory = .ok (2, arena, memory) := by
  have hends : Ends (do
      let first ← TableStore.addTable .narrow 1 false
      TableStore.removeTable first
      let second ← TableStore.addTable .narrow 1 false
      return (first, second)) eightFrames.store
      (fun names store => names = (0, 0) ∧ store.arena.size = 1 ∧ (store.arena.get? 0).isSome)
      (fun _ _ => False) := by decide +kernel
  obtain ⟨names, store, e, hnames, hsize, hinUse⟩ := exists_of_ends hends
  obtain ⟨first, s₁, hadd, e⟩ := bind_eq_ok_iff.mp e
  obtain ⟨⟨⟩, s₂, hremove, e⟩ := bind_eq_ok_iff.mp e
  obtain ⟨second, s₃, hadd', e⟩ := bind_eq_ok_iff.mp e
  cases e
  cases hnames
  have hfirst := (reachable_eightFrames .narrow).step (.added hadd)
  have hsecond := hfirst.step (.removed hremove)
  have hreachable := hsecond.step (.added hadd')
  have names : eightFrames.store.arena.Names := Arena.names_empty
  have hgone : ∀ x : Nat, s₂.arena.get? x = none := by
    intro x
    obtain ⟨_, -, hname, harena⟩ := TableStore.addTable_ok hadd
    rw [(TableStore.ends_removeTable_left 0).of_ok hremove, harena, Arena.get?_add names,
      ← hname]
    split
    · rfl
    · exact Arena.get?_empty x
  have hclosed : store.arena.Closed :=
    (Arena.closed_of_gone hgone).addTable hsecond.sound.ledger.books.names hadd'
  have hsound := hreachable.sound
  have writable : ∀ id ∈ store.arena.pending, store.arena.Writable .narrow id :=
    fun id _ => hsound.writable hclosed id
  have hchanged : insert 0 ((insert 0 ∅ : Finset Nat).erase 0) = {0} := by decide
  have hlength : (store.arena.writes .narrow).length = 2 := by
    refine (hsound.writesChanged writable).length.trans ?_
    show (insert 0 ((insert 0 ∅ : Finset Nat).erase 0)).card + ((if 0 ∈ (insert 0 ∅ : Finset Nat)
      then [0] else []).countP fun id => (store.arena.get? id).isSome) = 2
    rw [hchanged, if_pos (by decide), List.countP_singleton, hinUse]
    rfl
  have e := Arena.commit_of_writable writable eightFrames.memory
  rw [hlength] at e
  exact ⟨_, _, _, hreachable, hclosed, hchanged, hsize, e⟩

end TableSystem

end KernelMemory
