/-
  KernelMemory.Proofs.Paging.Writing — what is done when the waiting tables are written.

  Writing takes marks away and changes nothing else of the tables, so the page of each can be told
  from the tables as they were before any was written.  The names that wait are gone through in
  order: one that is not in use is passed over, and one that waits twice is written twice.

  Main results:
    * `Alike.image` — the page of a table, whatever waits;
    * `commit_eq_ok_iff` — when writing succeeds, and all that it does.
-/

import KernelMemory.Proofs.Paging.Views

namespace KernelMemory

/-! ## Pages written one after another -/

namespace Memory

variable {address : PhysAddr} {frame : FrameNumber} {page : Page}

/-- Memory after pages were written one after another. -/
def writeAll (memory : Memory) (writes : List (PhysAddr × Page)) : Memory :=
  writes.foldl (fun memory w => memory.write w.1 w.2) memory

@[simp] theorem writeAll_nil (memory : Memory) : memory.writeAll [] = memory := rfl

@[simp] theorem writeAll_cons (memory : Memory) (w : PhysAddr × Page)
    (writes : List (PhysAddr × Page)) :
    memory.writeAll (w :: writes) = (memory.write w.1 w.2).writeAll writes := rfl

/-- A frame that nothing is written to stays as it is, also if it was never written to. -/
theorem frames_writeAll_other {writes : List (PhysAddr × Page)}
    (h : ∀ w ∈ writes, w.1.frame ≠ frame) (memory : Memory) :
    (memory.writeAll writes).frames[frame]? = memory.frames[frame]? := by
  induction writes generalizing memory with
  | nil => rfl
  | cons w writes ih =>
    have hne : w.1.frame ≠ frame := h w List.mem_cons_self
    rw [writeAll_cons, ih fun v hv => h v (List.mem_cons_of_mem _ hv), write,
      Std.TreeMap.getElem?_insert, if_neg (by simpa using hne)]

theorem read_writeAll_other {writes : List (PhysAddr × Page)}
    (h : ∀ w ∈ writes, w.1.frame ≠ address.frame) (memory : Memory) :
    (memory.writeAll writes).read address = memory.read address := by
  rw [read, read, Std.TreeMap.getD_eq_getD_getElem?, Std.TreeMap.getD_eq_getD_getElem?,
    frames_writeAll_other h]

/-- A frame holds the page that is written to it, if it is the same one each time. -/
theorem read_writeAll {writes : List (PhysAddr × Page)}
    (written : ∃ w ∈ writes, w.1.frame = address.frame)
    (same : ∀ w ∈ writes, w.1.frame = address.frame → w.2 = page) (memory : Memory) :
    (memory.writeAll writes).read address = page := by
  induction writes generalizing memory with
  | nil =>
    obtain ⟨w, hw, -⟩ := written
    cases hw
  | cons w writes ih =>
    have hrest : ∀ v ∈ writes, v.1.frame = address.frame → v.2 = page :=
      fun v hv => same v (List.mem_cons_of_mem _ hv)
    rw [writeAll_cons]
    by_cases hagain : ∃ v ∈ writes, v.1.frame = address.frame
    · exact ih hagain hrest _
    · -- this is the last page written there
      have hrest : ∀ v ∈ writes, v.1.frame ≠ address.frame := fun v hv heq => hagain ⟨v, hv, heq⟩
      have hhere : w.1.frame = address.frame := by
        obtain ⟨v, hv, hframe⟩ := written
        rcases List.mem_cons.mp hv with rfl | hv
        · exact hframe
        · exact absurd hframe (hrest v hv)
      rw [read_writeAll_other hrest, read, ← hhere]
      exact (read_write_same memory w.1 w.2).trans (same w List.mem_cons_self hhere)

/-- Writing what frames hold leaves all of memory as it is. -/
theorem read_writeAll_self {writes : List (PhysAddr × Page)} {memory : Memory}
    (h : ∀ w ∈ writes, w.2 = memory.read w.1) (address : PhysAddr) :
    (memory.writeAll writes).read address = memory.read address := by
  by_cases hwritten : ∃ w ∈ writes, w.1.frame = address.frame
  · refine read_writeAll hwritten (fun w hw heq => ?_) memory
    rw [h w hw, read, heq, read]
  · exact read_writeAll_other (fun w hw heq => hwritten ⟨w, hw, heq⟩) memory

end Memory

namespace Arena

variable {format : Format} {a b : Arena} {memory : Memory}

/-! ## Pages of tables -/

theorem Alike.get?_none_iff (h : Alike a b) {id : TableId} :
    b.get? id = none ↔ a.get? id = none := by
  rw [get?_eq_none_iff, h.level, ← get?_eq_none_iff]

/-- A table in use is in use in the other arena, at the same level and with the same slots. -/
theorem Alike.exists_get? (h : Alike a b) {id : TableId} {t : Table} (ht : a.get? id = some t) :
    ∃ t', b.get? id = some t' ∧ t'.frame = t.frame ∧ t'.user = t.user ∧ t'.level = t.level
      ∧ t'.slots = t.slots := by
  cases ht' : b.get? id with
  | none =>
    rw [h.get?_none_iff, ht] at ht'
    cases ht'
  | some t' =>
    have hframe := h.frame id
    have huser := h.user id
    have hlevel := h.level id
    simp only [frame?, user?, level?, ht, ht', Option.map_some, Option.some.injEq] at hframe huser hlevel
    refine ⟨t', rfl, hframe, huser, hlevel, Array.ext_getElem? fun i => ?_⟩
    have hslot := h.slot id i
    rwa [slot?, slot?, ht, ht'] at hslot

theorem Alike.rawEntry (h : Alike a b) (level : Nat) (s : Slot) :
    b.rawEntry format level s = a.rawEntry format level s := by
  cases s with
  | empty => rfl
  | leaf mapping => rfl
  | large mapping => rfl
  | table child =>
    cases hchild : a.get? child with
    | none => rw [Arena.rawEntry, Arena.rawEntry, table, table, hchild, h.get?_none_iff.mpr hchild]
    | some below =>
      obtain ⟨below', hbelow', hframe, huser, -⟩ := h.exists_get? hchild
      rw [Arena.rawEntry, Arena.rawEntry, table_eq_ok hchild, table_eq_ok hbelow']
      simp only [bind, Except.bind, hframe, huser]

/-- A table is written as the same page, whatever waits. -/
theorem Alike.image (h : Alike a b) (id : TableId) : b.image format id = a.image format id := by
  cases hid : a.get? id with
  | none =>
    rw [Arena.image, Arena.image, table, table, hid, h.get?_none_iff.mpr hid]
    rfl
  | some t =>
    obtain ⟨t', ht', -, -, hlevel, hslots⟩ := h.exists_get? hid
    have hentry : b.rawEntry format t.level = a.rawEntry format t.level := funext (h.rawEntry t.level)
    rw [Arena.image, Arena.image, table_eq_ok hid, table_eq_ok ht']
    simp only [bind, Except.bind, hlevel, hslots, hentry]

/-- What a table is written as, and where. -/
def page? (format : Format) (a : Arena) (id : TableId) : Option (PhysAddr × Page) := do
  let t ← a.get? id
  let page ← (a.image format id).toOption
  return (t.frame, page)

theorem page?_eq_some_iff {id : TableId} {w : PhysAddr × Page} :
    a.page? format id = some w ↔ a.frame? id = some w.1 ∧ a.image format id = .ok w.2 := by
  cases hid : a.get? id with
  | none => simp [page?, frame?, hid]
  | some t =>
    cases himage : a.image format id with
    | error fault => simp [page?, frame?, hid, himage, Except.toOption]
    | ok page => simp [page?, frame?, hid, himage, Except.toOption, Prod.ext_iff]

theorem Alike.page? (h : Alike a b) (id : TableId) : b.page? format id = a.page? format id := by
  ext w
  rw [page?_eq_some_iff, page?_eq_some_iff, h.frame, h.image]

/-- What is written when the waiting tables are, in this order. -/
def writes (format : Format) (a : Arena) : List (PhysAddr × Page) :=
  a.pending.toList.filterMap (a.page? format)

theorem mem_writes_iff {w : PhysAddr × Page} : w ∈ a.writes format
    ↔ ∃ id ∈ a.pending, a.frame? id = some w.1 ∧ a.image format id = .ok w.2 := by
  simp only [writes, List.mem_filterMap, Array.mem_toList_iff, page?_eq_some_iff]

/-- A table can be written, unless it is not in use. -/
def Writable (format : Format) (a : Arena) (id : TableId) : Prop :=
  ∀ {t : Table}, a.get? id = some t →
    (∃ page, a.image format id = .ok page) ∧ t.frame % frameSize = 0

theorem Alike.writable (h : Alike a b) (id : TableId) :
    b.Writable format id ↔ a.Writable format id := by
  constructor
  · intro hb t ht
    obtain ⟨t', ht', hframe, -⟩ := h.exists_get? ht
    rw [← h.image, ← hframe]
    exact hb ht'
  · intro ha t' ht'
    cases ht : a.get? id with
    | none =>
      rw [h.get?_none_iff.mpr ht] at ht'
      cases ht'
    | some t =>
      obtain ⟨u, hu, hframe, -⟩ := h.exists_get? ht
      rw [hu] at ht'
      cases ht'
      rw [h.image, hframe]
      exact ha ht

/-! ## Marks -/

/-- Two arenas differ in the marks alone. -/
structure Unmarked (a b : Arena) : Prop where
  alike : Alike a b
  size : b.tables.size = a.tables.size
  vacant : b.vacant = a.vacant
  byFrame : b.byFrame = a.byFrame

theorem Unmarked.refl (a : Arena) : Unmarked a a := ⟨.refl a, rfl, rfl, rfl⟩

theorem Unmarked.trans {c : Arena} (h : Unmarked a b) (h' : Unmarked b c) : Unmarked a c :=
  ⟨h.alike.trans h'.alike, h'.size.trans h.size, h'.vacant.trans h.vacant,
    h'.byFrame.trans h.byFrame⟩

theorem unmarked_clearPending (a : Arena) : Unmarked a a.clearPending :=
  ⟨⟨fun _ => rfl, fun _ => rfl, fun _ => rfl, fun _ => rfl, fun _ _ => rfl⟩, rfl, rfl, rfl⟩

/-- A mark is taken away. -/
def unmark (a : Arena) (id : TableId) : Arena := a.modify id fun t => { t with dirty := false }

theorem get?_unmark (a : Arena) (id other : TableId) :
    (a.unmark id).get? other
      = if other = id then (a.get? id).map fun t => { t with dirty := false } else a.get? other := by
  by_cases h : other = id
  · rw [if_pos h, h, unmark, get?_modify_same]
  · rw [if_neg h, unmark, get?_modify_other _ _ h]

/-- What does not depend on marks is the same without one. -/
theorem view_unmark {α : Type} (view : Option Table → α)
    (hview : ∀ t : Table, view (some { t with dirty := false }) = view (some t))
    (a : Arena) (id other : TableId) : view ((a.unmark id).get? other) = view (a.get? other) := by
  rw [get?_unmark]
  split
  · rename_i heq
    subst heq
    cases a.get? other with
    | none => rfl
    | some t => exact hview t
  · rfl

theorem unmarked_unmark (a : Arena) (id : TableId) : Unmarked a (a.unmark id) where
  alike :=
    ⟨fun x => view_unmark (·.map Table.level) (fun _ => rfl) a id x,
      fun x => view_unmark (·.map Table.frame) (fun _ => rfl) a id x,
      fun x => view_unmark (·.map Table.user) (fun _ => rfl) a id x,
      fun x => view_unmark (·.map fun t : Table => t.slots.size) (fun _ => rfl) a id x,
      fun x i => view_unmark (·.bind fun t : Table => t.slots[i]?) (fun _ => rfl) a id x⟩
  size := by simp [unmark, modify]
  vacant := rfl
  byFrame := rfl

/-- The marks of tables are taken away. -/
def unmarkAll (a : Arena) (ids : List TableId) : Arena := ids.foldl unmark a

theorem get?_unmarkAll (a : Arena) (ids : List TableId) (x : TableId) :
    (a.unmarkAll ids).get? x
      = if x ∈ ids then (a.get? x).map fun t => { t with dirty := false } else a.get? x := by
  induction ids generalizing a with
  | nil => rfl
  | cons id ids ih =>
    show ((a.unmark id).unmarkAll ids).get? x = _
    rw [ih, get?_unmark]
    by_cases hx : x = id
    · subst hx
      cases a.get? x <;> simp
    · simp [hx]

theorem dirty?_unmarkAll (a : Arena) (ids : List TableId) (x : TableId) :
    (a.unmarkAll ids).dirty? x
      = if x ∈ ids then (a.dirty? x).map fun _ => false else a.dirty? x := by
  simp only [dirty?, get?_unmarkAll]
  split
  · cases a.get? x <;> rfl
  · rfl

theorem unmarked_unmarkAll (a : Arena) (ids : List TableId) : Unmarked a (a.unmarkAll ids) := by
  induction ids generalizing a with
  | nil => exact .refl a
  | cons id ids ih => exact (unmarked_unmark a id).trans (ih (a.unmark id))

@[simp] theorem pending_unmarkAll (a : Arena) (ids : List TableId) :
    (a.unmarkAll ids).pending = a.pending := by
  induction ids generalizing a with
  | nil => rfl
  | cons id ids ih => exact ih (a.unmark id)

/-! ## Writing -/

/-- One waiting table is written, or passed over if it is not in use. -/
theorem commitOne_eq_ok_iff {count : Nat} {id : TableId} {done : Nat × Arena × Memory} :
    commitOne format (count, a, memory) id = .ok done
      ↔ a.Writable format id ∧ done = (count + (a.page? format id).toList.length, a.unmark id,
          memory.writeAll (a.page? format id).toList) := by
  have himage : (a.modify id fun t => { t with dirty := false }).image format id = a.image format id :=
    (unmarked_unmark a id).alike.image id
  cases hid : a.get? id with
  | none =>
    have hwritable : a.Writable format id := fun ht => by rw [hid] at ht; cases ht
    have hunmark : a.unmark id = a := modify_eq_self hid _
    simp [commitOne, page?, hid, hwritable, hunmark, eq_comm]
  | some t =>
    simp only [commitOne, hid, Option.map_some, himage]
    cases hpage : a.image format id with
    | error fault =>
      have hnot : ¬ a.Writable format id := fun h => by
        obtain ⟨⟨page, hok⟩, -⟩ := h hid
        rw [hpage] at hok
        cases hok
      simp [bind, Except.bind, hnot]
    | ok page =>
      have hwritable : a.Writable format id ↔ t.frame % frameSize = 0 := by
        constructor
        · exact fun h => (h hid).2
        · intro h t' ht'
          rw [hid] at ht'
          cases ht'
          exact ⟨⟨page, hpage⟩, h⟩
      by_cases haligned : t.frame % frameSize = 0
      · simp [bind, Except.bind, Memory.checkedWrite, haligned, hwritable, page?, hid, hpage,
          Except.toOption, unmark, pure, Except.pure, eq_comm]
      · simp [bind, Except.bind, Memory.checkedWrite, haligned, hwritable]

/-- Writing tables one after another.  What is written of the later ones does not depend on the
marks taken away before. -/
theorem foldlM_commitOne_eq_ok_iff {ids : List TableId} {count : Nat} {done : Nat × Arena × Memory} :
    ids.foldlM (commitOne format) (count, a, memory) = .ok done
      ↔ (∀ id ∈ ids, a.Writable format id)
        ∧ done = (count + (ids.filterMap (a.page? format)).length, a.unmarkAll ids,
            memory.writeAll (ids.filterMap (a.page? format))) := by
  induction ids generalizing count a memory with
  | nil => simp [unmarkAll, pure, Except.pure, eq_comm]
  | cons id ids ih =>
    have hview := (unmarked_unmark a id).alike
    have hpages : (a.unmark id).page? format = a.page? format := funext fun x => hview.page? x
    have hlater : (∀ x ∈ ids, (a.unmark id).Writable format x) ↔ ∀ x ∈ ids, a.Writable format x :=
      forall₂_congr fun x _ => hview.writable x
    rw [List.foldlM_cons, List.forall_mem_cons]
    cases hone : commitOne format (count, a, memory) id with
    | error fault =>
      have hnot : ¬ a.Writable format id := fun h => by
        rw [commitOne_eq_ok_iff.mpr ⟨h, rfl⟩] at hone
        cases hone
      simp [bind, Except.bind, hnot]
    | ok next =>
      obtain ⟨hwritable, rfl⟩ := commitOne_eq_ok_iff.mp hone
      show ids.foldlM (commitOne format) _ = .ok done ↔ _
      rw [ih, hpages, hlater]
      cases hpage : a.page? format id with
      | none =>
        rw [List.filterMap_cons_none hpage]
        exact and_congr_left' (by simp [hwritable])
      | some w =>
        rw [List.filterMap_cons_some hpage]
        simp [hwritable, unmarkAll, Nat.add_assoc, Nat.add_comm 1]

/-- Writing succeeds if all tables that wait can be written.  Then these are written, and nothing
waits any more. -/
theorem commit_eq_ok_iff {done : Nat × Arena × Memory} :
    a.commit format memory = .ok done
      ↔ (∀ id ∈ a.pending, a.Writable format id)
        ∧ done = ((a.writes format).length, a.clearPending.unmarkAll a.pending.toList,
            memory.writeAll (a.writes format)) := by
  have hview := (unmarked_clearPending a).alike
  have hpages : a.clearPending.page? format = a.page? format := funext fun x => hview.page? x
  have hwritable : (∀ id ∈ a.pending.toList, a.clearPending.Writable format id)
      ↔ ∀ id ∈ a.pending, a.Writable format id := by
    simp only [Array.mem_toList_iff, hview.writable]
  rw [commit, foldlM_commitOne_eq_ok_iff, hpages, hwritable, Nat.zero_add]
  rfl

theorem commit_of_writable (h : ∀ id ∈ a.pending, a.Writable format id) (memory : Memory) :
    a.commit format memory = .ok ((a.writes format).length,
      a.clearPending.unmarkAll a.pending.toList, memory.writeAll (a.writes format)) :=
  commit_eq_ok_iff.mpr ⟨h, rfl⟩

end Arena

end KernelMemory
