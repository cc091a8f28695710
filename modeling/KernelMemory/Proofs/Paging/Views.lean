/-
  KernelMemory.Proofs.Paging.Views — what an arena shows of its tables, and what each
  operation changes of it.

  A table in use shows its level, its frame, its user bit, its slots and whether it waits to
  be written.  Names are kept in order (`Names`): a vacant name is one that was given out,
  is not in use, and is vacant once.  Then a new table gets a name that nothing else has.

  Main results:
    * `slot?_put`, `slot?_add`, `get?_remove` — the changes, slot by slot;
    * `get?_fst_add` — a new table takes over no name in use.
-/

import KernelMemory.Paging.Arena

namespace KernelMemory

namespace Arena

/-! ## The views -/

/-- A slot of a table in use. -/
def slot? (a : Arena) (id index : Nat) : Option Slot := (a.get? id).bind fun t => t.slots[index]?

/-- The level of a table in use. -/
def level? (a : Arena) (id : TableId) : Option Nat := (a.get? id).map Table.level

/-- The frame of a table in use. -/
def frame? (a : Arena) (id : TableId) : Option Nat := (a.get? id).map Table.frame

/-- Whether a table in use lets user code pass. -/
def user? (a : Arena) (id : TableId) : Option Bool := (a.get? id).map Table.user

/-- Whether a table in use waits to be written. -/
def dirty? (a : Arena) (id : TableId) : Option Bool := (a.get? id).map Table.dirty

/-- Number of slots of a table in use. -/
def width? (a : Arena) (id : TableId) : Option Nat := (a.get? id).map fun t => t.slots.size

/-- Two arenas show the same of every table, apart from what waits to be written. -/
structure Alike (a b : Arena) : Prop where
  level : ∀ id, b.level? id = a.level? id
  frame : ∀ id, b.frame? id = a.frame? id
  user : ∀ id, b.user? id = a.user? id
  width : ∀ id, b.width? id = a.width? id
  slot : ∀ id index, b.slot? id index = a.slot? id index

theorem Alike.refl (a : Arena) : Alike a a :=
  ⟨fun _ => rfl, fun _ => rfl, fun _ => rfl, fun _ => rfl, fun _ _ => rfl⟩

theorem alike_of_get? {a b : Arena} (h : ∀ id, b.get? id = a.get? id) : Alike a b := by
  constructor <;> intros <;> simp only [level?, frame?, user?, width?, slot?, h]

theorem Alike.trans {a b c : Arena} (h : Alike a b) (h' : Alike b c) : Alike a c :=
  ⟨fun id => (h'.level id).trans (h.level id), fun id => (h'.frame id).trans (h.frame id),
    fun id => (h'.user id).trans (h.user id), fun id => (h'.width id).trans (h.width id),
    fun id index => (h'.slot id index).trans (h.slot id index)⟩

theorem get?_eq_none_iff {a : Arena} {id : TableId} : a.get? id = none ↔ a.level? id = none := by
  simp [level?]

theorem frame?_of_get? {a : Arena} {id : TableId} {t : Table} (h : a.get? id = some t) :
    a.frame? id = some t.frame := by rw [frame?, h]; rfl

theorem dirty?_of_get? {a : Arena} {id : TableId} {t : Table} (h : a.get? id = some t) :
    a.dirty? id = some t.dirty := by rw [dirty?, h]; rfl

theorem exists_of_level? {a : Arena} {id level : Nat} (h : a.level? id = some level) :
    ∃ t, a.get? id = some t ∧ t.level = level := Option.map_eq_some_iff.mp h

theorem exists_of_slot? {a : Arena} {id index : Nat} {s : Slot} (h : a.slot? id index = some s) :
    ∃ t, a.get? id = some t ∧ t.slots[index]? = some s := Option.bind_eq_some_iff.mp h

/-- A table with a slot to read is in use. -/
theorem level?_of_slot? {a : Arena} {id index : Nat} {s : Slot} (h : a.slot? id index = some s) :
    ∃ level, a.level? id = some level := by
  obtain ⟨t, ht, -⟩ := exists_of_slot? h
  exact ⟨t.level, by simp [level?, ht]⟩

/-- A table in use has one level. -/
theorem level_unique {a : Arena} {id l l' : Nat} (h : a.level? id = some l)
    (h' : a.level? id = some l') : l = l' := Option.some.inj (h.symm.trans h')

/-- A table that shows a level shows a frame, a user bit and a mark. -/
theorem exists_views {a : Arena} {id level : Nat} (h : a.level? id = some level) :
    ∃ t, a.get? id = some t ∧ a.frame? id = some t.frame ∧ a.user? id = some t.user
      ∧ a.dirty? id = some t.dirty ∧ t.level = level := by
  obtain ⟨t, ht, hl⟩ := exists_of_level? h
  exact ⟨t, ht, by simp [frame?, ht], by simp [user?, ht], by simp [dirty?, ht], hl⟩

/-- There is nothing to change of a table that is not in use. -/
theorem modify_eq_self {a : Arena} {id : TableId} (h : a.get? id = none) (change : Table → Table) :
    a.modify id change = a := by
  have htables : a.tables.modify id (Option.map change) = a.tables := by
    refine Array.ext_getElem? fun i => ?_
    rw [Array.getElem?_modify]
    split
    · rename_i heq
      rw [get?, Array.getD_eq_getD_getElem?, heq] at h
      cases hi : a.tables[i]? with
      | none => rfl
      | some t =>
        rw [hi, Option.getD_some] at h
        rw [h]
        rfl
    · rfl
  rw [modify, htables]

/-! ## Marking -/

@[simp] theorem size_touch (a : Arena) (id : TableId) :
    (a.touch id).tables.size = a.tables.size := by
  unfold touch; split <;> simp

@[simp] theorem vacant_touch (a : Arena) (id : TableId) : (a.touch id).vacant = a.vacant := by
  unfold touch; split <;> rfl

@[simp] theorem byFrame_touch (a : Arena) (id : TableId) : (a.touch id).byFrame = a.byFrame := by
  unfold touch; split <;> rfl

/-- Marking changes nothing but the mark of one table. -/
theorem get?_touch (a : Arena) (id other : TableId) :
    (a.touch id).get? other
      = if other = id then (a.get? id).map fun t => { t with dirty := true } else a.get? other := by
  have hmodify : ∀ change : Table → Table, (⟨a.tables.modify id (Option.map change), a.vacant,
      a.byFrame, a.pending.push id⟩ : Arena).get? other = (a.modify id change).get? other :=
    fun _ => rfl
  unfold touch
  by_cases h : other = id
  · subst h
    simp only [if_true]
    split
    · rename_i hclean
      rw [hmodify, get?_modify_same]
    · -- a table that is marked already stays as it is
      rename_i hmark
      cases hget : a.get? other with
      | none => rfl
      | some t =>
        have hdirty : t.dirty = true := by
          cases hd : t.dirty with
          | true => rfl
          | false => exact absurd (by simp [hget, hd]) hmark
        simp only [Option.map_some]
        rw [← hdirty]
  · rw [if_neg h]
    split
    · rw [hmodify, get?_modify_other _ _ h]
    · rfl

/-- A table that was not marked is queued when it is. -/
theorem pending_touch (a : Arena) (id : TableId) :
    (a.touch id).pending = if a.dirty? id = some false then a.pending.push id else a.pending := by
  unfold touch dirty?
  split
  · rename_i hclean
    rw [if_pos hclean]
  · rename_i hmark
    rw [if_neg hmark]

/-! ## Overwriting a slot -/

theorem get?_put (a : Arena) (id index : Nat) (s : Slot) (other : TableId) :
    (a.put id index s).get? other
      = if other = id then
          (a.get? id).map fun t =>
            { t with slots := t.slots.setIfInBounds index s, dirty := true }
        else a.get? other := by
  rw [put, get?_touch]
  by_cases h : other = id
  · subst h
    simp only [if_true, get?_modify_same, Option.map_map]
    rfl
  · simp only [if_neg h, get?_modify_other _ _ h]

@[simp] theorem level?_put (a : Arena) (id index : Nat) (s : Slot) (other : TableId) :
    (a.put id index s).level? other = a.level? other := by
  simp only [level?, get?_put]
  split
  · rename_i h; subst h; cases a.get? other <;> rfl
  · rfl

@[simp] theorem frame?_put (a : Arena) (id index : Nat) (s : Slot) (other : TableId) :
    (a.put id index s).frame? other = a.frame? other := by
  simp only [frame?, get?_put]
  split
  · rename_i h; subst h; cases a.get? other <;> rfl
  · rfl

@[simp] theorem user?_put (a : Arena) (id index : Nat) (s : Slot) (other : TableId) :
    (a.put id index s).user? other = a.user? other := by
  simp only [user?, get?_put]
  split
  · rename_i h; subst h; cases a.get? other <;> rfl
  · rfl

@[simp] theorem width?_put (a : Arena) (id index : Nat) (s : Slot) (other : TableId) :
    (a.put id index s).width? other = a.width? other := by
  simp only [width?, get?_put]
  split
  · rename_i h; subst h; cases a.get? other <;> simp
  · rfl

theorem dirty?_put (a : Arena) (id index : Nat) (s : Slot) (other : TableId) :
    (a.put id index s).dirty? other
      = if other = id then (a.dirty? id).map fun _ => true else a.dirty? other := by
  simp only [dirty?, get?_put]
  split
  · cases a.get? id <;> rfl
  · rfl

/-- A write changes its own slot, if the table has it, and no other. -/
theorem slot?_put (a : Arena) (id index : Nat) (s : Slot) (other place : Nat) :
    (a.put id index s).slot? other place
      = if other = id ∧ place = index then (a.slot? id index).map fun _ => s
        else a.slot? other place := by
  simp only [slot?, get?_put]
  by_cases h : other = id
  · subst h
    cases hget : a.get? other with
    | none => simp
    | some t =>
      simp only [if_true, Option.map_some, Option.bind_some, Array.getElem?_setIfInBounds]
      by_cases hplace : place = index
      · subst hplace
        by_cases hin : place < t.slots.size <;> simp [hin]
      · simp [hplace, Ne.symm hplace]
  · simp [h]

@[simp] theorem vacant_put (a : Arena) (id index : Nat) (s : Slot) :
    (a.put id index s).vacant = a.vacant := by simp [put, modify]

@[simp] theorem byFrame_put (a : Arena) (id index : Nat) (s : Slot) :
    (a.put id index s).byFrame = a.byFrame := by simp [put, modify]

@[simp] theorem find?_put (a : Arena) (id index : Nat) (s : Slot) (frame : PhysAddr) :
    (a.put id index s).find? frame = a.find? frame := by simp [find?]

@[simp] theorem size_put (a : Arena) (id index : Nat) (s : Slot) :
    (a.put id index s).tables.size = a.tables.size := by simp [put, modify]

/-- A write to a table that is not in use changes nothing. -/
theorem put_eq_self {a : Arena} {id : TableId} (h : a.get? id = none) (index : Nat) (s : Slot) :
    a.put id index s = a := by
  rw [put, modify_eq_self h, touch, h]
  rfl

theorem pending_put (a : Arena) (id index : Nat) (s : Slot) :
    (a.put id index s).pending
      = if a.dirty? id = some false then a.pending.push id else a.pending := by
  have hdirty : (a.modify id fun t => { t with slots := t.slots.setIfInBounds index s }).dirty? id
      = a.dirty? id := by
    rw [dirty?, dirty?, get?_modify_same]
    cases a.get? id <;> rfl
  rw [put, pending_touch, hdirty]
  rfl

/-! ## Names -/

/-- Vacant names were given out, are not in use, and are vacant once. -/
structure Names (a : Arena) : Prop where
  nodup : a.vacant.Nodup
  vacant : ∀ id ∈ a.vacant, id < a.tables.size ∧ a.get? id = none

theorem names_empty : Names empty := ⟨List.nodup_nil, fun _ h => by cases h⟩

theorem get?_eq_none_of_size_le {a : Arena} {id : Nat} (h : a.tables.size ≤ id) :
    a.get? id = none := by
  simp [get?, Array.getD_eq_getD_getElem?, Array.getElem?_eq_none h]

theorem lt_size_of_get? {a : Arena} {id : Nat} {t : Table} (h : a.get? id = some t) :
    id < a.tables.size := by
  refine Nat.lt_of_not_le fun hle => ?_
  rw [get?_eq_none_of_size_le hle] at h
  cases h

theorem Names.put {a : Arena} (h : a.Names) (id index : Nat) (s : Slot) :
    (a.put id index s).Names where
  nodup := by rw [vacant_put]; exact h.nodup
  vacant := fun other ho => by
    rw [vacant_put] at ho
    obtain ⟨hlt, hnone⟩ := h.vacant other ho
    refine ⟨by rw [size_put]; exact hlt, ?_⟩
    rw [get?_eq_none_iff, level?_put, ← get?_eq_none_iff]
    exact hnone

/-! ## Adding -/

/-- The name a new table gets. -/
theorem fst_add (a : Arena) (t : Table) : (a.add t).1 = a.vacant.head?.getD a.tables.size := by
  unfold add; split <;> rename_i h <;> simp [h]

/-- The name of a new table was given out before, or is the next one. -/
theorem fst_add_le {a : Arena} (h : a.Names) (t : Table) : (a.add t).1 ≤ a.tables.size := by
  rw [fst_add]
  cases hv : a.vacant with
  | nil => exact Nat.le_refl _
  | cons id rest => exact Nat.le_of_lt (h.vacant id (by rw [hv]; exact List.mem_cons_self)).1

/-- The name of a new table was not in use. -/
theorem get?_fst_add {a : Arena} (h : a.Names) (t : Table) : a.get? (a.add t).1 = none := by
  rw [fst_add]
  cases hv : a.vacant with
  | nil => exact get?_eq_none_of_size_le (Nat.le_refl _)
  | cons id rest => exact (h.vacant id (by rw [hv]; exact List.mem_cons_self)).2

theorem get?_place {a : Arena} {id : Nat} (t : Table) (hid : id ≤ a.tables.size)
    (other : TableId) :
    (a.place id t).get? other = if other = id then some t else a.get? other := by
  simp only [place, get?, Array.getD_eq_getD_getElem?]
  by_cases hin : id < a.tables.size
  · rw [if_pos hin, Array.getElem?_setIfInBounds]
    by_cases h : other = id
    · subst h; simp [hin]
    · simp [h, Ne.symm h]
  · -- a name that was not given out is the next one: the table goes to the end
    have heq : id = a.tables.size := by omega
    rw [if_neg hin, Array.getElem?_push, heq]
    split <;> simp

theorem get?_add {a : Arena} (h : a.Names) (t : Table) (other : TableId) :
    (a.add t).2.get? other
      = if other = (a.add t).1 then some { t with dirty := true } else a.get? other := by
  unfold add
  split
  · rename_i id rest hv
    have hid := (h.vacant id (by rw [hv]; exact List.mem_cons_self)).1
    simp only [get?_touch, get?_place (a := { a with vacant := rest }) t (Nat.le_of_lt hid)]
    by_cases heq : other = id
    · simp [heq]
    · simp only [if_neg heq]; rfl
  · simp only [get?_touch, get?_place t (Nat.le_refl _)]
    by_cases heq : other = a.tables.size
    · simp [heq]
    · simp [if_neg heq]

theorem Names.add {a : Arena} (h : a.Names) (t : Table) : (a.add t).2.Names := by
  have hview := get?_add h t
  unfold Arena.add at hview ⊢
  split at hview
  · rename_i id rest hv
    have hnodup := h.nodup
    rw [hv] at hnodup
    have hid := (h.vacant id (by rw [hv]; exact List.mem_cons_self)).1
    refine ⟨by simpa [place] using (List.nodup_cons.mp hnodup).2, fun other ho => ?_⟩
    have hrest : other ∈ rest := by simpa [place] using ho
    obtain ⟨hlt, hnone⟩ := h.vacant other (by rw [hv]; exact List.mem_cons_of_mem _ hrest)
    refine ⟨by simp [place, hid, hlt], ?_⟩
    -- the name given to the new table is vacant no more
    rw [hview other, if_neg, hnone]
    rintro rfl
    exact (List.nodup_cons.mp hnodup).1 hrest
  · rename_i hv
    refine ⟨by simp [place, hv], fun other ho => ?_⟩
    simp [place, hv] at ho

theorem find?_add (a : Arena) (t : Table) (frame : PhysAddr) :
    (a.add t).2.find? frame = if frame = t.frame then some (a.add t).1 else a.find? frame := by
  have hplace : ∀ (b : Arena) (id : TableId), b.byFrame = a.byFrame →
      ((b.place id t).touch id).find? frame
        = if frame = t.frame then some id else a.find? frame := by
    intro b id hb
    simp only [find?, byFrame_touch, place, hb]
    by_cases h : frame = t.frame
    · subst h; simp
    · rw [Std.TreeMap.getElem?_insert, if_neg (by simpa using Ne.symm h), if_neg h]
  unfold add
  split <;> exact hplace _ _ rfl

/-- A new table is queued. -/
theorem pending_add {a : Arena} (h : a.Names) {t : Table} (ht : t.dirty = false) :
    (a.add t).2.pending = a.pending.push (a.add t).1 := by
  unfold add
  split
  · rename_i id rest hv
    have hid := (h.vacant id (by rw [hv]; exact List.mem_cons_self)).1
    have hclean : (({ a with vacant := rest } : Arena).place id t).dirty? id = some false := by
      rw [dirty?, get?_place (a := { a with vacant := rest }) t (Nat.le_of_lt hid), if_pos rfl,
        Option.map_some, ht]
    rw [pending_touch, if_pos hclean]
    rfl
  · have hclean : (a.place a.tables.size t).dirty? a.tables.size = some false := by
      rw [dirty?, get?_place t (Nat.le_refl _), if_pos rfl, Option.map_some, ht]
    rw [pending_touch, if_pos hclean]
    rfl

/-- The name of a new table is vacant no more. -/
theorem vacant_add (a : Arena) (t : Table) : (a.add t).2.vacant = a.vacant.tail := by
  unfold add
  split
  · rename_i id rest hv
    rw [vacant_touch, hv]
    rfl
  · rename_i hv
    rw [vacant_touch, hv, List.tail_nil]
    exact hv

/-- A new table takes a vacant name or the next one. -/
theorem size_add {a : Arena} (h : a.Names) (t : Table) :
    (a.add t).2.tables.size = max a.tables.size ((a.add t).1 + 1) := by
  unfold add
  split
  · rename_i id rest hv
    have hid := (h.vacant id (by rw [hv]; exact List.mem_cons_self)).1
    simp only [size_touch, place, if_pos hid, Array.size_setIfInBounds]
    exact (Nat.max_eq_left hid).symm
  · simp only [size_touch, place, if_neg (Nat.lt_irrefl _), Array.size_push]
    exact (Nat.max_eq_right (Nat.le_succ _)).symm

theorem level?_add {a : Arena} (h : a.Names) (t : Table) (other : TableId) :
    (a.add t).2.level? other = if other = (a.add t).1 then some t.level else a.level? other := by
  simp only [level?, get?_add h]; split <;> rfl

theorem frame?_add {a : Arena} (h : a.Names) (t : Table) (other : TableId) :
    (a.add t).2.frame? other = if other = (a.add t).1 then some t.frame else a.frame? other := by
  simp only [frame?, get?_add h]; split <;> rfl

theorem user?_add {a : Arena} (h : a.Names) (t : Table) (other : TableId) :
    (a.add t).2.user? other = if other = (a.add t).1 then some t.user else a.user? other := by
  simp only [user?, get?_add h]; split <;> rfl

theorem dirty?_add {a : Arena} (h : a.Names) (t : Table) (other : TableId) :
    (a.add t).2.dirty? other = if other = (a.add t).1 then some true else a.dirty? other := by
  simp only [dirty?, get?_add h]; split <;> rfl

theorem width?_add {a : Arena} (h : a.Names) (t : Table) (other : TableId) :
    (a.add t).2.width? other
      = if other = (a.add t).1 then some t.slots.size else a.width? other := by
  simp only [width?, get?_add h]; split <;> rfl

theorem slot?_add {a : Arena} (h : a.Names) (t : Table) (other place : Nat) :
    (a.add t).2.slot? other place
      = if other = (a.add t).1 then t.slots[place]? else a.slot? other place := by
  simp only [slot?, get?_add h]; split <;> rfl

/-- The slots of a blank table are empty. -/
theorem slots_blank (frame : PhysAddr) (level : Nat) (user : Bool) (entries place : Nat) :
    (Table.blank frame level user entries).slots[place]?
      = if place < entries then some .empty else none := by
  simp only [Table.blank, Array.getElem?_replicate]

/-! ## Removing -/

theorem fst_remove (a : Arena) (id : TableId) : (a.remove id).1 = a.frame? id := by
  unfold remove
  split <;> rename_i h <;> exact h.symm

theorem get?_remove (a : Arena) (id other : TableId) :
    (a.remove id).2.get? other = if other = id then none else a.get? other := by
  unfold remove
  split
  · rename_i h
    by_cases heq : other = id
    · subst heq; simpa using h
    · rw [if_neg heq]
  · simp only [get?, Array.getD_eq_getD_getElem?, Array.getElem?_setIfInBounds]
    by_cases heq : other = id
    · subst heq
      by_cases hin : other < a.tables.size <;> simp [hin]
    · simp [heq, Ne.symm heq]

theorem Names.remove {a : Arena} (h : a.Names) (id : TableId) : (a.remove id).2.Names := by
  have hview := get?_remove a id
  unfold Arena.remove at hview ⊢
  split at hview
  · exact h
  · rename_i frame hframe
    obtain ⟨t, ht, -⟩ := Option.map_eq_some_iff.mp hframe
    have hin := lt_size_of_get? ht
    refine ⟨List.nodup_cons.mpr ⟨fun hmem => ?_, h.nodup⟩, fun other ho => ?_⟩
    · rw [(h.vacant id hmem).2] at ht; cases ht
    · simp only [List.mem_cons] at ho
      rcases ho with rfl | ho
      · exact ⟨by simpa using hin, by rw [hview, if_pos rfl]⟩
      · obtain ⟨hlt, hnone⟩ := h.vacant other ho
        refine ⟨by simpa using hlt, ?_⟩
        rw [hview]; split
        · rfl
        · exact hnone

theorem find?_remove {a : Arena} {id : TableId} {frame : PhysAddr} (h : a.frame? id = some frame)
    (other : PhysAddr) :
    (a.remove id).2.find? other = if other = frame then none else a.find? other := by
  have hframe : (a.get? id).map Table.frame = some frame := h
  simp only [remove, hframe, find?]
  by_cases heq : other = frame
  · subst heq; simp
  · rw [Std.TreeMap.getElem?_erase, if_neg (by simpa using Ne.symm heq), if_neg heq]

@[simp] theorem size_remove (a : Arena) (id : TableId) :
    (a.remove id).2.tables.size = a.tables.size := by
  unfold remove; split <;> simp

/-- The name of a table removed is vacant. -/
theorem vacant_remove {a : Arena} {id : TableId} {t : Table} (h : a.get? id = some t) :
    (a.remove id).2.vacant = id :: a.vacant := by
  simp [remove, h]

@[simp] theorem pending_remove (a : Arena) (id : TableId) :
    (a.remove id).2.pending = a.pending := by
  unfold remove; split <;> rfl

theorem remove_eq_self {a : Arena} {id : TableId} (h : a.get? id = none) :
    a.remove id = (none, a) := by
  simp [remove, h]

/-! ## Reading -/

theorem table_eq_ok {a : Arena} {id : TableId} {t : Table} (h : a.get? id = some t) :
    a.table id = .ok t := by simp [table, h]

theorem slot_eq_ok {a : Arena} {id index : Nat} {s : Slot} (h : a.slot? id index = some s) :
    a.slot id index = .ok s := slot_eq_ok_iff.mpr (exists_of_slot? h)

theorem slotProblem_eq_none {a : Arena} {id index : Nat} {s : Slot}
    (h : a.slot? id index = some s) : a.slotProblem id index = none := by
  obtain ⟨t, ht, hs⟩ := exists_of_slot? h
  have hin := lt_size_of_get? ht
  have hlt : index < t.slots.size := (Array.getElem?_eq_some_iff.mp hs).1
  simp [slotProblem, hin, ht, hlt]

end Arena

end KernelMemory
