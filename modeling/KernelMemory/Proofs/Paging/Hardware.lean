/-
  KernelMemory.Proofs.Paging.Hardware — what a processor finds in memory.

  Where memory agrees with the tables, and every frame can be named by the format, a walk
  over the raw entries from the frame of a root finds what a lookup finds: the physical
  address, and the attributes that the format's entries hold.

  Main results:
    * `walkFrom_eq_lookup`, `walk_eq_view` — the walk in memory is the lookup in the tables.
-/

import KernelMemory.Paging.Inspect
import KernelMemory.Proofs.Paging.Commit
import KernelMemory.Proofs.Paging.Encoding

namespace KernelMemory

/-- The physical address and the attributes that a walk ends with. -/
def Memory.Walked.reached (walked : Memory.Walked) : Nat × PageFlags := (walked.phys, walked.flags)

namespace Arena

variable {format : Format} {kernel : TableId} {a : Arena} {memory : Memory}

/-- Every frame mapped, and every frame that holds a table, has an address that entries can
hold. -/
structure Nameable (format : Format) (a : Arena) : Prop where
  mapped : ∀ {p i : Nat} {s : Slot} {m : Mapping}, a.slot? p i = some s → s.mapping? = some m →
    m.frame < format.physicalEnd
  tables : ∀ {id frame : Nat}, a.frame? id = some frame →
    frame % frameSize = 0 ∧ frame < format.physicalEnd

/-- The unit of the addresses in entries is the page that they map. -/
theorem addressUnit_dvd (format : Format) {level : Nat}
    (hlevel : level = 0 ∨ level = Format.largeLevel) :
    format.addressUnit level ∣ format.span level := by
  rcases hlevel with rfl | rfl
  · cases format <;> exact ⟨1, rfl⟩
  · cases format
    · exact ⟨1, by decide⟩
    · exact ⟨512, by decide⟩

/-- What the processor makes of the entry of a slot. -/
theorem read_encodePage (format : Format) {level : Nat} (m : Mapping)
    (hlevel : level = 0 ∨ level = Format.largeLevel) (hlt : m.frame < format.physicalEnd)
    (hmod : m.frame % format.span level = 0) :
    RawEntry.frame format level (format.encodePage m.frame m.flags level) = m.frame := by
  refine Format.addressField_encodePage m.flags hlt ?_
  exact Nat.mod_eq_zero_of_dvd
    (Nat.dvd_trans (addressUnit_dvd format hlevel) (Nat.dvd_of_mod_eq_zero hmod))

theorem walkFrom_eq_lookup (h : a.Shaped format kernel) (nameable : Nameable format a)
    (settled : Settled format a memory) (v : Nat) :
    ∀ {level id frame : Nat}, a.level? id = some level → a.frame? id = some frame →
      (memory.walkFrom format v (level + 1) frame).map Memory.Walked.reached
        = (a.lookup format v (level + 1) id).map fun (m, l) =>
            (m.frame + v % format.span l, m.flags.heldBy format) := by
  intro level
  induction level with
  | zero =>
    intro id frame hl hf
    obtain ⟨s, hs⟩ := h.regular.exists_slot hl (format.index_lt v 0)
    have hentry := settled.written hl hf hl hs
    rw [Memory.walkFrom, lookup, hs]
    -- memory is settled, so the entry read is the one that the slot stands for
    generalize hraw : (memory.read frame).entry format.entryBytes (format.index v 0) = raw at hentry ⊢
    cases hentry with
    | empty => rfl
    | @table child _ _ hframe huser => exact absurd hs (h.regular.not_table_at_leaf hl)
    | leaf m =>
      have hm := h.leaf hs
      have hframe := read_encodePage format m (.inl rfl) (nameable.mapped hs rfl)
        (by rw [Format.span_zero]; exact hm.2.1)
      simp only [Format.isPresent_encodePage, Bool.not_true, Bool.false_eq_true, if_false, true_or,
        if_true, Option.map_some, Memory.Walked.reached, hframe, Format.flags_encodePage]
    | large m =>
      have hm := (h.large hs).1
      rw [hl] at hm
      cases hm
  | succ level ih =>
    intro id frame hl hf
    obtain ⟨s, hs⟩ := h.regular.exists_slot hl (format.index_lt v (level + 1))
    have hentry := settled.written hl hf hl hs
    rw [Memory.walkFrom, lookup, hs]
    generalize hraw : (memory.read frame).entry format.entryBytes (format.index v (level + 1)) = raw
      at hentry ⊢
    cases hentry with
    | empty => rfl
    | @table child below user hframe huser =>
      have hc := h.regular.child_level hl hs
      -- the address in the entry is that of the table below, and the walk goes on there
      obtain ⟨hmod, hlt⟩ := nameable.tables hframe
      have hread : RawEntry.frame format 0 (format.encodeTable below user) = below :=
        Format.addressField_encodeTable user hlt hmod
      simp only [Format.isPresent_encodeTable, Format.isLarge_encodeTable, Bool.not_true,
        Bool.false_eq_true, if_false, or_false, hread, Nat.succ_ne_zero]
      rw [← ih hc hframe, Option.map_map]
      rfl
    | leaf m =>
      have hm := (h.leaf hs).1
      rw [hl] at hm
      cases hm
    | large m =>
      obtain ⟨hlarge, hmod, -⟩ := h.large hs
      have hlevel := level_unique hl hlarge
      have hframe := read_encodePage format m (.inr hlevel) (nameable.mapped hs rfl)
        (by rw [hlevel]; exact hmod)
      simp only [Format.isPresent_encodePage, Format.isLarge_encodePage, Bool.not_true,
        Bool.false_eq_true, if_false, Nat.zero_lt_succ, decide_true, or_true, if_true,
        Option.map_some, Memory.Walked.reached, hframe, Format.flags_encodePage]

/-- The walk in memory from the frame of a root finds what the tables map. -/
theorem walk_eq_view (h : a.Shaped format kernel) (nameable : Nameable format a)
    (settled : Settled format a memory) {root frame : Nat}
    (hroot : a.level? root = some format.topLevel) (hframe : a.frame? root = some frame) (v : Nat) :
    (memory.walk format frame v).map Memory.Walked.reached
      = (a.view format root v).map fun (phys, flags) => (phys, flags.heldBy format) := by
  rw [Memory.walk, ← format.topLevel_add_one, walkFrom_eq_lookup h nameable settled v hroot hframe,
    view, ← format.topLevel_add_one, Option.map_map]
  rfl

end Arena

end KernelMemory
