/-
  KernelMemory.Proofs.Paging.Sharing — new roots.

  The first root is the kernel's.  A further root gets the slots of the upper half of the
  kernel root, so what hangs from them is shared and what it maps there is the same.

  Main results:
    * `shaped_first` — a root alone is a tree;
    * `ends_shareSlots`, `Rooted.shaped` — a root that shares the upper half of the kernel's;
    * `view_of_like` — root slots that differ in attributes translate alike.
-/

import KernelMemory.Manager.Operations
import KernelMemory.Proofs.Paging.Commit

namespace KernelMemory

namespace Arena

variable {format : Format} {kernel root : TableId} {a b : Arena}

/-! ## The first root -/

/-- The slots of a first table are empty. -/
theorem slot_first {frame level : Nat} {user : Bool} {entries id i : Nat} {s : Slot}
    (hs : (empty.add (.blank frame level user entries)).2.slot? id i = some s) : s = .empty := by
  rw [slot?_add names_empty, slots_blank] at hs
  split at hs
  · split at hs
    · injection hs with hs; exact hs.symm
    · cases hs
  · simp [slot?] at hs

/-- A root alone. -/
theorem shaped_first (frame : PhysAddr) (user : Bool) :
    (empty.add (.blank frame format.topLevel user format.entries)).2.Shaped format
      (empty.add (.blank frame format.topLevel user format.entries)).1 := by
  have names := names_empty
  generalize hid : (empty.add (.blank frame format.topLevel user format.entries)).1 = root
  -- the root is the only table
  have honly : ∀ {id l : Nat}, (empty.add (.blank frame format.topLevel user format.entries)).2.level? id
      = some l → id = root ∧ l = format.topLevel := by
    intro id l hl
    rw [level?_add names, hid] at hl
    split at hl
    · rename_i heq
      injection hl with hl
      exact ⟨heq, hl.symm⟩
    · simp [level?] at hl
  refine ⟨by rw [level?_add names, hid, if_pos rfl]; rfl, fun {id l} hl => ?_, fun {id l} hl => ?_,
    fun {p i c} hs => ?_, fun {p i m} hs => ?_, fun {p i m} hs => ?_, fun {p q i j c} hs => ?_,
    fun {c l} hl hlt => ?_, fun {p i c} _ _ hs => ?_⟩
  · rw [width?_add names, hid, if_pos (honly hl).1, Table.blank, Array.size_replicate]
  · exact Nat.le_of_eq (honly hl).2
  · cases slot_first hs
  · cases slot_first hs
  · cases slot_first hs
  · cases slot_first hs
  · exact absurd (honly hl).2 (Nat.ne_of_lt hlt)
  · cases slot_first hs

/-! ## A further root -/

/-- A root was added whose slots from the split up to `upto` are the kernel root's. -/
structure Rooted (format : Format) (kernel : TableId) (a b : Arena) (root upto : Nat) : Prop where
  fresh : a.level? root = none
  level : ∀ id, b.level? id = if id = root then some format.topLevel else a.level? id
  width : ∀ id, b.width? id = if id = root then some format.entries else a.width? id
  frame : ∀ {id}, id ≠ root → b.frame? id = a.frame? id
  user : ∀ {id}, id ≠ root → b.user? id = a.user? id
  slot_root : ∀ i, b.slot? root i
    = if format.userSplit ≤ i ∧ i < upto then a.slot? kernel i
      else if i < format.entries then some .empty else none
  slot_other : ∀ {id} i, id ≠ root → b.slot? id i = a.slot? id i

theorem rooted_add (names : a.Names) (frame : PhysAddr) (user : Bool) :
    Rooted format kernel a (a.add (.blank frame format.topLevel user format.entries)).2
      (a.add (.blank frame format.topLevel user format.entries)).1 format.userSplit where
  fresh := get?_eq_none_iff.mp (get?_fst_add names _)
  level := fun id => by rw [level?_add names]; rfl
  width := fun id => by rw [width?_add names, Table.blank, Array.size_replicate]
  frame := fun {id} hne => by rw [frame?_add names, if_neg hne]
  user := fun {id} hne => by rw [user?_add names, if_neg hne]
  slot_root := fun i => by
    have hnot : ¬ (format.userSplit ≤ i ∧ i < format.userSplit) := by omega
    rw [slot?_add names, if_pos rfl, slots_blank, if_neg hnot]
  slot_other := fun {id} i hne => by rw [slot?_add names, if_neg hne]

section Rooted

variable {upto : Nat}

theorem Rooted.ne_root (h : Rooted format kernel a b root upto) {id l : Nat}
    (hl : a.level? id = some l) : id ≠ root := by
  rintro rfl
  rw [h.fresh] at hl
  cases hl

/-- No table that there was is in the frame of the root. -/
theorem Rooted.tableFrames (h : Rooted format kernel a b root upto) (books : b.Books) {f : Nat}
    (hf : b.frame? root = some (f * frameSize)) :
    f ∉ a.tableFrames ∧ b.tableFrames = insert f a.tableFrames := by
  have hne : ∀ {id frame : Nat}, a.frame? id = some frame → id ≠ root := by
    rintro id frame hid rfl
    have hget := get?_eq_none_iff.mpr h.fresh
    rw [frame?, hget] at hid
    cases hid
  refine ⟨?_, Set.ext fun g => ⟨?_, ?_⟩⟩
  · rintro ⟨id, hid⟩
    have hold : b.frame? id = some (f * frameSize) := (h.frame (hne hid)).trans hid
    exact hne hid (books.frame_inj hold hf)
  · rintro ⟨id, hid⟩
    by_cases heq : id = root
    · rw [heq, hf] at hid
      exact .inl (Nat.eq_of_mul_eq_mul_right (by decide) (Option.some.inj hid)).symm
    · rw [h.frame heq] at hid
      exact .inr ⟨id, hid⟩
  · rintro (rfl | ⟨id, hid⟩)
    · exact ⟨root, hf⟩
    · exact ⟨id, (h.frame (hne hid)).trans hid⟩

/-- One more slot is shared. -/
theorem Rooted.put (h : Rooted format kernel a b root upto) {s : Slot}
    (hsplit : format.userSplit ≤ upto) (hupto : upto < format.entries)
    (hs : a.slot? kernel upto = some s) :
    Rooted format kernel a (b.put root upto s) root (upto + 1) where
  fresh := h.fresh
  level := fun id => by rw [level?_put]; exact h.level id
  width := fun id => by rw [width?_put]; exact h.width id
  frame := fun {id} hne => by rw [frame?_put]; exact h.frame hne
  user := fun {id} hne => by rw [user?_put]; exact h.user hne
  slot_root := fun i => by
    rw [slot?_put]
    by_cases hi : i = upto
    · subst hi
      rw [if_pos ⟨rfl, rfl⟩, h.slot_root, if_neg (by omega), if_pos hupto,
        if_pos ⟨hsplit, Nat.lt_succ_self _⟩, hs]
      rfl
    · rw [if_neg fun heq => hi heq.2, h.slot_root]
      have hiff : (format.userSplit ≤ i ∧ i < upto) ↔ format.userSplit ≤ i ∧ i < upto + 1 := by
        omega
      simp only [hiff]
  slot_other := fun {id} i hne => by
    rw [slot?_put, if_neg fun heq => hne heq.1]
    exact h.slot_other i hne

/-- An empty slot is shared as it is. -/
theorem Rooted.skip (h : Rooted format kernel a b root upto)
    (hupto : upto < format.entries) (hs : a.slot? kernel upto = some .empty) :
    Rooted format kernel a b root (upto + 1) :=
  { h with
    slot_root := fun i => by
      rw [h.slot_root]
      by_cases hi : i = upto
      · subst hi
        rw [if_neg (by omega), if_pos hupto, hs]
        split <;> rfl
      · have hiff : (format.userSplit ≤ i ∧ i < upto) ↔ format.userSplit ≤ i ∧ i < upto + 1 := by
          omega
        simp only [hiff] }

theorem Rooted.alike {c : Arena} (h : Rooted format kernel a b root upto) (hbc : Alike b c) :
    Rooted format kernel a c root upto where
  fresh := h.fresh
  level := fun id => by rw [hbc.level, h.level]
  width := fun id => by rw [hbc.width, h.width]
  frame := fun {id} hne => by rw [hbc.frame, h.frame hne]
  user := fun {id} hne => by rw [hbc.user, h.user hne]
  slot_root := fun i => by rw [hbc.slot, h.slot_root]
  slot_other := fun {id} i hne => by rw [hbc.slot, h.slot_other i hne]

variable (hab : Rooted format kernel a b root format.entries)
include hab

/-- A slot of the new root is a slot of the kernel root, or empty and in the lower half. -/
theorem Rooted.slot_cases {id i : Nat} {s : Slot} (hs : b.slot? id i = some s) :
    (id = root ∧ format.userSplit ≤ i ∧ a.slot? kernel i = some s)
      ∨ (id = root ∧ i < format.userSplit ∧ s = .empty) ∨ (id ≠ root ∧ a.slot? id i = some s) := by
  have hsplit := format.userSplit_le_entries
  by_cases hid : id = root
  · subst hid
    rw [hab.slot_root] at hs
    split at hs
    · rename_i hi; exact .inl ⟨rfl, hi.1, hs⟩
    · split at hs
      · injection hs with hs
        exact .inr (.inl ⟨rfl, by omega, hs.symm⟩)
      · cases hs
  · rw [hab.slot_other i hid] at hs
    exact .inr (.inr ⟨hid, hs⟩)

/-- What a slot holds was in a slot of this index before. -/
theorem Rooted.exists_slot {id i : Nat} {s : Slot} (hs : b.slot? id i = some s) (hne : s ≠ .empty) :
    ∃ p, a.slot? p i = some s := by
  rcases hab.slot_cases hs with ⟨-, -, hs⟩ | ⟨-, -, heq⟩ | ⟨-, hs⟩
  · exact ⟨kernel, hs⟩
  · exact absurd heq hne
  · exact ⟨id, hs⟩

theorem Rooted.level_root : b.level? root = some format.topLevel := by
  rw [hab.level, if_pos rfl]

/-- The tables there were keep their levels. -/
theorem Rooted.level_kept {id l : Nat} (hl : a.level? id = some l) : b.level? id = some l := by
  rw [hab.level, if_neg (hab.ne_root hl), hl]

/-- What hung from a table hangs from it. -/
theorem Rooted.slot_kept {p i : Nat} {s : Slot} (hs : a.slot? p i = some s) :
    b.slot? p i = some s := by
  obtain ⟨l, hl⟩ := level?_of_slot? hs
  rw [hab.slot_other i (hab.ne_root hl), hs]

/-- A table or a mapping is where it was, or in the new root where it is in the kernel's. -/
theorem Rooted.slot_old {p i : Nat} {s : Slot} (hs : b.slot? p i = some s) (hne : s ≠ .empty) :
    a.slot? p i = some s ∨ (p = root ∧ format.userSplit ≤ i ∧ a.slot? kernel i = some s) := by
  rcases hab.slot_cases hs with hshared | ⟨-, -, heq⟩ | ⟨-, hs⟩
  · exact .inr hshared
  · exact absurd heq hne
  · exact .inl hs

/-- It is at the level it was at. -/
theorem Rooted.level_of_slot (h : a.Shaped format kernel) {p i l : Nat} {s : Slot}
    (hs : b.slot? p i = some s) (hne : s ≠ .empty)
    (hlevel : ∀ {q}, a.slot? q i = some s → a.level? q = some l) : b.level? p = some l := by
  rcases hab.slot_old hs hne with hs | ⟨rfl, -, hs⟩
  · exact hab.level_kept (hlevel hs)
  · rw [hab.level_root, ← h.kernel_top, hlevel hs]

/-- Two slots with one table are one, or the same upper slot of two roots. -/
theorem Rooted.parent_unique (h : a.Shaped format kernel) {p q i j c : Nat}
    (hp : b.slot? p i = some (.table c)) (hq : b.slot? q j = some (.table c)) :
    (p = q ∧ i = j) ∨ (b.level? p = some format.topLevel ∧ b.level? q = some format.topLevel
      ∧ i = j ∧ format.userSplit ≤ i) := by
  have hunique : ∀ {p q i j}, a.slot? p i = some (.table c) → a.slot? q j = some (.table c) →
      (p = q ∧ i = j) ∨ (b.level? p = some format.topLevel ∧ b.level? q = some format.topLevel
        ∧ i = j ∧ format.userSplit ≤ i) := fun hp hq =>
    (h.parent_unique hp hq).imp_right fun ⟨htop, htop', hup⟩ =>
      ⟨hab.level_kept htop, hab.level_kept htop', hup⟩
  -- each slot is old or new, and a new one is like the kernel root's
  rcases hab.slot_old hp (by simp) with hpa | ⟨rfl, hi, hpk⟩
  · rcases hab.slot_old hq (by simp) with hqa | ⟨rfl, hj, hqk⟩
    · exact hunique hpa hqa
    · rcases hunique hpa hqk with ⟨rfl, rfl⟩ | ⟨htop, -, hup⟩
      · exact .inr ⟨hab.level_kept h.kernel_top, hab.level_root, rfl, hj⟩
      · exact .inr ⟨htop, hab.level_root, hup⟩
  · rcases hab.slot_old hq (by simp) with hqa | ⟨rfl, hj, hqk⟩
    · rcases hunique hpk hqa with ⟨rfl, rfl⟩ | ⟨-, htop, hup⟩
      · exact .inr ⟨hab.level_root, hab.level_kept h.kernel_top, rfl, hi⟩
      · exact .inr ⟨hab.level_root, htop, hup⟩
    · rcases hunique hpk hqk with ⟨-, rfl⟩ | ⟨-, -, rfl, -⟩
      · exact .inl ⟨rfl, rfl⟩
      · exact .inl ⟨rfl, rfl⟩

/-- A root that shares the upper half of the kernel root keeps the shape. -/
theorem Rooted.shaped (h : a.Shaped format kernel) : b.Shaped format kernel where
  kernel_top := hab.level_kept h.kernel_top
  width := fun {id l} hl => by
    rw [hab.level] at hl
    rw [hab.width]
    split
    · rfl
    · rename_i hne
      rw [if_neg hne] at hl
      exact h.width hl
  level_le := fun {id l} hl => by
    rw [hab.level] at hl
    split at hl
    · injection hl with hl
      omega
    · exact h.level_le hl
  child := fun {p i c} hs => by
    obtain ⟨q, hq⟩ := hab.exists_slot hs (by simp)
    obtain ⟨l, -, hc⟩ := h.child hq
    refine ⟨l, hab.level_of_slot h hs (by simp) fun hs' => ?_, hab.level_kept hc⟩
    obtain ⟨l', hp, hc'⟩ := h.child hs'
    rw [hp, level_unique hc hc']
  leaf := fun {p i m} hs => by
    obtain ⟨q, hq⟩ := hab.exists_slot hs (by simp)
    exact ⟨hab.level_of_slot h hs (by simp) fun hs' => (h.leaf hs').1, (h.leaf hq).2⟩
  large := fun {p i m} hs => by
    obtain ⟨q, hq⟩ := hab.exists_slot hs (by simp)
    exact ⟨hab.level_of_slot h hs (by simp) fun hs' => (h.large hs').1, (h.large hq).2⟩
  parent_unique := hab.parent_unique h
  has_parent := fun {c l} hl hlt => by
    rw [hab.level] at hl
    split at hl
    · injection hl with hl
      omega
    · obtain ⟨p, i, hs⟩ := h.has_parent hl hlt
      exact ⟨p, i, hab.slot_kept hs⟩
  shared := fun {p i c} hp hi hs => by
    rcases hab.slot_old hs (by simp) with hs | ⟨-, -, hs⟩
    · obtain ⟨l, hl⟩ := level?_of_slot? hs
      rw [hab.level, if_neg (hab.ne_root hl)] at hp
      exact hab.slot_kept (h.shared hp hi hs)
    · exact hab.slot_kept hs

/-- The other roots map what they mapped. -/
theorem Rooted.lookup (h : a.Shaped format kernel) {r w : Nat}
    (hr : a.level? r = some format.topLevel) :
    b.lookup format w format.levels r = a.lookup format w format.levels r :=
  lookup_congr fun _ _ hx =>
    hab.slot_other _ (hab.ne_root (node?_level h.regular hr hx).2)

/-- The new root maps nothing in its lower half. -/
theorem Rooted.lookup_lower {w : Nat} (hw : format.index w format.topLevel < format.userSplit) :
    b.lookup format w format.levels root = none := by
  have hsplit := format.userSplit_le_entries
  rw [← format.topLevel_add_one, Arena.lookup, hab.slot_root, if_neg (by omega), if_pos (by omega)]

end Rooted

/-! ## Slots that differ in attributes -/

/-- Roots whose slots for an address differ in attributes at most translate it alike. -/
theorem view_of_like {r k w : Nat} {x y : Slot}
    (hx : a.slot? r (format.index w format.topLevel) = some x)
    (hy : a.slot? k (format.index w format.topLevel) = some y) (hlike : x.Like y) :
    (a.view format r w).map Prod.fst = (a.view format k w).map Prod.fst := by
  rw [view, view, ← format.topLevel_add_one, Arena.lookup, Arena.lookup, hx, hy]
  cases hlike <;> rfl

end Arena

/-! ## The steps -/

namespace Manager

open Steps TableStore

variable {format : Format} {kernel : TableId} {stock : Stock} {a : Arena} {memory : Memory}

/-- A store in which a root is being made. -/
structure Making (format : Format) (kernel : TableId) (stock : Stock) (a : Arena)
    (memory : Memory) (root upto : Nat) (s : TableStore) : Prop where
  ledger : Ledger stock s.frames s.arena
  synced : Arena.Synced format s.arena memory
  rooted : Arena.Rooted format kernel a s.arena root upto

theorem ends_shareSlots (h : a.Shaped format kernel) {root : Nat} :
    ∀ {count index : Nat} {s : TableStore}, index + count = format.entries →
      format.userSplit ≤ index → Making format kernel stock a memory root index s →
      Ends (shareSlots kernel root count index) s
        (fun _ s' => Making format kernel stock a memory root format.entries s')
        (fun _ _ => False) := by
  intro count
  induction count with
  | zero =>
    intro index s hcount _ hs
    obtain rfl : index = format.entries := by omega
    exact hs
  | succ count ih =>
    intro index s hcount hsplit hs
    have hlt : index < format.entries := by omega
    obtain ⟨x, hx⟩ := h.regular.exists_slot h.kernel_top hlt
    have hkernel := hs.rooted.ne_root h.kernel_top
    -- whatever is in the slot, it is copied and the rest goes on
    have hput : Ends (do
        TableStore.setSlot root index x
        shareSlots kernel root count (index + 1)) s
        (fun _ s' => Making format kernel stock a memory root format.entries s')
        (fun _ _ => False) := by
      have hold : s.arena.slot? root index = some .empty := by
        rw [hs.rooted.slot_root, if_neg (by omega), if_pos hlt]
      rw [ends_bind, ends_setSlot hold]
      exact ih (by omega) (by omega)
        ⟨hs.ledger.put _ _ _, hs.synced.put _ _ _, hs.rooted.put hsplit hlt hx⟩
    rw [shareSlots, ends_bind, ends_slot (by rw [hs.rooted.slot_other index hkernel]; exact hx)]
    cases x with
    | empty => exact ih (by omega) (by omega) ⟨hs.ledger, hs.synced, hs.rooted.skip hlt hx⟩
    | table child => exact hput
    | leaf mapping => exact hput
    | large mapping => exact hput

end Manager

end KernelMemory
