/-
  KernelMemory.Proofs.Paging.Changes — the two ways in which mapping changes the tables.

  A new blank table is linked into an empty slot (`Linked`), or a mapping is put into a slot
  that holds no table.  Both keep the shape of the trees and only extend slots; the first is
  seen by no lookup, the second by those whose way ends at the slot.

  Main results:
    * `Linked.regular`, `Linked.shaped`, `Linked.lookup` — a linked table;
    * `Regular.put_mapping`, `Shaped.put_mapping`, `lookup_put` — a mapping put into a slot.
-/

import KernelMemory.Proofs.Paging.Trees

namespace KernelMemory

namespace Arena

variable {format : Format} {kernel : TableId} {Shares : Nat → Prop} {a : Arena}

/-! ## A linked table -/

/-- A table added under a slot of another, as the views show it. -/
structure Linked (format : Format) (a b : Arena) (parent index level : Nat) (t : Table)
    (child : TableId) : Prop where
  fresh : a.level? child = none
  level : ∀ id, b.level? id = if id = child then some level else a.level? id
  frame : ∀ id, b.frame? id = if id = child then some t.frame else a.frame? id
  user : ∀ id, b.user? id = if id = child then some t.user else a.user? id
  width : ∀ id, b.width? id = if id = child then some format.entries else a.width? id
  slot : ∀ id i, b.slot? id i
    = if id = parent ∧ i = index then some (.table child)
      else if id = child then (if i < format.entries then some .empty else none)
      else a.slot? id i

theorem linked_add_put (format : Format) (level : Nat) (frame : PhysAddr) (user : Bool)
    (names : a.Names) {parent index : Nat} {old : Slot} (hslot : a.slot? parent index = some old) :
    Linked format a
      ((a.add (.blank frame level user format.entries)).2.put parent index
        (.table (a.add (.blank frame level user format.entries)).1))
      parent index level (.blank frame level user format.entries)
      (a.add (.blank frame level user format.entries)).1 := by
  have hfresh := get?_fst_add names (.blank frame level user format.entries)
  have hne : parent ≠ (a.add (.blank frame level user format.entries)).1 := by
    intro heq
    rw [heq] at hslot
    simp [slot?, hfresh] at hslot
  refine ⟨get?_eq_none_iff.mp hfresh, fun id => ?_, fun id => ?_, fun id => ?_, fun id => ?_,
    fun id i => ?_⟩
  · rw [level?_put, level?_add names]; rfl
  · rw [frame?_put, frame?_add names]
  · rw [user?_put, user?_add names]
  · rw [width?_put, width?_add names, Table.blank, Array.size_replicate]
  · rw [slot?_put, slot?_add names, if_neg hne, hslot, Option.map_some, slot?_add names,
      slots_blank]

variable {b : Arena} {parent index level child : Nat} {t : Table}

theorem Linked.ne_child (hab : Linked format a b parent index level t child) {id l : Nat}
    (hl : a.level? id = some l) : id ≠ child := by
  rintro rfl
  rw [hab.fresh] at hl
  cases hl

/-- The tables there were keep their levels. -/
theorem Linked.level_kept (hab : Linked format a b parent index level t child) {id l : Nat}
    (hl : a.level? id = some l) : b.level? id = some l := by
  rw [hab.level, if_neg (hab.ne_child hl), hl]

/-- The new table hangs from its parent, and nothing hangs from it. -/
theorem Linked.table_slot (hab : Linked format a b parent index level t child)
    (hslot : a.slot? parent index = some .empty) {p i c : Nat} :
    b.slot? p i = some (.table c)
      ↔ (p = parent ∧ i = index ∧ c = child) ∨ a.slot? p i = some (.table c) := by
  rw [hab.slot]
  by_cases hhere : p = parent ∧ i = index
  · rw [if_pos hhere, hhere.1, hhere.2, hslot]
    constructor
    · intro heq
      injection heq with heq
      injection heq with heq
      exact .inl ⟨rfl, rfl, heq.symm⟩
    · rintro (⟨-, -, rfl⟩ | heq)
      · rfl
      · cases heq
  · rw [if_neg hhere]
    have hright : ¬ (p = parent ∧ i = index ∧ c = child) := fun heq => hhere ⟨heq.1, heq.2.1⟩
    by_cases hchild : p = child
    · -- the new table has no table slots, and had no slots at all
      rw [if_pos hchild]
      constructor
      · intro heq
        split at heq
        · cases heq
        · cases heq
      · intro hs
        obtain ⟨l, hl⟩ := level?_of_slot? (hs.resolve_left hright)
        rw [hchild, hab.fresh] at hl
        cases hl
    · rw [if_neg hchild]
      exact ⟨.inr, fun hs => hs.resolve_left hright⟩

/-- Nothing hung from a slot by the new name before. -/
theorem Linked.not_linked (h : a.Regular format Shares)
    (hab : Linked format a b parent index level t child) {id i : Nat} :
    a.slot? id i ≠ some (.table child) := by
  intro hs
  obtain ⟨l, -, hc⟩ := h.child hs
  exact hab.ne_child hc rfl

/-- A mapping was there before. -/
theorem Linked.slot_of_mapping (hab : Linked format a b parent index level t child)
    {id i : Nat} {s : Slot} {m : Mapping} (hs : b.slot? id i = some s) (hm : s.mapping? = some m) :
    a.slot? id i = some s := by
  rw [hab.slot] at hs
  split at hs
  · injection hs with hs
    subst hs
    cases hm
  · split at hs
    · split at hs
      · injection hs with hs
        subst hs
        cases hm
      · cases hs
    · exact hs

theorem Linked.regular (h : a.Regular format Shares)
    (hab : Linked format a b parent index level t child)
    (hparent : a.level? parent = some (level + 1)) (hslot : a.slot? parent index = some .empty) :
    b.Regular format Shares where
  width := fun {id l} hl => by
    rw [hab.level] at hl
    rw [hab.width]
    split
    · rfl
    · rename_i hne
      rw [if_neg hne] at hl
      exact h.width hl
  level_le := fun {id l} hl => by
    have hle := h.level_le hparent
    rw [hab.level] at hl
    split at hl
    · injection hl with hl
      omega
    · exact h.level_le hl
  child := fun {p i c} hs => by
    rcases (hab.table_slot hslot).mp hs with ⟨rfl, -, rfl⟩ | hs
    · exact ⟨level, hab.level_kept hparent, by rw [hab.level, if_pos rfl]⟩
    · obtain ⟨l, hp, hc⟩ := h.child hs
      exact ⟨l, hab.level_kept hp, hab.level_kept hc⟩
  mapping := fun {p i s m} hs hm => by
    obtain ⟨l, hp, hpage⟩ := h.mapping (hab.slot_of_mapping hs hm) hm
    exact ⟨l, hab.level_kept hp, hpage⟩
  parent_unique := fun {p q i j c} hp hq => by
    rcases (hab.table_slot hslot).mp hp with ⟨rfl, rfl, rfl⟩ | hp
    · rcases (hab.table_slot hslot).mp hq with ⟨rfl, rfl, -⟩ | hq
      · exact .inl ⟨rfl, rfl⟩
      · exact absurd hq (hab.not_linked h)
    · rcases (hab.table_slot hslot).mp hq with ⟨-, -, rfl⟩ | hq
      · exact absurd hp (hab.not_linked h)
      · rcases h.parent_unique hp hq with heq | ⟨htop, htop', hup⟩
        · exact .inl heq
        · exact .inr ⟨hab.level_kept htop, hab.level_kept htop', hup⟩

theorem Linked.shaped (h : a.Shaped format kernel) (hab : Linked format a b parent index level t child)
    (hparent : a.level? parent = some (level + 1)) (hslot : a.slot? parent index = some .empty)
    (home : level + 1 = format.topLevel → format.userSplit ≤ index → parent = kernel) :
    b.Shaped format kernel where
  kernel_top := hab.level_kept h.kernel_top
  width := (hab.regular h.regular hparent hslot).width
  level_le := (hab.regular h.regular hparent hslot).level_le
  child := (hab.regular h.regular hparent hslot).child
  leaf := fun {p i m} hs => by
    obtain ⟨hp, hm⟩ := h.leaf (hab.slot_of_mapping hs rfl)
    exact ⟨hab.level_kept hp, hm⟩
  large := fun {p i m} hs => by
    obtain ⟨hp, hm⟩ := h.large (hab.slot_of_mapping hs rfl)
    exact ⟨hab.level_kept hp, hm⟩
  parent_unique := (hab.regular h.regular hparent hslot).parent_unique
  has_parent := fun {c l} hl hlt => by
    by_cases heq : c = child
    · exact ⟨parent, index, (hab.table_slot hslot).mpr (.inl ⟨rfl, rfl, heq⟩)⟩
    · rw [hab.level, if_neg heq] at hl
      obtain ⟨p, i, hs⟩ := h.has_parent hl hlt
      exact ⟨p, i, (hab.table_slot hslot).mpr (.inr hs)⟩
  shared := fun {p i c} hp hi hs => by
    rcases (hab.table_slot hslot).mp hs with ⟨rfl, rfl, rfl⟩ | hs
    · have htop := hab.level_kept hparent
      rw [hp] at htop
      injection htop with htop
      exact (hab.table_slot hslot).mpr (.inl ⟨(home htop.symm hi).symm, rfl, rfl⟩)
    · -- nothing hangs from the new table, so this slot is of an old root
      obtain ⟨l, hold, -⟩ := h.child hs
      have hp' : a.level? p = some format.topLevel := by
        rwa [hab.level, if_neg (hab.ne_child hold)] at hp
      exact (hab.table_slot hslot).mpr (.inr (h.shared hp' hi hs))

theorem Linked.grows (hab : Linked format a b parent index level t child)
    (hslot : a.slot? parent index = some .empty) : Grows a b := by
  have hne : ∀ {α : Type} {id : Nat} {f : Table → α} {x : α}, (a.get? id).map f = some x →
      id ≠ child := by
    rintro α id f x hx rfl
    rw [get?_eq_none_iff.mpr hab.fresh] at hx; cases hx
  refine ⟨fun {id l} hl => ?_, fun {id f} hf => ?_, fun {id u} hu => ?_, fun {id i s} hs => ?_⟩
  · rw [hab.level, if_neg (hne hl)]; exact hl
  · rw [hab.frame, if_neg (hne hf)]; exact hf
  · rw [hab.user, if_neg (hne hu)]; exact hu
  · obtain ⟨l, hl⟩ := level?_of_slot? hs
    rw [hab.slot, if_neg (hne hl)]
    split
    · rename_i heq
      rw [heq.1, heq.2, hslot] at hs
      injection hs with hs
      subst hs
      exact ⟨_, rfl, .empty _⟩
    · exact ⟨s, hs, Slot.Extends.refl s⟩

/-- A blank table in the place of an empty slot is seen by no lookup. -/
theorem Linked.lookup (h : a.Regular format Shares) (hab : Linked format a b parent index level t child)
    (hslot : a.slot? parent index = some .empty) (v : Nat) :
    ∀ {steps id l : Nat}, a.level? id = some l →
      b.lookup format v steps id = a.lookup format v steps id := by
  -- a way that enters the new table ends there, as it ended at the empty slot before
  have hblank : ∀ steps, b.lookup format v steps child = none := by
    intro steps
    cases steps with
    | zero => rfl
    | succ level' =>
      rw [Arena.lookup, hab.slot, if_neg, if_pos rfl]
      · split
        · rename_i heq; split at heq <;> cases heq
        · rename_i heq; split at heq <;> cases heq
        · rename_i heq; split at heq <;> cases heq
        · rfl
      · rintro ⟨rfl, -⟩
        obtain ⟨l, hl⟩ := level?_of_slot? hslot
        exact hab.ne_child hl rfl
  intro steps
  induction steps with
  | zero => intro id l _; rfl
  | succ level' ih =>
    intro id l hl
    rw [Arena.lookup, Arena.lookup, hab.slot, if_neg (hab.ne_child hl)]
    by_cases heq : id = parent ∧ format.index v level' = index
    · rw [if_pos heq, heq.1, heq.2, hslot]
      exact hblank level'
    · rw [if_neg heq]
      split
      · rename_i c hs
        obtain ⟨l', -, hc⟩ := h.child hs
        exact ih hc
      all_goals rfl

/-! ## A mapping put into a slot -/

/-- What a table of a level can hold of mappings. -/
inductive Maps (format : Format) : Nat → Slot → Prop where
  | leaf {m : Mapping} (aligned : m.frame % frameSize = 0) (le : m.frame ≤ format.physicalEnd) :
      Maps format 0 (.leaf m)
  | large {m : Mapping} (aligned : m.frame % format.span Format.largeLevel = 0)
      (le : m.frame ≤ format.physicalEnd) : Maps format Format.largeLevel (.large m)

theorem Maps.ne_table {l c : Nat} {s : Slot} (h : Maps format l s) : s ≠ .table c := by
  cases h <;> simp

theorem Maps.exists_page {l : Nat} {s : Slot} (h : Maps format l s) :
    ∃ m, s = Walk.pageSlot l m ∧ m.frame % format.span l = 0 ∧ m.frame < Word.bound := by
  have hend : format.physicalEnd < Word.bound :=
    Nat.lt_of_le_of_lt format.physicalEnd_le (by decide)
  cases h with
  | @leaf m aligned le =>
    exact ⟨m, rfl, by rw [Format.span_zero]; exact aligned, Nat.lt_of_le_of_lt le hend⟩
  | @large m aligned le => exact ⟨m, rfl, aligned, Nat.lt_of_le_of_lt le hend⟩

/-- A slot that is written holds what was written, and the other ones what they held. -/
theorem slot?_put_cases {id i p j : Nat} {old new s : Slot} (hslot : a.slot? id i = some old)
    (hs : (a.put id i new).slot? p j = some s) : (p = id ∧ s = new) ∨ a.slot? p j = some s := by
  rw [slot?_put] at hs
  split at hs
  · rename_i heq
    rw [hslot] at hs
    injection hs with hs
    exact .inl ⟨heq.1, hs.symm⟩
  · exact .inr hs

/-- Tables hang from the slots they hung from. -/
theorem table_slot_put {id i p j c : Nat} {old new : Slot} (hslot : a.slot? id i = some old)
    (hold : ∀ c, old ≠ .table c) (hnew : ∀ c, new ≠ .table c) :
    (a.put id i new).slot? p j = some (.table c) ↔ a.slot? p j = some (.table c) := by
  rw [slot?_put]
  split
  · rename_i heq
    rw [heq.1, heq.2, hslot]
    simp only [Option.map_some, Option.some.injEq]
    exact ⟨fun heq => absurd heq (hnew c), fun heq => absurd heq (hold c)⟩
  · rfl

theorem Regular.put_mapping (h : a.Regular format Shares) {id i l : Nat} {old : Slot} {m : Mapping}
    (hl : a.level? id = some l) (hslot : a.slot? id i = some old) (hold : ∀ c, old ≠ .table c)
    (hmod : m.frame % format.span l = 0) (hlt : m.frame < Word.bound) :
    (a.put id i (Walk.pageSlot l m)).Regular format Shares := by
  have htable : ∀ {p j c}, (a.put id i (Walk.pageSlot l m)).slot? p j = some (.table c)
      ↔ a.slot? p j = some (.table c) :=
    table_slot_put hslot hold fun c heq => by
      unfold Walk.pageSlot at heq
      split at heq <;> cases heq
  refine ⟨fun {id l} => ?_, fun {id l} => ?_, fun {p j c} => ?_, fun {p j s m'} hs hm => ?_,
    fun {p q j k c} => ?_⟩
  · rw [level?_put, width?_put]; exact h.width
  · rw [level?_put]; exact h.level_le
  · simp only [htable, level?_put]; exact h.child
  · simp only [level?_put]
    rcases slot?_put_cases hslot hs with ⟨rfl, rfl⟩ | hs
    · rw [Walk.mapping?_pageSlot] at hm
      cases hm
      exact ⟨l, hl, rfl, hmod, hlt⟩
    · exact h.mapping hs hm
  · simp only [htable, level?_put]; exact h.parent_unique

theorem Shaped.put_mapping (h : a.Shaped format kernel) {id i l : Nat} {old new : Slot}
    (hl : a.level? id = some l) (hslot : a.slot? id i = some old)
    (hold : ∀ c, old ≠ .table c) (hnew : Maps format l new) :
    (a.put id i new).Shaped format kernel := by
  have htable : ∀ {p j c}, (a.put id i new).slot? p j = some (.table c)
      ↔ a.slot? p j = some (.table c) := table_slot_put hslot hold fun _ => hnew.ne_table
  have hregular : (a.put id i new).Regular format (fun i => format.userSplit ≤ i) := by
    obtain ⟨m, rfl, hmod, hlt⟩ := hnew.exists_page
    exact h.regular.put_mapping hl hslot hold hmod hlt
  refine ⟨?_, hregular.width, hregular.level_le, hregular.child, fun {p j m} hs => ?_,
    fun {p j m} hs => ?_, hregular.parent_unique, fun {c l} => ?_, fun {p j c} => ?_⟩
  · rw [level?_put]; exact h.kernel_top
  · rw [level?_put]
    rcases slot?_put_cases hslot hs with ⟨rfl, rfl⟩ | hs
    · cases hnew with
      | leaf aligned le => exact ⟨hl, aligned, le⟩
    · exact h.leaf hs
  · rw [level?_put]
    rcases slot?_put_cases hslot hs with ⟨rfl, rfl⟩ | hs
    · cases hnew with
      | large aligned le => exact ⟨hl, aligned, le⟩
    · exact h.large hs
  · simp only [htable, level?_put]; exact h.has_parent
  · simp only [htable, level?_put]; exact h.shared

theorem grows_put {id i : Nat} {old new : Slot} (hslot : a.slot? id i = some old)
    (hext : old.Extends new) : Grows a (a.put id i new) where
  level := fun hl => by rw [level?_put]; exact hl
  frame := fun hf => by rw [frame?_put]; exact hf
  user := fun hu => by rw [user?_put]; exact hu
  slot := fun {p j s} hs => by
    rw [slot?_put]
    split
    · rename_i heq
      rw [heq.1, heq.2, hslot] at hs
      injection hs with hs
      subst hs
      exact ⟨new, by rw [hslot, Option.map_some], hext⟩
    · exact ⟨s, hs, Slot.Extends.refl s⟩

/-- A write is seen by the addresses whose way passes the slot. -/
theorem lookup_put {id i root w : Nat} {new : Slot}
    (away : ∀ d, a.node? format root w d = some id → format.index w (format.topLevel - d) ≠ i) :
    (a.put id i new).lookup format w format.levels root = a.lookup format w format.levels root := by
  refine lookup_congr fun d x hx => ?_
  rw [slot?_put, if_neg]
  rintro ⟨rfl, hi⟩
  exact away d hx hi

end Arena

end KernelMemory
