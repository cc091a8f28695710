/-
  KernelMemory.Proofs.Paging.Trees — the shape of the page tables, and looking addresses up
  in them.

  The roots are the tables of the top level.  Below them every table hangs from one slot,
  except that what hangs from some slots of one root may hang from the same slots of the others
  (`Regular`); in the tables of the memory manager those are slots of the upper half, which the
  kernel root has too (`Shaped`).  So two ways down that meet at a table came the same way
  (`node?_unique`), and a change of one slot is seen by the addresses of that slot alone.

  Main results:
    * `cover_eq_lookup`, `resolve_eq_view` — the walk over regular tables never faults and
      is the total function `lookup`;
    * `node?_unique` — a table is reached by one way, but for the slots that roots share;
    * `lookup_congr` — a lookup sees only the slots on its way;
    * `lookup_grows` — what was mapped keeps its frame as slots are filled.
-/

import KernelMemory.Proofs.Paging.Indexing
import KernelMemory.Proofs.Paging.Views

namespace KernelMemory

/-! ## Slots -/

namespace Slot

/-- What mapping may make of a slot: an empty one can be filled, a mapping can get other
attributes, a table stays. -/
inductive Extends : Slot → Slot → Prop where
  | empty (s : Slot) : Extends .empty s
  | table (child : TableId) : Extends (.table child) (.table child)
  | leaf (frame : PhysAddr) (f g : PageFlags) : Extends (.leaf ⟨frame, f⟩) (.leaf ⟨frame, g⟩)
  | large (frame : PhysAddr) (f g : PageFlags) : Extends (.large ⟨frame, f⟩) (.large ⟨frame, g⟩)

/-- Two slots differ in attributes at most. -/
inductive Like : Slot → Slot → Prop where
  | empty : Like .empty .empty
  | table (child : TableId) : Like (.table child) (.table child)
  | leaf (frame : PhysAddr) (f g : PageFlags) : Like (.leaf ⟨frame, f⟩) (.leaf ⟨frame, g⟩)
  | large (frame : PhysAddr) (f g : PageFlags) : Like (.large ⟨frame, f⟩) (.large ⟨frame, g⟩)

theorem Like.refl (s : Slot) : Like s s := by
  cases s with
  | empty => exact .empty
  | table child => exact .table child
  | leaf mapping => exact .leaf _ _ _
  | large mapping => exact .large _ _ _

theorem Like.trans {s t u : Slot} (h : Like s t) (h' : Like t u) : Like s u := by
  cases h with
  | empty => exact h'
  | table child => exact h'
  | leaf frame f g => cases h'; exact .leaf _ _ _
  | large frame f g => cases h'; exact .large _ _ _

theorem Like.extends {s t : Slot} (h : Like s t) : Extends s t := by
  cases h with
  | empty => exact .empty _
  | table child => exact .table child
  | leaf frame f g => exact .leaf frame f g
  | large frame f g => exact .large frame f g

theorem Extends.refl (s : Slot) : Extends s s := (Like.refl s).extends

theorem Extends.trans {s t u : Slot} (h : Extends s t) (h' : Extends t u) : Extends s u := by
  cases h with
  | empty => exact .empty _
  | table child => exact h'
  | leaf frame f g => cases h'; exact .leaf _ _ _
  | large frame f g => cases h'; exact .large _ _ _

/-- The mapping a slot holds. -/
def mapping? : Slot → Option Mapping
  | .leaf mapping => some mapping
  | .large mapping => some mapping
  | _ => none

end Slot

@[simp] theorem Walk.mapping?_pageSlot (target : Nat) (m : Mapping) :
    (Walk.pageSlot target m).mapping? = some m := by
  unfold Walk.pageSlot
  split <;> rfl

namespace Arena

/-! ## Shape -/

/-- What a walk relies on.  `Shares` tells which slots of roots may lead to the same tables. -/
structure Regular (format : Format) (Shares : Nat → Prop) (a : Arena) : Prop where
  width : ∀ {id l}, a.level? id = some l → a.width? id = some format.entries
  level_le : ∀ {id l : Nat}, a.level? id = some l → l ≤ format.topLevel
  /-- A table slot names a table in use one level down. -/
  child : ∀ {p i c}, a.slot? p i = some (.table c) →
    ∃ l, a.level? p = some (l + 1) ∧ a.level? c = some l
  /-- A mapping is a page of the size that its table maps. -/
  mapping : ∀ {p i s m}, a.slot? p i = some s → s.mapping? = some m →
    ∃ l, a.level? p = some l ∧ s = Walk.pageSlot l m ∧ m.frame % format.span l = 0
      ∧ m.frame < Word.bound
  /-- A table hangs from one slot, or from one slot of several roots. -/
  parent_unique : ∀ {p q i j c : Nat}, a.slot? p i = some (.table c) →
    a.slot? q j = some (.table c) →
      (p = q ∧ i = j) ∨ (a.level? p = some format.topLevel ∧ a.level? q = some format.topLevel
        ∧ i = j ∧ Shares i)

/-- The shape of the page tables.  `kernel` is the kernel root. -/
structure Shaped (format : Format) (kernel : TableId) (a : Arena) : Prop where
  kernel_top : a.level? kernel = some format.topLevel
  width : ∀ {id l}, a.level? id = some l → a.width? id = some format.entries
  level_le : ∀ {id l : Nat}, a.level? id = some l → l ≤ format.topLevel
  /-- A table slot names a table in use one level down. -/
  child : ∀ {p i c}, a.slot? p i = some (.table c) →
    ∃ l, a.level? p = some (l + 1) ∧ a.level? c = some l
  leaf : ∀ {p i m}, a.slot? p i = some (.leaf m) →
    a.level? p = some 0 ∧ m.frame % frameSize = 0 ∧ m.frame ≤ format.physicalEnd
  large : ∀ {p i m}, a.slot? p i = some (.large m) →
    a.level? p = some Format.largeLevel ∧ m.frame % format.span Format.largeLevel = 0
      ∧ m.frame ≤ format.physicalEnd
  /-- A table hangs from one slot, or from one slot of the upper half of roots. -/
  parent_unique : ∀ {p q i j c : Nat}, a.slot? p i = some (.table c) →
    a.slot? q j = some (.table c) →
      (p = q ∧ i = j) ∨ (a.level? p = some format.topLevel ∧ a.level? q = some format.topLevel
        ∧ i = j ∧ format.userSplit ≤ i)
  /-- A table that is no root hangs from some slot. -/
  has_parent : ∀ {c l : Nat}, a.level? c = some l → l < format.topLevel →
    ∃ p i, a.slot? p i = some (.table c)
  /-- What hangs from the upper half of a root hangs from the kernel root. -/
  shared : ∀ {p i c : Nat}, a.level? p = some format.topLevel → format.userSplit ≤ i →
    a.slot? p i = some (.table c) → a.slot? kernel i = some (.table c)

variable {format : Format} {kernel : TableId} {Shares : Nat → Prop} {a b : Arena}

theorem Shaped.regular (h : a.Shaped format kernel) :
    a.Regular format (fun i => format.userSplit ≤ i) where
  width := h.width
  level_le := h.level_le
  child := h.child
  mapping := fun {p i s m} hs hm => by
    have hend : format.physicalEnd < Word.bound :=
      Nat.lt_of_le_of_lt format.physicalEnd_le (by decide)
    cases s with
    | empty => cases hm
    | table child => cases hm
    | leaf mapping =>
      cases hm
      obtain ⟨hl, hmod, hle⟩ := h.leaf hs
      exact ⟨0, hl, rfl, by rw [Format.span_zero]; exact hmod, Nat.lt_of_le_of_lt hle hend⟩
    | large mapping =>
      cases hm
      obtain ⟨hl, hmod, hle⟩ := h.large hs
      exact ⟨Format.largeLevel, hl, rfl, hmod, Nat.lt_of_le_of_lt hle hend⟩
  parent_unique := h.parent_unique

theorem Shaped.alike (h : a.Shaped format kernel) (hab : Alike a b) : b.Shaped format kernel where
  kernel_top := by rw [hab.level]; exact h.kernel_top
  width := fun {id l} hl => by rw [hab.width]; rw [hab.level] at hl; exact h.width hl
  level_le := fun {id l} hl => by rw [hab.level] at hl; exact h.level_le hl
  child := fun {p i c} hs => by
    rw [hab.slot] at hs; simp only [hab.level]; exact h.child hs
  leaf := fun {p i m} hs => by rw [hab.slot] at hs; rw [hab.level]; exact h.leaf hs
  large := fun {p i m} hs => by rw [hab.slot] at hs; rw [hab.level]; exact h.large hs
  parent_unique := fun {p q i j c} hp hq => by
    rw [hab.slot] at hp hq; simp only [hab.level]; exact h.parent_unique hp hq
  has_parent := fun {c l} hl hlt => by
    rw [hab.level] at hl; simp only [hab.slot]; exact h.has_parent hl hlt
  shared := fun {p i c} hp hi hs => by
    rw [hab.level] at hp; rw [hab.slot] at hs ⊢; exact h.shared hp hi hs

theorem Shaped.slot_lt (h : a.Shaped format kernel) {id i : Nat} {s : Slot}
    (hs : a.slot? id i = some s) : i < format.entries := by
  obtain ⟨t, ht, hslot⟩ := exists_of_slot? hs
  have hwidth := h.width (show a.level? id = some t.level by simp [level?, ht])
  simp only [width?, ht, Option.map_some, Option.some.injEq] at hwidth
  rw [← hwidth]
  exact (Array.getElem?_eq_some_iff.mp hslot).1

/-- A table in use has every slot of the format. -/
theorem Regular.exists_slot (h : a.Regular format Shares) {id l i : Nat}
    (hl : a.level? id = some l) (hi : i < format.entries) : ∃ s, a.slot? id i = some s := by
  obtain ⟨t, ht, -⟩ := exists_of_level? hl
  have hwidth := h.width hl
  simp only [width?, ht, Option.map_some, Option.some.injEq] at hwidth
  have hlt : i < t.slots.size := by omega
  exact ⟨t.slots[i], by simp [slot?, ht, hwidth, hi]⟩

theorem Regular.not_table_at_leaf (h : a.Regular format Shares) {p i c : Nat}
    (hl : a.level? p = some 0) : a.slot? p i ≠ some (.table c) := by
  intro hs
  obtain ⟨l, hp, -⟩ := h.child hs
  cases level_unique hl hp

/-- A table that hangs from another is one level down. -/
theorem Regular.child_level (h : a.Regular format Shares) {p i c l : Nat}
    (hl : a.level? p = some (l + 1)) (hs : a.slot? p i = some (.table c)) : a.level? c = some l := by
  obtain ⟨l', hp, hc⟩ := h.child hs
  obtain rfl : l' = l := Nat.succ.inj (level_unique hp hl)
  exact hc

/-- A table below a root is no root. -/
theorem Shaped.child_lt_top (h : a.Shaped format kernel) {p i c l : Nat}
    (hs : a.slot? p i = some (.table c)) (hl : a.level? c = some l) : l < format.topLevel := by
  obtain ⟨l', hp, hc⟩ := h.child hs
  have hle := h.level_le hp
  rw [level_unique hl hc]
  omega

/-! ## Lookups -/

/-- The mapping of an address in the table at level `steps - 1` and below, with its level.
Where the walk would fault there is no mapping. -/
def lookup (format : Format) (a : Arena) (v : Nat) : (steps : Nat) → TableId → Option (Mapping × Nat)
  | 0, _ => none
  | level + 1, id =>
    match a.slot? id (format.index v level) with
    | some (.table child) => lookup format a v level child
    | some (.leaf mapping) => some (mapping, level)
    | some (.large mapping) => some (mapping, level)
    | _ => none

/-- The physical address and the attributes that an address is mapped with. -/
def view (format : Format) (a : Arena) (root : TableId) (v : Nat) : Option (Nat × PageFlags) :=
  (a.lookup format v format.levels root).map fun (mapping, level) =>
    (mapping.frame + v % format.span level, mapping.flags)

theorem coverFrom_eq_lookup (h : a.Regular format Shares) (v : Nat) :
    ∀ {level id : Nat}, a.level? id = some level →
      Walk.coverFrom format a v (level + 1) id = .ok (a.lookup format v (level + 1) id) := by
  intro level
  induction level with
  | zero =>
    intro id hl
    obtain ⟨s, hs⟩ := h.exists_slot hl (format.index_lt v 0)
    rw [Walk.coverFrom, lookup, slot_eq_ok hs, hs]
    cases s with
    | table child => exact absurd hs (h.not_table_at_leaf hl)
    | _ => rfl
  | succ level ih =>
    intro id hl
    obtain ⟨s, hs⟩ := h.exists_slot hl (format.index_lt v (level + 1))
    rw [Walk.coverFrom, lookup, slot_eq_ok hs, hs]
    cases s with
    | table child => exact ih (h.child_level hl hs)
    | _ => rfl

theorem cover_eq_lookup (h : a.Regular format Shares) {root : TableId}
    (hroot : a.level? root = some format.topLevel) (v : Nat) :
    Walk.cover format a root v = .ok (a.lookup format v format.levels root) := by
  rw [Walk.cover, ← format.topLevel_add_one]
  exact coverFrom_eq_lookup h v hroot

/-- Looking for a leaf finds what a lookup finds, unless that is a large page. -/
theorem leafFrom_eq_lookup (h : a.Shaped format kernel) (v : Nat) :
    ∀ {level id : Nat}, a.level? id = some level →
      Walk.leafFrom format a v level id = .ok ((a.lookup format v (level + 1) id).bind
        fun (mapping, l) => if l = 0 then some mapping else none) := by
  intro level
  induction level with
  | zero =>
    intro id hl
    obtain ⟨s, hs⟩ := h.regular.exists_slot hl (format.index_lt v 0)
    rw [Walk.leafFrom, lookup, slot_eq_ok hs, hs]
    cases s with
    | table child => exact absurd hs (h.regular.not_table_at_leaf hl)
    | large m =>
      have hlarge := (h.large hs).1
      rw [hl] at hlarge
      cases hlarge
    | _ => rfl
  | succ level ih =>
    intro id hl
    obtain ⟨s, hs⟩ := h.regular.exists_slot hl (format.index_lt v (level + 1))
    rw [Walk.leafFrom, lookup, slot_eq_ok hs, hs]
    cases s with
    | table child => exact ih (h.regular.child_level hl hs)
    | leaf m =>
      have hleaf := (h.leaf hs).1
      rw [hl] at hleaf
      cases hleaf
    | _ => rfl

/-- A mapping that a lookup finds is in a slot of that level. -/
theorem exists_slot_of_lookup {v : Nat} {m : Mapping} {l : Nat} :
    ∀ {steps id : Nat}, a.lookup format v steps id = some (m, l) →
      l < steps ∧ ∃ p, a.slot? p (format.index v l) = some (.leaf m)
        ∨ a.slot? p (format.index v l) = some (.large m) := by
  intro steps
  induction steps with
  | zero => intro id h; simp [lookup] at h
  | succ level ih =>
    intro id h
    rw [lookup] at h
    split at h
    · obtain ⟨hlt, p, hp⟩ := ih h
      exact ⟨by omega, p, hp⟩
    · rename_i mapping hs
      simp only [Option.some.injEq, Prod.mk.injEq] at h
      obtain ⟨rfl, rfl⟩ := h
      exact ⟨by omega, id, .inl hs⟩
    · rename_i mapping hs
      simp only [Option.some.injEq, Prod.mk.injEq] at h
      obtain ⟨rfl, rfl⟩ := h
      exact ⟨by omega, id, .inr hs⟩
    · cases h

/-- In tables of the right shape that is a leaf at level 0, or a large page. -/
theorem Shaped.slot_of_lookup (h : a.Shaped format kernel) {v : Nat} {m : Mapping} {l : Nat} :
    ∀ {level id : Nat}, a.level? id = some level → a.lookup format v (level + 1) id = some (m, l) →
      ∃ p, l = 0 ∧ a.slot? p (format.index v l) = some (.leaf m)
        ∨ l = Format.largeLevel ∧ a.slot? p (format.index v l) = some (.large m) := by
  intro level
  induction level with
  | zero =>
    intro id hlevel hlookup
    rw [lookup] at hlookup
    split at hlookup
    · rename_i child hs
      exact absurd hs (h.regular.not_table_at_leaf hlevel)
    · rename_i mapping hs
      cases hlookup
      exact ⟨id, .inl ⟨rfl, hs⟩⟩
    · rename_i mapping hs
      cases level_unique hlevel (h.large hs).1
    · cases hlookup
  | succ level ih =>
    intro id hlevel hlookup
    rw [lookup] at hlookup
    split at hlookup
    · rename_i child hs
      obtain ⟨below, habove, hbelow⟩ := h.child hs
      cases level_unique hlevel habove
      exact ih hbelow hlookup
    · rename_i mapping hs
      cases level_unique hlevel (h.leaf hs).1
    · rename_i mapping hs
      have hlarge := level_unique hlevel (h.large hs).1
      cases hlookup
      exact ⟨id, .inr ⟨hlarge, hs⟩⟩
    · cases hlookup

/-- The address that a lookup translates to is a word. -/
theorem Shaped.lookup_lt (h : a.Shaped format kernel) {v root l : Nat} {m : Mapping}
    (hlookup : a.lookup format v format.levels root = some (m, l)) :
    m.frame + v % format.span l < Word.bound := by
  obtain ⟨hlt, p, hp⟩ := exists_slot_of_lookup hlookup
  have hlevels := format.topLevel_add_one
  have hspan := format.span_le (show l ≤ format.topLevel by omega)
  have hmod := Nat.mod_lt v (format.span_pos l)
  have hend := format.physicalEnd_le
  have hframe : m.frame ≤ format.physicalEnd := by
    rcases hp with hp | hp
    · exact (h.leaf hp).2.2
    · exact (h.large hp).2.2
  generalize hx : v % format.span l = x at *
  have : m.frame + x ≤ 2 ^ 52 + 2 ^ 39 := Nat.add_le_add (Nat.le_trans hframe hend) (by omega)
  exact Nat.lt_of_le_of_lt this (by decide)

theorem resolve_eq_view (h : a.Shaped format kernel) {root : TableId}
    (hroot : a.level? root = some format.topLevel) (v : Nat) :
    Walk.resolve format a root v = .ok ((a.view format root v).map Prod.fst) := by
  rw [Walk.resolve, cover_eq_lookup h.regular hroot, view]
  cases hl : a.lookup format v format.levels root with
  | none => rfl
  | some found =>
    obtain ⟨m, l⟩ := found
    have hadd : Word.add m.frame (v % format.span l) = .ok (m.frame + v % format.span l) :=
      Word.add_eq_ok_iff.mpr ⟨h.lookup_lt hl, rfl⟩
    simp only [bind, Except.bind, hadd]
    rfl

theorem lookup_alike (hab : Alike a b) (v : Nat) :
    ∀ steps id, b.lookup format v steps id = a.lookup format v steps id := by
  intro steps
  induction steps with
  | zero => intro id; rfl
  | succ level ih => intro id; simp only [lookup, hab.slot, ih]

/-! ## Ways down -/

/-- The table that an address passes on its way down from a root, `depth` levels below it. -/
def node? (format : Format) (a : Arena) (root : TableId) (v : Nat) : (depth : Nat) → Option TableId
  | 0 => some root
  | depth + 1 => (node? format a root v depth).bind fun id =>
    match a.slot? id (format.index v (format.topLevel - depth)) with
    | some (.table child) => some child
    | _ => none

theorem node?_succ_iff {root v d c : Nat} :
    a.node? format root v (d + 1) = some c
      ↔ ∃ p, a.node? format root v d = some p
        ∧ a.slot? p (format.index v (format.topLevel - d)) = some (.table c) := by
  rw [node?, Option.bind_eq_some_iff]
  refine exists_congr fun p => and_congr_right fun _ => ?_
  split
  · rename_i child hs; simp [hs]
  · rename_i hne
    constructor
    · intro h; cases h
    · intro h; exact absurd h (hne c)

theorem node?_level (h : a.Regular format Shares) {root v : Nat}
    (hroot : a.level? root = some format.topLevel) :
    ∀ {d id : Nat}, a.node? format root v d = some id →
      d ≤ format.topLevel ∧ a.level? id = some (format.topLevel - d) := by
  intro d
  induction d with
  | zero =>
    intro id hid
    rw [node?] at hid; injection hid with hid
    subst hid
    exact ⟨Nat.zero_le _, hroot⟩
  | succ d ih =>
    intro id hid
    obtain ⟨p, hp, hs⟩ := node?_succ_iff.mp hid
    obtain ⟨hd, hlp⟩ := ih hp
    obtain ⟨l, hlp', hlc⟩ := h.child hs
    have hl := level_unique hlp hlp'
    exact ⟨by omega, by rw [hlc]; congr 1; omega⟩

/-- A way down passes one table of the top level, the root it starts from. -/
theorem node?_top (h : a.Shaped format kernel) {root v d id : Nat}
    (hroot : a.level? root = some format.topLevel) (hid : a.node? format root v d = some id)
    (htop : a.level? id = some format.topLevel) : d = 0 ∧ id = root := by
  obtain ⟨hle, hlevel⟩ := node?_level h.regular hroot hid
  have heq := level_unique htop hlevel
  have hpos := format.topLevel_pos
  obtain rfl : d = 0 := by omega
  rw [node?] at hid
  injection hid with hid
  exact ⟨rfl, hid.symm⟩

/-- Two ways down that meet have all indices above in common, and start at one root unless
they go through a slot that roots share. -/
theorem node?_unique (h : a.Regular format Shares) {r r' v w : Nat}
    (hr : a.level? r = some format.topLevel) :
    ∀ {d x : Nat}, a.node? format r v d = some x → a.node? format r' w d = some x →
      (∀ k, k < d → format.index v (format.topLevel - k) = format.index w (format.topLevel - k))
        ∧ (r = r' ∨ (0 < d ∧ Shares (format.index v format.topLevel))) := by
  intro d
  induction d with
  | zero =>
    intro x hx hx'
    rw [node?] at hx hx'
    injection hx with hx; injection hx' with hx'
    exact ⟨fun k hk => absurd hk (Nat.not_lt_zero k), .inl (hx.trans hx'.symm)⟩
  | succ d ih =>
    intro x hx hx'
    obtain ⟨p, hp, hs⟩ := node?_succ_iff.mp hx
    obtain ⟨q, hq, hs'⟩ := node?_succ_iff.mp hx'
    obtain ⟨hdle, hlp⟩ := node?_level h hr hp
    -- the last tables passed are one table, or both are roots that share it
    rcases h.parent_unique hs hs' with ⟨rfl, hindex⟩ | ⟨hptop, -, hindex, hsplit⟩
    · obtain ⟨habove, hroots⟩ := ih hp hq
      refine ⟨fun k hk => ?_, hroots.imp_right fun hup => ⟨by omega, hup.2⟩⟩
      rcases Nat.lt_succ_iff_lt_or_eq.mp hk with hlt | rfl
      · exact habove k hlt
      · exact hindex
    · -- the parents are roots: both ways have come down one level
      rw [hptop] at hlp; injection hlp with hlp
      obtain rfl : d = 0 := by omega
      refine ⟨fun k hk => ?_, .inr ⟨by omega, ?_⟩⟩
      · obtain rfl : k = 0 := by omega
        exact hindex
      · simpa using hsplit

/-- Two ways down to one slot of a table have all indices from that level up in common, and
start at one root unless they go through a slot that roots share. -/
theorem together_of_node? (h : a.Regular format Shares) {r r' v w target d id : Nat}
    (hr : a.level? r = some format.topLevel) (hr' : a.level? r' = some format.topLevel)
    (htarget : target ≤ format.topLevel)
    (hv : a.node? format r v (format.topLevel - target) = some id)
    (hw : a.node? format r' w d = some id)
    (hindex : format.index w (format.topLevel - d) = format.index v target) :
    format.Together target v w
      ∧ (r = r' ∨ Shares (format.index v format.topLevel)) := by
  -- both ways come down as many levels
  obtain ⟨hdle, hlevel⟩ := node?_level h hr' hw
  obtain ⟨-, hlevel'⟩ := node?_level h hr hv
  have heq := level_unique hlevel hlevel'
  obtain rfl : d = format.topLevel - target := by omega
  obtain ⟨habove, hroots⟩ := node?_unique h hr hv hw
  rw [Nat.sub_sub_self htarget] at hindex
  refine ⟨fun l hl hle => ?_, hroots.imp_right And.right⟩
  rcases Nat.lt_or_eq_of_le hl with hlt | rfl
  · have hcommon := habove (format.topLevel - l) (by omega)
    rwa [Nat.sub_sub_self hle] at hcommon
  · exact hindex.symm

/-- A lookup goes on from every table that the address passes. -/
theorem lookup_of_node? {root v : Nat} : ∀ {d id : Nat}, d ≤ format.topLevel →
    a.node? format root v d = some id →
      a.lookup format v format.levels root = a.lookup format v (format.topLevel - d + 1) id := by
  intro d
  induction d with
  | zero =>
    intro id _ hid
    rw [node?] at hid
    injection hid with hid
    rw [hid, Nat.sub_zero, format.topLevel_add_one]
  | succ d ih =>
    intro id hd hid
    obtain ⟨p, hp, hs⟩ := node?_succ_iff.mp hid
    rw [ih (by omega) hp, lookup, hs]
    show a.lookup format v (format.topLevel - d) id = _
    congr 1
    omega

/-- The mapping in the slot that an address comes to is what its lookup finds. -/
theorem lookup_of_mapping {root v l id : Nat} {x : Slot} {m : Mapping} (hl : l ≤ format.topLevel)
    (hid : a.node? format root v (format.topLevel - l) = some id)
    (hx : a.slot? id (format.index v l) = some x) (hm : x.mapping? = some m) :
    a.lookup format v format.levels root = some (m, l) := by
  rw [lookup_of_node? (Nat.sub_le _ _) hid, Nat.sub_sub_self hl, lookup, hx]
  cases x with
  | empty => cases hm
  | table child => cases hm
  | leaf mapping => injection hm with hm; rw [hm]
  | large mapping => injection hm with hm; rw [hm]

/-- Nothing is found below an empty slot of the root. -/
theorem lookup_of_empty {root v : Nat}
    (hx : a.slot? root (format.index v format.topLevel) = some .empty) :
    a.lookup format v format.levels root = none := by
  rw [← format.topLevel_add_one, lookup, hx]

/-- What is translated to another place of a large page than its own is in a small page. -/
theorem Shaped.lookup_of_apart (h : a.Shaped format kernel) {root v p : Nat} {flags : PageFlags}
    (hl : a.level? root = some format.topLevel) (hview : a.view format root v = some (p, flags))
    (hapart : p % format.span Format.largeLevel ≠ v % format.span Format.largeLevel) :
    ∃ mapping, a.lookup format v format.levels root = some (mapping, 0)
      ∧ mapping.frame + v % format.span 0 = p := by
  obtain ⟨⟨mapping, l⟩, hlookup, heq⟩ := Option.map_eq_some_iff.mp hview
  injection heq with hsum
  have hsteps := hlookup
  rw [← format.topLevel_add_one] at hsteps
  obtain ⟨id, ⟨rfl, -⟩ | ⟨rfl, hslot⟩⟩ := h.slot_of_lookup hl hsteps
  · exact ⟨mapping, hlookup, hsum⟩
  · -- a large page starts at a multiple of its size, so its places stay what they are
    have hframe := (h.large hslot).2.1
    rw [← hsum, Nat.add_mod, hframe, Nat.zero_add, Nat.mod_mod, Nat.mod_mod] at hapart
    exact absurd rfl hapart

/-- On the way to a small page there is a table below the root. -/
theorem exists_child_of_lookup {root v : Nat} {m : Mapping}
    (hlookup : a.lookup format v format.levels root = some (m, 0)) :
    ∃ child, a.slot? root (format.index v format.topLevel) = some (.table child) := by
  have htop : 0 ≠ format.topLevel := by cases format <;> decide
  rw [← format.topLevel_add_one, lookup] at hlookup
  split at hlookup
  · rename_i child hs
    exact ⟨child, hs⟩
  · injection hlookup with heq
    injection heq with hm hzero
    exact absurd hzero.symm htop
  · injection hlookup with heq
    injection heq with hm hzero
    exact absurd hzero.symm htop
  · cases hlookup

/-- Addresses with the indices in common that a lookup passes find the same. -/
theorem lookup_together {v w l : Nat} {m : Mapping} :
    ∀ {steps id : Nat}, (∀ k, l ≤ k → k < steps → format.index v k = format.index w k) →
      a.lookup format v steps id = some (m, l) → a.lookup format w steps id = some (m, l) := by
  intro steps
  induction steps with
  | zero => intro id _ h; exact absurd h (by simp [lookup])
  | succ level ih =>
    intro id hindex h
    have hle : l ≤ level := Nat.lt_succ_iff.mp (exists_slot_of_lookup h).1
    rw [lookup] at h ⊢
    rw [← hindex level hle (Nat.lt_succ_self level)]
    split at h
    · exact ih (fun k hk hlt => hindex k hk (by omega)) h
    · exact h
    · exact h
    · cases h

/-- A lookup sees of the address only the indices. -/
theorem lookup_congr_address {v w : Nat} : ∀ {steps id : Nat},
    (∀ k, k < steps → format.index v k = format.index w k) →
      a.lookup format v steps id = a.lookup format w steps id := by
  intro steps
  induction steps with
  | zero => intro id _; rfl
  | succ level ih =>
    intro id hindex
    rw [lookup, lookup, hindex level (Nat.lt_succ_self level)]
    split
    · exact ih fun k hk => hindex k (Nat.lt_succ_of_lt hk)
    all_goals rfl

/-- Addresses that differ in bits above the indices only find the same. -/
theorem lookup_congr_bits {root v w : Nat}
    (h : v % (format.span format.topLevel * format.entries)
      = w % (format.span format.topLevel * format.entries)) :
    a.lookup format v format.levels root = a.lookup format w format.levels root := by
  have htop := format.topLevel_add_one
  exact lookup_congr_address fun k hk => (Format.index_mod_span_congr (by omega) h).1

/-- They are translated alike. -/
theorem view_congr_address {root v w : Nat}
    (h : v % (format.span format.topLevel * format.entries)
      = w % (format.span format.topLevel * format.entries)) :
    a.view format root v = a.view format root w := by
  have htop := format.topLevel_add_one
  rw [view, view, lookup_congr_bits h]
  cases hfound : a.lookup format w format.levels root with
  | none => rfl
  | some found =>
    obtain ⟨m, l⟩ := found
    have hl := (exists_slot_of_lookup hfound).1
    have hspan := (Format.index_mod_span_congr (show l ≤ format.topLevel by omega) h).2
    show some (m.frame + v % format.span l, m.flags) = some (m.frame + w % format.span l, m.flags)
    rw [hspan]

/-- A lookup sees only the slots on its way down. -/
theorem lookup_congr {root w : Nat}
    (same : ∀ d id, a.node? format root w d = some id →
      b.slot? id (format.index w (format.topLevel - d))
        = a.slot? id (format.index w (format.topLevel - d))) :
    b.lookup format w format.levels root = a.lookup format w format.levels root := by
  have hlevels := format.topLevel_add_one
  -- induction on the levels that remain, over every table on the way down
  have key : ∀ steps d id, d + steps = format.levels → a.node? format root w d = some id →
      b.lookup format w steps id = a.lookup format w steps id := by
    intro steps
    induction steps with
    | zero => intro d id _ _; rfl
    | succ level ih =>
      intro d id hd hid
      have hlevel : format.topLevel - d = level := by omega
      have hslot := same d id hid
      rw [hlevel] at hslot
      rw [lookup, lookup, hslot]
      split
      · rename_i child hs
        exact ih (d + 1) child (by omega) (node?_succ_iff.mpr ⟨id, hid, by rw [hlevel]; exact hs⟩)
      all_goals rfl
  exact key format.levels 0 root (by omega) rfl

/-! ## Growth -/

/-- Tables stay what they are, and slots are only extended. -/
structure Grows (a b : Arena) : Prop where
  level : ∀ {id l}, a.level? id = some l → b.level? id = some l
  frame : ∀ {id f}, a.frame? id = some f → b.frame? id = some f
  user : ∀ {id u}, a.user? id = some u → b.user? id = some u
  slot : ∀ {id i s}, a.slot? id i = some s → ∃ s', b.slot? id i = some s' ∧ s.Extends s'

theorem Grows.refl (a : Arena) : Grows a a :=
  ⟨id, id, id, fun {_ _ s} h => ⟨s, h, Slot.Extends.refl s⟩⟩

theorem Grows.trans {c : Arena} (h : Grows a b) (h' : Grows b c) : Grows a c where
  level := fun hl => h'.level (h.level hl)
  frame := fun hf => h'.frame (h.frame hf)
  user := fun hu => h'.user (h.user hu)
  slot := fun hs => by
    obtain ⟨s', hs', hext⟩ := h.slot hs
    obtain ⟨s'', hs'', hext'⟩ := h'.slot hs'
    exact ⟨s'', hs'', hext.trans hext'⟩

theorem Alike.grows (h : Alike a b) : Grows a b where
  level := fun hl => by rw [h.level]; exact hl
  frame := fun hf => by rw [h.frame]; exact hf
  user := fun hu => by rw [h.user]; exact hu
  slot := fun {_ _ s} hs => ⟨s, by rw [h.slot]; exact hs, Slot.Extends.refl s⟩

theorem Grows.table_slot (h : Grows a b) {id i c : Nat} (hs : a.slot? id i = some (.table c)) :
    b.slot? id i = some (.table c) := by
  obtain ⟨s', hs', hext⟩ := h.slot hs
  cases hext
  exact hs'

theorem node?_grows (h : Grows a b) {root v : Nat} :
    ∀ {d id : Nat}, a.node? format root v d = some id → b.node? format root v d = some id := by
  intro d
  induction d with
  | zero => intro id hid; exact hid
  | succ d ih =>
    intro id hid
    obtain ⟨p, hp, hs⟩ := node?_succ_iff.mp hid
    exact node?_succ_iff.mpr ⟨p, ih hp, h.table_slot hs⟩

/-- What was mapped keeps its frame as slots are filled. -/
theorem lookup_grows (h : Grows a b) {v l : Nat} {m : Mapping} :
    ∀ {steps id : Nat}, a.lookup format v steps id = some (m, l) →
      ∃ flags, b.lookup format v steps id = some (⟨m.frame, flags⟩, l) := by
  intro steps
  induction steps with
  | zero => intro id hl; simp [lookup] at hl
  | succ level ih =>
    intro id hl
    rw [lookup] at hl
    split at hl
    · rename_i child hs
      obtain ⟨flags, hb⟩ := ih hl
      exact ⟨flags, by rw [lookup, h.table_slot hs]; exact hb⟩
    · rename_i mapping hs
      obtain ⟨s', hs', hext⟩ := h.slot hs
      -- a slot with a mapping is extended by one that maps the same frame
      cases hext with
      | leaf frame f g =>
        simp only [Option.some.injEq, Prod.mk.injEq] at hl
        obtain ⟨rfl, rfl⟩ := hl
        exact ⟨g, by rw [lookup, hs']⟩
    · rename_i mapping hs
      obtain ⟨s', hs', hext⟩ := h.slot hs
      cases hext with
      | large frame f g =>
        simp only [Option.some.injEq, Prod.mk.injEq] at hl
        obtain ⟨rfl, rfl⟩ := hl
        exact ⟨g, by rw [lookup, hs']⟩
    · cases hl

theorem view_grows (h : Grows a b) {root v p : Nat} {flags : PageFlags}
    (hv : a.view format root v = some (p, flags)) :
    ∃ flags', b.view format root v = some (p, flags') := by
  rw [view, Option.map_eq_some_iff] at hv
  obtain ⟨⟨m, l⟩, hl, heq⟩ := hv
  obtain ⟨flags', hb⟩ := lookup_grows h hl
  injection heq with hp hf
  exact ⟨flags', by rw [view, hb, Option.map_some, ← hp]⟩

end Arena

end KernelMemory
