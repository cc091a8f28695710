/-
  KernelMemory.Proofs.Paging.Release — tearing a tree down removes what hangs below it, and
  nothing else.

  While a tree is torn down, slots name tables that are gone already, so the shape is a
  statement about the arena at the start, and what is left of it is told by the set of names
  removed so far (`Pruned`).  Subtrees of two slots are disjoint, as every table below a root
  hangs from one slot.

  Main results:
    * `below_unique` — a table is below one table of a level;
    * `ends_releaseTree`, `ends_releaseSlots` — what is removed, by induction on the depth;
    * `ends_releasePrivate` — the private part of a root is removed, the rest has its shape.
-/

import KernelMemory.Proofs.Paging.Edits

namespace KernelMemory

namespace Arena

variable {format : Format} {kernel : TableId} {a b : Arena}

/-! ## Below a table -/

/-- A table hangs from a slot of another. -/
def Hangs (a : Arena) (p c : TableId) : Prop := ∃ i, a.slot? p i = some (.table c)

/-- A table is another, or below it. -/
def Below (a : Arena) : TableId → TableId → Prop := Relation.ReflTransGen a.Hangs

/-- What hangs from `count` slots of a table, from `index` on, and below. -/
def Hung (a : Arena) (id index count : Nat) : Set Nat :=
  {x | ∃ i c, index ≤ i ∧ i < index + count ∧ a.slot? id i = some (.table c) ∧ a.Below c x}

theorem Below.level_le (h : a.Shaped format kernel) {c x l : Nat} (hbelow : a.Below c x)
    (hc : a.level? c = some l) : ∃ l', a.level? x = some l' ∧ l' ≤ l := by
  induction hbelow with
  | refl => exact ⟨l, hc, Nat.le_refl _⟩
  | tail _ hhangs ih =>
    obtain ⟨l', hl', hle⟩ := ih
    obtain ⟨i, hs⟩ := hhangs
    obtain ⟨l'', hp, hx⟩ := h.child hs
    have heq := level_unique hl' hp
    exact ⟨l'', hx, by omega⟩

/-- Nothing is below a table of a lower level. -/
theorem not_below_of_lt (h : a.Shaped format kernel) {c x l l' : Nat} (hc : a.level? c = some l)
    (hx : a.level? x = some l') (hlt : l < l') : ¬ a.Below c x := by
  intro hbelow
  obtain ⟨l'', hl'', hle⟩ := hbelow.level_le h hc
  have heq := level_unique hx hl''
  omega

/-- A table below another, and not it, is of a lower level. -/
theorem Below.eq_or_lt (h : a.Shaped format kernel) {c x l : Nat} (hbelow : a.Below c x)
    (hc : a.level? c = some l) : x = c ∨ ∃ l', a.level? x = some l' ∧ l' < l := by
  rcases Relation.ReflTransGen.cases_tail hbelow with heq | ⟨p, hp, i, hs⟩
  · exact .inl heq
  · obtain ⟨l', hl', hle⟩ := Below.level_le h hp hc
    obtain ⟨l'', hp', hx⟩ := h.child hs
    have heq := level_unique hl' hp'
    exact .inr ⟨l'', hx, by omega⟩

/-- Below the roots a table hangs from one table. -/
theorem Shaped.parent_eq (h : a.Shaped format kernel) {p q i j c l : Nat}
    (hp : a.slot? p i = some (.table c)) (hq : a.slot? q j = some (.table c))
    (hl : a.level? q = some l) (hlt : l < format.topLevel) : p = q ∧ i = j := by
  rcases h.parent_unique hp hq with heq | ⟨-, htop, -⟩
  · exact heq
  · have heq := level_unique hl htop
    omega

/-- No table is below two tables of one level. -/
theorem below_unique (h : a.Shaped format kernel) {c c' x l : Nat} (hx : a.Below c x)
    (hx' : a.Below c' x) (hc : a.level? c = some l) (hc' : a.level? c' = some l)
    (hlt : l < format.topLevel) : c = c' := by
  -- induction on the way down to `x`; from each table on it there is one way up
  induction hx with
  | refl =>
    rcases hx'.eq_or_lt h hc' with heq | ⟨l', hl', hlow⟩
    · exact heq
    · have heq := level_unique hc hl'
      omega
  | @tail y x hy hhangs ih =>
    obtain ⟨i, hs⟩ := hhangs
    obtain ⟨l', hl', hle⟩ := Below.level_le h hy hc
    obtain ⟨l'', hl'', hx''⟩ := h.child hs
    have hlevels := level_unique hl' hl''
    rcases Relation.ReflTransGen.cases_tail hx' with heq | ⟨y', hy', j, hs'⟩
    · rw [← heq] at hc'
      have heq' := level_unique hx'' hc'
      omega
    · obtain ⟨rfl, -⟩ := h.parent_eq hs' hs hl' (by omega)
      exact ih hy'

/-- What hangs from two slots of a table has nothing in common. -/
theorem hung_disjoint (h : a.Shaped format kernel) {id i j c c' x : Nat}
    (hi : a.slot? id i = some (.table c)) (hj : a.slot? id j = some (.table c'))
    (hx : a.Below c x) (hx' : a.Below c' x) : i = j := by
  obtain ⟨l, hl, hc⟩ := h.child hi
  have hc' := h.regular.child_level hl hj
  obtain rfl := below_unique h hx hx' hc hc' (h.child_lt_top hi hc)
  rcases h.parent_unique hi hj with ⟨-, heq⟩ | ⟨-, -, heq, -⟩
  · exact heq
  · exact heq

/-! ## What is left -/

/-- What is left of an arena when some names are removed. -/
structure Pruned (a : Arena) (removed : Set Nat) (b : Arena) : Prop where
  kept : ∀ {x}, x ∉ removed → b.get? x = a.get? x
  gone : ∀ {x}, x ∈ removed → b.get? x = none
  pending : b.pending = a.pending

theorem Pruned.refl (a : Arena) : Pruned a ∅ a := ⟨fun _ => rfl, fun hx => hx.elim, rfl⟩

theorem Pruned.congr {R R' : Set Nat} (h : Pruned a R b) (heq : ∀ x, x ∈ R' ↔ x ∈ R) :
    Pruned a R' b :=
  ⟨fun hx => h.kept fun hx' => hx ((heq _).mpr hx'), fun hx => h.gone ((heq _).mp hx), h.pending⟩

theorem Pruned.remove {R : Set Nat} (h : Pruned a R b) (id : TableId) :
    Pruned a (R ∪ {id}) (b.remove id).2 where
  kept := fun {x} hx => by
    have hne : x ≠ id := fun heq => hx (.inr heq)
    rw [get?_remove, if_neg hne]
    exact h.kept fun hx' => hx (.inl hx')
  gone := fun {x} hx => by
    rw [get?_remove]
    split
    · rfl
    · rename_i hne
      exact h.gone (hx.resolve_right hne)
  pending := by rw [pending_remove, h.pending]

section Views

variable {R : Set Nat} (h : Pruned a R b) {x : Nat}
include h

theorem Pruned.level (hx : x ∉ R) : b.level? x = a.level? x := by rw [level?, h.kept hx]; rfl

theorem Pruned.frame (hx : x ∉ R) : b.frame? x = a.frame? x := by rw [frame?, h.kept hx]; rfl

theorem Pruned.slot (hx : x ∉ R) (i : Nat) : b.slot? x i = a.slot? x i := by
  rw [slot?, h.kept hx]; rfl

theorem Pruned.not_mem_of_level {l : Nat} (hl : b.level? x = some l) : x ∉ R := by
  intro hx
  rw [level?, h.gone hx] at hl
  cases hl

theorem Pruned.not_mem_of_slot {i : Nat} {s : Slot} (hs : b.slot? x i = some s) : x ∉ R := by
  obtain ⟨l, hl⟩ := level?_of_slot? hs
  exact h.not_mem_of_level hl

end Views

/-! ## The private part of a root -/

/-- A root and what hangs from its lower half. -/
def Private (format : Format) (a : Arena) (root : TableId) : Set Nat :=
  a.Hung root 0 format.userSplit ∪ {root}

/-- A root that keeps its tables is another root. -/
theorem not_private_of_top (h : a.Shaped format kernel) {root x : Nat}
    (hx : a.level? x = some format.topLevel) (hne : x ≠ root) : x ∉ a.Private format root := by
  rintro (⟨i, c, -, -, hs, hbelow⟩ | heq)
  · obtain ⟨l, -, hc⟩ := h.child hs
    exact not_below_of_lt h hc hx (h.child_lt_top hs hc) hbelow
  · exact hne heq

/-- What hangs from a table that is kept is kept. -/
theorem not_private_child (h : a.Shaped format kernel) {root p i c : Nat}
    (hroot : a.level? root = some format.topLevel) (hp : p ∉ a.Private format root)
    (hs : a.slot? p i = some (.table c)) : c ∉ a.Private format root := by
  obtain ⟨l, -, hc⟩ := h.child hs
  have hlt := h.child_lt_top hs hc
  rintro (⟨j, c', -, hj, hs', hbelow⟩ | heq)
  · rcases Relation.ReflTransGen.cases_tail hbelow with heq | ⟨y, hy, k, hs''⟩
    · subst heq
      rcases h.parent_unique hs hs' with ⟨heq, -⟩ | ⟨-, -, heq, hup⟩
      · exact hp (.inr heq)
      · omega
    · obtain ⟨l', -, hc'⟩ := h.child hs'
      obtain ⟨ly, hly, hle⟩ := Below.level_le h hy hc'
      obtain ⟨heq, -⟩ := h.parent_eq hs hs'' hly
        (Nat.lt_of_le_of_lt hle (h.child_lt_top hs' hc'))
      rw [← heq] at hy
      exact hp (.inl ⟨j, c', Nat.zero_le _, hj, hs', hy⟩)
  · have heq : c = root := heq
    rw [heq] at hc
    have heq' := level_unique hroot hc
    omega

/-- Without the private part of a root, which is not the kernel's, the trees have their
shape. -/
theorem Shaped.pruned (h : a.Shaped format kernel) {root : TableId}
    (hroot : a.level? root = some format.topLevel) (hne : kernel ≠ root)
    (hab : Pruned a (a.Private format root) b) : b.Shaped format kernel := by
  have hkernel := not_private_of_top h h.kernel_top hne
  -- what is in use now was in use, and is what it was
  have hlevel : ∀ {x l}, b.level? x = some l → a.level? x = some l := fun hl => by
    rwa [hab.level (hab.not_mem_of_level hl)] at hl
  have hslot : ∀ {x i s}, b.slot? x i = some s → a.slot? x i = some s := fun hs => by
    rwa [hab.slot (hab.not_mem_of_slot hs)] at hs
  refine ⟨by rw [hab.level hkernel]; exact h.kernel_top, fun {id l} hl => ?_,
    fun {id l} hl => h.level_le (hlevel hl), fun {p i c} hs => ?_, fun {p i m} hs => ?_,
    fun {p i m} hs => ?_, fun {p q i j c} hp hq => ?_, fun {c l} hl hlt => ?_,
    fun {p i c} hp hi hs => ?_⟩
  · have hkeep := hab.not_mem_of_level hl
    rw [width?, hab.kept hkeep]
    exact h.width (hlevel hl)
  · have hp := hab.not_mem_of_slot hs
    have hc := not_private_child h hroot hp (hslot hs)
    rw [hab.level hp, hab.level hc]
    exact h.child (hslot hs)
  · rw [hab.level (hab.not_mem_of_slot hs)]
    exact h.leaf (hslot hs)
  · rw [hab.level (hab.not_mem_of_slot hs)]
    exact h.large (hslot hs)
  · rw [hab.level (hab.not_mem_of_slot hp), hab.level (hab.not_mem_of_slot hq)]
    exact h.parent_unique (hslot hp) (hslot hq)
  · have hc := hab.not_mem_of_level hl
    obtain ⟨p, i, hs⟩ := h.has_parent (hlevel hl) hlt
    by_cases hp : p ∈ a.Private format root
    · -- the parent is gone: it was the root, and the table hangs from the kernel root too
      rcases hp with ⟨j, c', hj, hj', hs', hbelow⟩ | heq
      · exact absurd (.inl ⟨j, c', hj, hj', hs', hbelow.tail ⟨i, hs⟩⟩) hc
      · have heq : p = root := heq
        subst heq
        rcases Nat.lt_or_ge i format.userSplit with hlow | hup
        · exact absurd (.inl ⟨i, c, Nat.zero_le _, by omega, hs, .refl⟩) hc
        · exact ⟨kernel, i, by rw [hab.slot hkernel]; exact h.shared hroot hup hs⟩
    · exact ⟨p, i, by rw [hab.slot hp]; exact hs⟩
  · rw [hab.slot hkernel]
    exact h.shared (hlevel hp) hi (hslot hs)

/-- Lookups from the other roots are what they were. -/
theorem lookup_pruned (h : a.Shaped format kernel) {root r w : Nat}
    (hroot : a.level? root = some format.topLevel) (hr : r ∉ a.Private format root)
    (hab : Pruned a (a.Private format root) b) :
    b.lookup format w format.levels r = a.lookup format w format.levels r := by
  -- the way down from a root that is kept never enters what goes
  have hnode : ∀ {d x}, a.node? format r w d = some x → x ∉ a.Private format root := by
    intro d
    induction d with
    | zero =>
      intro x hx
      rw [node?] at hx
      injection hx with hx
      rwa [← hx]
    | succ d ih =>
      intro x hx
      obtain ⟨p, hp, hs⟩ := node?_succ_iff.mp hx
      exact not_private_child h hroot (ih hp) hs
  exact lookup_congr fun d x hx => hab.slot (hnode hx) _

end Arena

/-! ## The steps -/

namespace Walk

open Steps TableStore

variable {format : Format} {kernel : TableId} {stock : Stock} {a : Arena} {s : TableStore}

/-- The store after some tables were removed. -/
structure Freed (a : Arena) (stock : Stock) (removed : Set Nat) (s : TableStore) : Prop where
  ledger : Ledger stock s.frames s.arena
  pruned : Arena.Pruned a removed s.arena

/-- A table whose children are gone, or that has none, goes. -/
theorem ends_removeTable_freed {R : Set Nat} {id l : Nat} (hs : Freed a stock R s)
    (hid : id ∉ R) (hl : a.level? id = some l) :
    Ends (removeTable id) s (fun _ s' => Freed a stock (R ∪ {id}) s') (fun _ _ => False) := by
  obtain ⟨t, -, hframe, -⟩ := Arena.exists_views hl
  rw [← hs.pruned.frame hid] at hframe
  refine ends_removeTable hframe _ _ fun s' hframes harena => ⟨?_, ?_⟩
  · rw [hframes, harena]; exact hs.ledger.remove hframe
  · rw [harena]; exact hs.pruned.remove id

theorem ends_releaseSlots (h : a.Shaped format kernel) {release : TableId → TableSteps Nat}
    {id l : Nat} (hl : a.level? id = some (l + 1))
    (hrelease : ∀ {c R s}, a.level? c = some l → Freed a stock R s → (∀ x, a.Below c x → x ∉ R) →
      Ends (release c) s (fun _ s' => Freed a stock (R ∪ {x | a.Below c x}) s') (fun _ _ => False)) :
    ∀ {count index : Nat} {R : Set Nat} {s : TableStore}, index + count ≤ format.entries →
      Freed a stock R s → id ∉ R → (∀ x ∈ a.Hung id index count, x ∉ R) →
      Ends (releaseSlots release id count index) s
        (fun _ s' => Freed a stock (R ∪ a.Hung id index count) s') (fun _ _ => False) := by
  intro count
  induction count with
  | zero =>
    intro index R s _ hs _ _
    refine ⟨hs.ledger, hs.pruned.congr fun x => ?_⟩
    constructor
    · rintro (hx | ⟨i, c, hle, hlt, -⟩)
      · exact hx
      · omega
    · exact .inl
  | succ count ih =>
    intro index R s hle hs hid hfree
    obtain ⟨y, hy⟩ := h.regular.exists_slot hl (show index < format.entries by omega)
    -- nothing hangs from a slot that holds no table
    have hskip : (∀ c, y ≠ .table c) → Ends (releaseSlots release id count (index + 1)) s
        (fun _ s' => Freed a stock (R ∪ a.Hung id index (count + 1)) s') (fun _ _ => False) := by
      intro hne
      have hung : ∀ x, x ∈ a.Hung id index (count + 1) ↔ x ∈ a.Hung id (index + 1) count := by
        intro x
        constructor
        · rintro ⟨i, c, hi, hlt, hslot, hx⟩
          refine ⟨i, c, Nat.lt_of_le_of_ne hi ?_, by omega, hslot, hx⟩
          rintro rfl
          rw [hy] at hslot
          injection hslot with hslot
          exact hne c hslot
        · rintro ⟨i, c, hi, hlt, hrest⟩
          exact ⟨i, c, by omega, by omega, hrest⟩
      exact (ih (by omega) hs hid fun x hx => hfree x ((hung x).mpr hx)).mono
        (fun _ s' hs' => ⟨hs'.ledger, hs'.pruned.congr fun x => or_congr_right (hung x)⟩)
        fun _ _ hf => hf
    rw [releaseSlots, ends_bind, ends_slot (by rw [hs.pruned.slot hid]; exact hy)]
    cases y with
    | empty => exact hskip (by simp)
    | leaf mapping => exact hskip (by simp)
    | large mapping => exact hskip (by simp)
    | table child =>
      have hc := h.regular.child_level hl hy
      simp only
      rw [ends_bind]
      refine (hrelease hc hs fun x hx =>
        hfree x ⟨index, child, Nat.le_refl _, by omega, hy, hx⟩).mono (fun below s' hs' => ?_)
        fun _ _ hf => hf
      rw [ends_bind]
      refine (ih (by omega) hs' ?_ ?_).mono (fun after s'' hs'' => ?_) fun _ _ hf => hf
      · rintro (hx | hx)
        · exact hid hx
        · exact Arena.not_below_of_lt h hc hl (Nat.lt_succ_self l) hx
      · rintro x ⟨i, c, hi, hlt, hslot, hx⟩ (hx' | hx')
        · exact hfree x ⟨i, c, by omega, by omega, hslot, hx⟩ hx'
        · have := Arena.hung_disjoint h hslot hy hx hx'
          omega
      · refine ⟨hs''.ledger, hs''.pruned.congr fun x => ?_⟩
        constructor
        · rintro (hx | ⟨i, c, hi, hlt, hslot, hx⟩)
          · exact .inl (.inl hx)
          · rcases Nat.lt_or_eq_of_le hi with hlt' | rfl
            · exact .inr ⟨i, c, hlt', by omega, hslot, hx⟩
            · rw [hy] at hslot
              injection hslot with hslot
              injection hslot with hslot
              exact .inl (.inr (hslot ▸ hx))
        · rintro ((hx | hx) | ⟨i, c, hi, hlt, hrest⟩)
          · exact .inl hx
          · exact .inr ⟨index, child, Nat.le_refl _, by omega, hy, hx⟩
          · exact .inr ⟨i, c, by omega, by omega, hrest⟩

/-- A table and all that is below it is what hangs from its slots, and it. -/
theorem below_iff (h : a.Shaped format kernel) {id l : Nat} (hl : a.level? id = some l) (x : Nat) :
    a.Below id x ↔ x ∈ a.Hung id 0 format.entries ∨ x = id := by
  constructor
  · intro hx
    rcases Relation.ReflTransGen.cases_head hx with rfl | ⟨c, ⟨i, hs⟩, hx⟩
    · exact .inr rfl
    · have := h.slot_lt hs
      exact .inl ⟨i, c, Nat.zero_le _, by omega, hs, hx⟩
  · rintro (⟨i, c, -, -, hs, hx⟩ | rfl)
    · exact Relation.ReflTransGen.head ⟨i, hs⟩ hx
    · exact .refl

theorem ends_releaseTree (h : a.Shaped format kernel) :
    ∀ {depth id l : Nat} {R : Set Nat} {s : TableStore}, l < depth → a.level? id = some l →
      Freed a stock R s → (∀ x, a.Below id x → x ∉ R) →
      Ends (releaseTree format depth id) s
        (fun _ s' => Freed a stock (R ∪ {x | a.Below id x}) s') (fun _ _ => False) := by
  intro depth
  induction depth with
  | zero => intro id l R s hlt; omega
  | succ depth ih =>
    intro id l R s hlt hl hs hfree
    have hid : id ∉ R := hfree id .refl
    obtain ⟨t, ht, -, -, -, hlevel⟩ := Arena.exists_views hl
    rw [← hs.pruned.kept hid] at ht
    -- once the slots are empty of tables, the table goes
    have hlast : ∀ {n s'}, Freed a stock (R ∪ a.Hung id 0 format.entries) s' →
        Ends (do removeTable id; return n + 1 : TableSteps Nat) s'
          (fun _ s' => Freed a stock (R ∪ {x | a.Below id x}) s') (fun _ _ => False) := by
      intro n s' hs'
      rw [ends_bind]
      refine (ends_removeTable_freed hs' ?_ hl).mono (fun _ s'' hs'' => ?_) fun _ _ hf => hf
      · rintro (hx | ⟨i, c, -, -, hslot, hx⟩)
        · exact hid hx
        · obtain ⟨lc, hp, hc⟩ := h.child hslot
          exact Arena.not_below_of_lt h hc hp (Nat.lt_succ_self lc) hx
      · refine ⟨hs''.ledger, hs''.pruned.congr fun x => ?_⟩
        constructor
        · rintro (hx | hx)
          · exact .inl (.inl hx)
          · exact ((below_iff h hl x).mp hx).imp_left .inr
        · rintro ((hx | hx) | hx)
          · exact .inl hx
          · exact .inr ((below_iff h hl x).mpr (.inl hx))
          · exact .inr ((below_iff h hl x).mpr (.inr hx))
    rw [releaseTree, ends_bind, ends_table ht]
    simp only [hlevel]
    split
    · rename_i hpos
      obtain ⟨l, rfl⟩ : ∃ l', l = l' + 1 := ⟨l - 1, by omega⟩
      rw [ends_bind]
      refine (ends_releaseSlots h hl (fun hc hs hfree => ih (by omega) hc hs hfree)
        (Nat.le_of_eq (Nat.zero_add _)) hs hid fun x hx =>
          hfree x ((below_iff h hl x).mpr (.inl hx))).mono (fun n s' hs' => hlast hs')
        fun _ _ hf => hf
    · rename_i hzero
      obtain rfl : l = 0 := by omega
      refine hlast ⟨hs.ledger, hs.pruned.congr fun x => ?_⟩
      constructor
      · rintro (hx | ⟨i, c, -, -, hslot, -⟩)
        · exact hx
        · exact absurd hslot (h.regular.not_table_at_leaf hl)
      · exact .inl

/-- The private part of a root goes, and nothing else. -/
theorem ends_releasePrivate {kernel root : Nat} (h : s.Orderly format kernel stock)
    (hroot : s.arena.level? root = some format.topLevel) (hne : kernel ≠ root) :
    Ends (releasePrivate format root) s
      (fun _ s' => s'.Orderly format kernel stock
        ∧ Arena.Pruned s.arena (s.arena.Private format root) s'.arena) (fun _ _ => False) := by
  obtain ⟨l, htop⟩ : ∃ l, format.topLevel = l + 1 :=
    ⟨format.topLevel - 1, by have := format.topLevel_pos; omega⟩
  -- the way down is long enough, as there are two roots at least
  have hdepth : l < 2 * s.arena.tables.size + 1 := by
    obtain ⟨t, ht, -⟩ := Arena.exists_of_level? hroot
    obtain ⟨t', ht', -⟩ := Arena.exists_of_level? h.shaped.kernel_top
    have hlt := Arena.lt_size_of_get? ht
    have hlt' := Arena.lt_size_of_get? ht'
    have : format.topLevel ≤ 3 := by cases format <;> decide
    omega
  have hempty : Freed s.arena stock ∅ s := ⟨h.ledger, .refl _⟩
  have hsplit := format.userSplit_le_entries
  rw [releasePrivate, ends_bind, ends_get, ends_bind]
  refine (ends_releaseSlots h.shaped (hroot.trans (congrArg some htop))
    (fun hc hs hfree => ends_releaseTree h.shaped hdepth hc hs hfree)
    (by omega) hempty (Set.notMem_empty _) fun x _ => Set.notMem_empty _).mono
    (fun n s' hs' => ?_) fun _ _ hf => hf
  rw [ends_bind]
  refine (ends_removeTable_freed hs' ?_ hroot).mono (fun _ s'' hs'' => ?_) fun _ _ hf => hf
  · rw [Set.empty_union]
    rintro ⟨i, c, -, -, hslot, hx⟩
    obtain ⟨lc, hp, hc⟩ := h.shaped.child hslot
    exact Arena.not_below_of_lt h.shaped hc hp (Nat.lt_succ_self lc) hx
  · have hpruned : Arena.Pruned s.arena (s.arena.Private format root) s''.arena :=
      hs''.pruned.congr fun x => by rw [Set.empty_union]; rfl
    exact ⟨⟨hs''.ledger, h.shaped.pruned hroot hne hpruned⟩, hpruned⟩

end Walk

end KernelMemory
