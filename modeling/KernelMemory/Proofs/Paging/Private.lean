/-
  KernelMemory.Proofs.Paging.Private — how the private parts of roots change.

  A table is private to a root if it is the root or hangs from its lower half.  No table is
  private to two roots.  A table that is linked becomes private to the root of its request, if
  that is the root of a task, and to no other; a root that is made has a private part of its own;
  a root that goes takes its private part along.  So the private part of a root changes only by
  what is done to that root.

  Main results:
    * `private_disjoint` — no table is private to two roots;
    * `Edits.privateFrames_other`, `Edits.otherFrames_own` — edits, seen from another root and
      from their own;
    * `Rooted.…`, `Pruned.…` — the same for roots that are made and that go.
-/

import KernelMemory.Proofs.Paging.Sharing

namespace KernelMemory

namespace Arena

variable {format : Format} {kernel : TableId} {a b : Arena} {root r : TableId}

/-- The frames of the tables that are private to a root. -/
def privateFrames (format : Format) (a : Arena) (root : TableId) : Set Nat :=
  {f | ∃ id, id ∈ a.Private format root ∧ a.frame? id = some (f * frameSize)}

/-- The frames of the tables that are not. -/
def otherFrames (format : Format) (a : Arena) (root : TableId) : Set Nat :=
  {f | ∃ id, id ∉ a.Private format root ∧ a.frame? id = some (f * frameSize)}

theorem tableFrames_eq (format : Format) (a : Arena) (root : TableId) :
    a.tableFrames = a.privateFrames format root ∪ a.otherFrames format root := by
  ext f
  constructor
  · intro hf
    obtain ⟨id, hid⟩ := hf
    by_cases hin : id ∈ a.Private format root
    · exact .inl ⟨id, hin, hid⟩
    · exact .inr ⟨id, hin, hid⟩
  · rintro (⟨id, -, hid⟩ | ⟨id, -, hid⟩)
    · exact ⟨id, hid⟩
    · exact ⟨id, hid⟩

/-- Tables in one frame are one table, so no frame is in both parts. -/
theorem privateFrames_disjoint (books : a.Books) (root : TableId) :
    a.privateFrames format root ∩ a.otherFrames format root = ∅ := by
  refine Set.eq_empty_of_forall_notMem fun f hf => ?_
  obtain ⟨⟨id, hid, hf⟩, id', hid', hf'⟩ := hf
  rw [books.frame_inj hf' hf] at hid'
  exact hid' hid

/-! ## Two roots -/

/-- A table below two roots is below one slot of them, and if the roots differ it is an upper
slot. -/
theorem below_roots (h : a.Shaped format kernel) {i j c c' x : Nat}
    (hr : a.level? r = some format.topLevel) (hroot : a.level? root = some format.topLevel)
    (hs : a.slot? r i = some (.table c)) (hs' : a.slot? root j = some (.table c'))
    (hx : a.Below c x) (hx' : a.Below c' x) : i = j ∧ (r = root ∨ format.userSplit ≤ i) := by
  obtain ⟨l, hl, hc⟩ := h.child hs
  rw [hr] at hl
  injection hl with hl
  have hc' := h.regular.child_level (hroot.trans (congrArg some hl)) hs'
  have heq := below_unique h hx hx' hc hc' (h.child_lt_top hs hc)
  rw [← heq] at hs'
  rcases h.parent_unique hs hs' with ⟨hsame, hi⟩ | ⟨-, -, hi, hup⟩
  · exact ⟨hi, .inl hsame⟩
  · exact ⟨hi, .inr hup⟩

/-- No table is private to two roots. -/
theorem private_disjoint (h : a.Shaped format kernel)
    (hroot : a.level? root = some format.topLevel) (hr : a.level? r = some format.topLevel)
    (hne : r ≠ root) {x : Nat} (hx : x ∈ a.Private format r) : x ∉ a.Private format root := by
  rcases hx with ⟨i, c, -, hi, hs, hbelow⟩ | heq
  · rintro (⟨j, c', -, -, hs', hbelow'⟩ | heq)
    · obtain ⟨-, hsame | hup⟩ := below_roots h hr hroot hs hs' hbelow hbelow'
      · exact hne hsame
      · omega
    · have heq : x = root := heq
      obtain ⟨l, -, hc⟩ := h.child hs
      rw [heq] at hbelow
      exact not_below_of_lt h hc hroot (h.child_lt_top hs hc) hbelow
  · have heq : x = r := heq
    rw [heq]
    exact not_private_of_top h hr hne

/-- A way down through a lower slot stays in the private part of its root. -/
theorem below_of_node? {w d x : Nat} (hx : a.node? format root w (d + 1) = some x) :
    ∃ c, a.slot? root (format.index w format.topLevel) = some (.table c) ∧ a.Below c x := by
  induction d generalizing x with
  | zero =>
    obtain ⟨p, hp, hs⟩ := node?_succ_iff.mp hx
    rw [node?] at hp
    injection hp with hp
    rw [← hp] at hs
    exact ⟨x, hs, .refl⟩
  | succ d ih =>
    obtain ⟨p, hp, hs⟩ := node?_succ_iff.mp hx
    obtain ⟨c, hc, hbelow⟩ := ih hp
    exact ⟨c, hc, hbelow.tail ⟨_, hs⟩⟩

/-- What is below a table is below it where more tables hang. -/
theorem Below.mono (more : ∀ {p i c}, a.slot? p i = some (.table c) → b.slot? p i = some (.table c))
    {c x : Nat} (h : a.Below c x) : b.Below c x := by
  induction h with
  | refl => exact .refl
  | tail _ hhangs ih =>
    obtain ⟨i, hs⟩ := hhangs
    exact ih.tail ⟨i, more hs⟩

/-! ## Changes that leave the tables where they are -/

/-- The private part is told by the slots that name tables. -/
theorem private_congr (same : ∀ {p i c}, b.slot? p i = some (.table c) ↔ a.slot? p i = some (.table c))
    (root : TableId) : b.Private format root = a.Private format root := by
  have hhangs : b.Hangs = a.Hangs := by
    funext p c
    exact propext (exists_congr fun i => same)
  unfold Private Hung Below
  simp only [hhangs, same]

theorem privateFrames_congr (same : ∀ {p i c}, b.slot? p i = some (.table c) ↔ a.slot? p i = some (.table c))
    (frames : ∀ id, b.frame? id = a.frame? id) (root : TableId) :
    b.privateFrames format root = a.privateFrames format root
      ∧ b.otherFrames format root = a.otherFrames format root := by
  unfold privateFrames otherFrames
  simp only [private_congr same root, frames, and_self]

theorem Alike.privateFrames (hab : Alike a b) (root : TableId) :
    b.privateFrames format root = a.privateFrames format root
      ∧ b.otherFrames format root = a.otherFrames format root :=
  privateFrames_congr (fun {p i c} => by rw [hab.slot]) hab.frame root

/-! ## A table that is linked -/

section Linked

variable {parent index level : Nat} {t : Table} {child : TableId}

/-- The new table was below none. -/
theorem Linked.not_below (h : a.Shaped format kernel)
    (hab : Linked format a b parent index level t child) {p i c : Nat}
    (hs : a.slot? p i = some (.table c)) : ¬ a.Below c child := by
  intro hbelow
  obtain ⟨l, -, hc⟩ := h.child hs
  obtain ⟨l', hl', -⟩ := hbelow.level_le h hc
  rw [hab.fresh] at hl'
  cases hl'

/-- The new table was private to no root. -/
theorem Linked.not_private (h : a.Shaped format kernel)
    (hab : Linked format a b parent index level t child) {l : Nat} (hr : a.level? r = some l) :
    child ∉ a.Private format r := by
  rintro (⟨i, c, -, -, hs, hbelow⟩ | heq)
  · exact hab.not_below h hs hbelow
  · exact hab.ne_child hr (Eq.symm heq)

theorem Linked.below (hab : Linked format a b parent index level t child)
    (hslot : a.slot? parent index = some .empty) {c x : Nat} (hx : b.Below c x) :
    a.Below c x ∨ (x = child ∧ (c = child ∨ a.Below c parent)) := by
  -- induction on the way down; the new table is the last on every way that comes to it
  induction hx with
  | refl => exact .inl .refl
  | @tail y z hy hhangs ih =>
    obtain ⟨i, hs⟩ := hhangs
    rcases (hab.table_slot hslot).mp hs with ⟨heq, -, rfl⟩ | hs
    · subst heq
      rcases ih with hbelow | ⟨-, heq | hbelow⟩
      · exact .inr ⟨rfl, .inr hbelow⟩
      · exact .inr ⟨rfl, .inl heq⟩
      · exact .inr ⟨rfl, .inr hbelow⟩
    · rcases ih with hbelow | ⟨rfl, -⟩
      · exact .inl (hbelow.tail ⟨i, hs⟩)
      · obtain ⟨l, hl⟩ := level?_of_slot? hs
        rw [hab.fresh] at hl
        cases hl

/-- The tables there were are private to the roots they were private to. -/
theorem Linked.mem_private (hab : Linked format a b parent index level t child)
    (hslot : a.slot? parent index = some .empty) {x : Nat} (hx : x ≠ child) :
    x ∈ b.Private format r ↔ x ∈ a.Private format r := by
  refine or_congr_left ⟨?_, ?_⟩
  · rintro ⟨i, c, hle, hlt, hs, hbelow⟩
    have hbelow := (hab.below hslot hbelow).resolve_right fun heq => hx heq.1
    rcases (hab.table_slot hslot).mp hs with ⟨-, -, rfl⟩ | hs
    · -- nothing was below the new table
      rcases Relation.ReflTransGen.cases_head hbelow with heq | ⟨y, ⟨j, hs'⟩, -⟩
      · exact absurd heq.symm hx
      · obtain ⟨l, hl⟩ := level?_of_slot? hs'
        rw [hab.fresh] at hl
        cases hl
    · exact ⟨i, c, hle, hlt, hs, hbelow⟩
  · rintro ⟨i, c, hle, hlt, hs, hbelow⟩
    exact ⟨i, c, hle, hlt, (hab.table_slot hslot).mpr (.inr hs),
      hbelow.mono fun hs' => (hab.table_slot hslot).mpr (.inr hs')⟩

/-- The new table is private to a root below whose lower half, or in it, it was linked. -/
theorem Linked.child_mem_private (h : a.Shaped format kernel)
    (hab : Linked format a b parent index level t child)
    (hslot : a.slot? parent index = some .empty) (hr : r ≠ child) :
    child ∈ b.Private format r
      ↔ (parent = r ∧ index < format.userSplit) ∨ parent ∈ a.Hung r 0 format.userSplit := by
  constructor
  · rintro (⟨i, c, hle, hlt, hs, hbelow⟩ | heq)
    · rcases (hab.table_slot hslot).mp hs with ⟨heq, hi, -⟩ | hs
      · exact .inl ⟨heq.symm, by omega⟩
      · rcases hab.below hslot hbelow with hold | ⟨-, heq | hparent⟩
        · exact absurd hold (hab.not_below h hs)
        · rw [heq] at hs
          exact absurd .refl (hab.not_below h hs)
        · exact .inr ⟨i, c, hle, hlt, hs, hparent⟩
    · exact absurd heq.symm hr
  · have hlink : b.slot? parent index = some (.table child) :=
      (hab.table_slot hslot).mpr (.inl ⟨rfl, rfl, rfl⟩)
    rintro (⟨rfl, hlt⟩ | ⟨i, c, hle, hlt, hs, hbelow⟩)
    · exact .inl ⟨index, child, Nat.zero_le _, by omega, hlink, .refl⟩
    · refine .inl ⟨i, c, hle, hlt, (hab.table_slot hslot).mpr (.inr hs), ?_⟩
      have hparent : b.Below c parent :=
        hbelow.mono fun hs' => (hab.table_slot hslot).mpr (.inr hs')
      exact hparent.tail ⟨index, hlink⟩

end Linked

/-! ## A root that is made, and one that goes -/

section Rooted

variable {upto : Nat}

/-- A new root has no table in its lower half. -/
theorem Rooted.private_root (hab : Rooted format kernel a b root upto) :
    b.Private format root = {root} := by
  refine Set.union_eq_right.mpr fun x hx => ?_
  obtain ⟨i, c, -, hi, hs, -⟩ := hx
  rw [hab.slot_root, if_neg (by omega)] at hs
  split at hs
  · cases hs
  · cases hs

theorem Rooted.otherFrames_root (hab : Rooted format kernel a b root upto) :
    b.otherFrames format root = a.tableFrames := by
  ext f
  constructor
  · rintro ⟨id, hid, hf⟩
    rw [hab.private_root] at hid
    exact ⟨id, by rw [← hab.frame hid]; exact hf⟩
  · rintro ⟨id, hf⟩
    have hid : id ≠ root := by
      rintro rfl
      obtain ⟨t, ht, -⟩ := Option.map_eq_some_iff.mp hf
      have hfresh := hab.fresh
      rw [level?, ht] at hfresh
      cases hfresh
    refine ⟨id, ?_, by rw [hab.frame hid]; exact hf⟩
    rw [hab.private_root]
    exact hid

/-- The private parts of the roots there were are what they were. -/
theorem Rooted.privateFrames_other (h : a.Shaped format kernel)
    (hab : Rooted format kernel a b root upto) {l : Nat} (hr : a.level? r = some l) :
    b.privateFrames format r = a.privateFrames format r := by
  have hne := hab.ne_root hr
  have hslot : ∀ {i}, b.slot? r i = a.slot? r i := fun {i} => hab.slot_other i hne
  -- nothing that was there names the new root
  have hbelow : ∀ {c x l}, a.level? c = some l → (b.Below c x ↔ a.Below c x) := by
    intro c x l hc
    constructor
    · intro hx
      induction hx with
      | refl => exact .refl
      | @tail y z _ hhangs ih =>
        obtain ⟨i, hs⟩ := hhangs
        obtain ⟨l', hy, -⟩ := Below.level_le h ih hc
        rw [hab.slot_other i (hab.ne_root hy)] at hs
        exact ih.tail ⟨i, hs⟩
    · exact Below.mono fun {p i c} hs => by
        obtain ⟨l', hp⟩ := level?_of_slot? hs
        rw [hab.slot_other i (hab.ne_root hp)]
        exact hs
  have hprivate : ∀ x, x ∈ b.Private format r ↔ x ∈ a.Private format r := by
    intro x
    refine or_congr_left (exists_congr fun i => exists_congr fun c => and_congr_right fun _ =>
      and_congr_right fun _ => ?_)
    rw [hslot]
    refine and_congr_right fun hs => ?_
    obtain ⟨l', -, hc⟩ := h.child hs
    exact hbelow hc
  ext f
  refine exists_congr fun id => ?_
  rw [hprivate]
  refine and_congr_right fun hid => ?_
  have hid : id ≠ root := by
    rcases hid with ⟨i, c, -, -, hs, hx⟩ | heq
    · obtain ⟨l', -, hc⟩ := h.child hs
      obtain ⟨l'', hl, -⟩ := hx.level_le h hc
      exact hab.ne_root hl
    · rw [show id = r from heq]
      exact hne
  rw [hab.frame hid]

end Rooted

section Pruned

/-- With its private part a root takes the frames of that part along. -/
theorem Pruned.tableFrames (hab : Pruned a (a.Private format root) b) :
    b.tableFrames = a.otherFrames format root := by
  ext f
  refine exists_congr fun id => ?_
  by_cases hid : id ∈ a.Private format root
  · rw [frame?, hab.gone hid]
    constructor
    · intro hf
      cases hf
    · intro hf
      exact absurd hid hf.1
  · rw [hab.frame hid]
    exact ⟨fun hf => ⟨hid, hf⟩, fun hf => hf.2⟩

/-- The private parts of the other roots stay. -/
theorem Pruned.privateFrames_other (h : a.Shaped format kernel)
    (hroot : a.level? root = some format.topLevel) (hr : a.level? r = some format.topLevel)
    (hne : r ≠ root) (hab : Pruned a (a.Private format root) b) :
    b.privateFrames format r = a.privateFrames format r := by
  have hkeep : ∀ {x}, x ∈ a.Private format r → x ∉ a.Private format root :=
    private_disjoint h hroot hr hne
  have hslot : ∀ {p i c}, b.slot? p i = some (.table c) → a.slot? p i = some (.table c) := by
    intro p i c hs
    rw [← hab.slot (hab.not_mem_of_slot hs)]
    exact hs
  have hprivate : ∀ x, x ∈ b.Private format r ↔ x ∈ a.Private format r := by
    intro x
    refine or_congr_left ⟨?_, ?_⟩
    · rintro ⟨i, c, hle, hlt, hs, hbelow⟩
      exact ⟨i, c, hle, hlt, hslot hs, hbelow.mono hslot⟩
    · rintro ⟨i, c, hle, hlt, hs, hbelow⟩
      refine ⟨i, c, hle, hlt, by rw [hab.slot (hkeep (.inr rfl))]; exact hs, ?_⟩
      -- the way down stays in the part that is kept
      induction hbelow with
      | refl => exact .refl
      | @tail y z hy hhangs ih =>
        obtain ⟨j, hs'⟩ := hhangs
        have hin := hkeep (.inl ⟨i, c, hle, hlt, hs, hy⟩)
        exact ih.tail ⟨j, by rw [hab.slot hin]; exact hs'⟩
  ext f
  refine exists_congr fun id => ?_
  rw [hprivate]
  refine and_congr_right fun hid => ?_
  rw [hab.frame (hkeep hid)]

end Pruned

end Arena

/-! ## Edits -/

section

variable {format : Format} {kernel : TableId} {stock : Stock} {P : MapRequest → Prop}
  {request : MapRequest} {s s' : TableStore} {r : TableId}

/-- An edit links a table on the way down from the root of the request, or leaves the private
parts of all roots as they are. -/
theorem Edit.linked_or_same (e : Edit format request s s') (h : s.Orderly format kernel stock)
    (ready : request.Ready format kernel s) :
    (∀ r, s'.arena.privateFrames format r = s.arena.privateFrames format r
      ∧ s'.arena.otherFrames format r = s.arena.otherFrames format r)
    ∨ ∃ depth target virt phys parent level t child, request.Piece format target virt phys
      ∧ s.arena.node? format request.root virt depth = some parent
      ∧ s.arena.slot? parent (format.index virt (format.topLevel - depth)) = some .empty
      ∧ Arena.Linked format s.arena s'.arena parent (format.index virt (format.topLevel - depth))
          level t child := by
  cases e with
  | exhausted frames arena =>
    rw [arena]
    exact .inl fun r => ⟨rfl, rfl⟩
  | @link depth target virt phys parent frame piece depth_lt node slot unsealed frames arena =>
    obtain ⟨child, t, hlinked⟩ := Edit.linked h.ledger.books.names slot arena
    exact .inr ⟨depth, target, virt, phys, parent, _, t, child, piece, node, slot, hlinked⟩
  | @fill target virt phys id old piece node slot was frames arena =>
    refine .inl fun r => Arena.privateFrames_congr (fun {p i c} => ?_) (fun id => ?_) r
    · -- neither what was in the slot nor what is written names a table
      rw [arena, Arena.slot?_put]
      split
      · rename_i heq
        rw [heq.1, heq.2, slot]
        have hnew := (piece.maps ready.fits request.flags).ne_table (c := c)
        have hold : old ≠ .table c := by
          rcases was with ⟨rfl, -⟩ | ⟨flags, rfl⟩
          · simp
          · exact (piece.maps ready.fits flags).ne_table
        simp only [Option.map_some, Option.some.injEq]
        exact iff_of_false hnew hold
      · rfl
    · rw [arena, Arena.frame?_put]

/-- Edits on one root leave the private parts of the others as they are. -/
theorem Edit.privateFrames_other (e : Edit format request s s') (h : s.Orderly format kernel stock)
    (ready : request.Ready format kernel s) (hr : s.arena.level? r = some format.topLevel)
    (hne : r ≠ request.root) :
    s'.arena.privateFrames format r = s.arena.privateFrames format r := by
  rcases e.linked_or_same h ready with hsame | hlink
  · exact (hsame r).1
  obtain ⟨depth, target, virt, phys, parent, level, t, child, -, node, slot, hlinked⟩ := hlink
  have hfresh : child ∉ s.arena.Private format r := hlinked.not_private h.shaped hr
  -- the parent is below the root of the request, so it is not below the lower half of another
  have hout : child ∉ s'.arena.Private format r := by
    rw [hlinked.child_mem_private h.shaped slot (hlinked.ne_child hr)]
    rintro (⟨rfl, -⟩ | hhung)
    · exact hne (Arena.node?_top h.shaped ready.root node hr).2
    · cases depth with
      | zero =>
        rw [Arena.node?] at node
        injection node with node
        rw [← node] at hhung
        exact Arena.not_private_of_top h.shaped ready.root hne.symm (.inl hhung)
      | succ depth =>
        obtain ⟨c, hs, hbelow⟩ := Arena.below_of_node? node
        obtain ⟨i, c', -, hi, hs', hbelow'⟩ := hhung
        obtain ⟨-, hsame | hup⟩ :=
          Arena.below_roots h.shaped hr ready.root hs' hs hbelow' hbelow
        · exact hne hsame
        · omega
  ext f
  refine exists_congr fun id => ?_
  by_cases hid : id = child
  · rw [hid]
    exact iff_of_false (fun hin => hout hin.1) fun hin => hfresh hin.1
  · rw [hlinked.mem_private slot hid, hlinked.frame, if_neg hid]

/-- Edits on the root of a task make no table that is not private to it. -/
theorem Edit.otherFrames_own (e : Edit format request s s') (h : s.Orderly format kernel stock)
    (ready : request.Ready format kernel s) (hne : request.root ≠ kernel) :
    s'.arena.otherFrames format request.root = s.arena.otherFrames format request.root := by
  rcases e.linked_or_same h ready with hsame | hlink
  · exact (hsame request.root).2
  obtain ⟨depth, target, virt, phys, parent, level, t, child, piece, node, slot, hlinked⟩ := hlink
  have hlow := piece.index_lt ready.fits hne
  have hin : child ∈ s'.arena.Private format request.root := by
    rw [hlinked.child_mem_private h.shaped slot (hlinked.ne_child ready.root)]
    cases depth with
    | zero =>
      rw [Arena.node?] at node
      injection node with node
      exact .inl ⟨node.symm, hlow⟩
    | succ depth =>
      obtain ⟨c, hs, hbelow⟩ := Arena.below_of_node? node
      exact .inr ⟨_, c, Nat.zero_le _, by omega, hs, hbelow⟩
  ext f
  refine exists_congr fun id => ?_
  by_cases hid : id = child
  · rw [hid]
    refine iff_of_false (fun hout => hout.1 hin) fun hout => ?_
    have hf := hout.2
    rw [Arena.frame?, Arena.get?_eq_none_iff.mpr hlinked.fresh] at hf
    cases hf
  · rw [hlinked.mem_private slot hid, hlinked.frame, if_neg hid]

theorem Edits.privateFrames_other (e : Edits format P s s') (h : s.Orderly format kernel stock)
    (ready : AllReady format kernel P s) (hr : s.arena.level? r = some format.topLevel)
    (hne : ∀ request, P request → r ≠ request.root) :
    s'.arena.privateFrames format r = s.arena.privateFrames format r :=
  Edits.relate (R := fun s s' => s'.arena.privateFrames format r = s.arena.privateFrames format r)
    (fun heq => by rw [heq.arena]) (fun h h' => h'.trans h) h ready
    (fun hg ho hready hp e => e.privateFrames_other ho hready (hg.level hr) (hne _ hp)) e

theorem Edits.otherFrames_own (e : Edits format P s s') (h : s.Orderly format kernel stock)
    (ready : AllReady format kernel P s) (hroot : ∀ request, P request → request.root = r)
    (hne : r ≠ kernel) :
    s'.arena.otherFrames format r = s.arena.otherFrames format r :=
  Edits.relate (R := fun s s' => s'.arena.otherFrames format r = s.arena.otherFrames format r)
    (fun heq => by rw [heq.arena]) (fun h h' => h'.trans h) h ready
    (fun {_ _ request} _ ho hready hp e => by
      rw [← hroot request hp] at hne ⊢
      exact e.otherFrames_own ho hready hne) e

end

end KernelMemory
