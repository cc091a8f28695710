/-
  KernelMemory.Proofs.Paging.Gates — which slots let user code pass.

  User code gets through a walk if every entry on it has the user bit.  A table has that bit from
  the request it was made for, and keeps it; a page gets it with its attributes.  So it matters
  which request comes first.  What holds is that requests for user code stay in the lower half of
  task roots and all others stay out of it: below a slot of a root either everything is for user
  code or nothing is (`Gated`).

  Main results:
    * `Gated.forUser_node?` — a way down lets user code pass as its slot in the root does;
    * `Edits.gated`, `Rooted.gated`, `Pruned.gated` — what is done to the tables keeps to that;
    * `all_isUser_iff` — the user bits that a processor finds in memory on its way.
-/

import Mathlib.Tactic.Tauto
import KernelMemory.Paging.Inspect
import KernelMemory.Proofs.Paging.Encoding
import KernelMemory.Proofs.Paging.Sharing

namespace KernelMemory

/-! ## Entries on a way -/

namespace Memory

variable {format : Format} {memory : Memory}

/-- The entries that a processor reads for an address, from the table at level `steps - 1` in a
frame on.  The last one maps a page, or is not in use. -/
def entriesFrom (format : Format) (memory : Memory) (virt : VirtAddr) :
    (steps : Nat) → PhysAddr → List RawEntry
  | 0, _ => []
  | level + 1, frame =>
    let raw : RawEntry := (memory.read frame).entry format.entryBytes (format.index virt level)
    if raw.isPresent ∧ ¬ (level = 0 ∨ raw.isLarge) then
      raw :: memory.entriesFrom format virt level (raw.frame format 0)
    else [raw]

/-- The entries that a processor reads for an address, from the root in a frame on. -/
def entries (format : Format) (memory : Memory) (root : PhysAddr) (virt : VirtAddr) :
    List RawEntry := memory.entriesFrom format virt format.levels root

/-- Whether all entries on the way of an address have the user bit. -/
def passesUser (format : Format) (memory : Memory) (root : PhysAddr) (virt : VirtAddr) : Bool :=
  (memory.entries format root virt).all RawEntry.isUser

/-- A walk that ends at a page reports the user bits of these entries. -/
theorem user_walkFrom {virt : VirtAddr} : ∀ {steps : Nat} {frame : PhysAddr} {walked : Walked},
    memory.walkFrom format virt steps frame = some walked →
      walked.user = (memory.entriesFrom format virt steps frame).all RawEntry.isUser := by
  intro steps
  induction steps with
  | zero => intro frame walked h; cases h
  | succ level ih =>
    intro frame walked h
    rw [walkFrom] at h
    rw [entriesFrom]
    generalize (memory.read frame).entry format.entryBytes (format.index virt level) = raw at h ⊢
    cases hpresent : RawEntry.isPresent raw with
    | false =>
      rw [hpresent] at h
      cases h
    | true =>
      rw [hpresent] at h
      by_cases hlast : level = 0 ∨ RawEntry.isLarge raw = true
      · rw [if_neg (by decide), if_pos hlast] at h
        injection h with h
        rw [if_neg fun hon => hon.2 hlast, ← h]
        simp
      · rw [if_neg (by decide), if_neg hlast] at h
        obtain ⟨below, hbelow, heq⟩ := Option.map_eq_some_iff.mp h
        rw [if_pos ⟨rfl, hlast⟩, List.all_cons, ← ih hbelow, ← heq]

theorem user_walk {virt : VirtAddr} {root : PhysAddr} {walked : Walked}
    (h : memory.walk format root virt = some walked) :
    walked.user = memory.passesUser format root virt := user_walkFrom h

end Memory

theorem isUser_encodeTable (format : Format) (frame : Nat) (user : Bool) :
    RawEntry.isUser (format.encodeTable frame user) = user := by
  rw [RawEntry.isUser, Format.testBit_encodeTable _ _ _ (by decide)]
  cases user <;> rfl

theorem isUser_encodePage (format : Format) (frame : Nat) (flags : PageFlags) (level : Nat) :
    RawEntry.isUser (format.encodePage frame flags level) = flags.user :=
  congrArg PageFlags.user (Format.flags_encodePage format frame flags level)

namespace Arena

variable {format : Format} {kernel root : TableId} {a b : Arena} {memory : Memory}

/-! ## Slots for user code -/

/-- Whether a slot is for user code: in a root where it is in the lower half of a task's, below
where its table is for user code. -/
def ForUser (format : Format) (kernel : TableId) (a : Arena) (p i : Nat) : Prop :=
  if a.level? p = some format.topLevel then p ≠ kernel ∧ i < format.userSplit
  else a.user? p = some true

theorem forUser_top {p i : Nat} (hl : a.level? p = some format.topLevel) :
    a.ForUser format kernel p i ↔ p ≠ kernel ∧ i < format.userSplit := by
  rw [ForUser, if_pos hl]

theorem forUser_below {p i : Nat} (hl : a.level? p ≠ some format.topLevel) :
    a.ForUser format kernel p i ↔ a.user? p = some true := by
  rw [ForUser, if_neg hl]

theorem forUser_congr {p i : Nat} (hl : b.level? p = a.level? p) (hu : b.user? p = a.user? p) :
    b.ForUser format kernel p i ↔ a.ForUser format kernel p i := by
  rw [ForUser, ForUser, hl, hu]

/-- What hangs from a slot, and what is mapped there, is for user code where the slot is. -/
structure Gated (format : Format) (kernel : TableId) (a : Arena) : Prop where
  table : ∀ {p i c : Nat}, a.slot? p i = some (.table c) →
    (a.user? c = some true ↔ a.ForUser format kernel p i)
  mapping : ∀ {p i : Nat} {s : Slot} {m : Mapping}, a.slot? p i = some s → s.mapping? = some m →
    (m.flags.user = true ↔ a.ForUser format kernel p i)

theorem Gated.alike (h : a.Gated format kernel) (hab : Alike a b) : b.Gated format kernel where
  table := fun {p i c} hs => by
    rw [hab.slot] at hs
    rw [hab.user, forUser_congr (hab.level p) (hab.user p)]
    exact h.table hs
  mapping := fun {p i s m} hs hm => by
    rw [hab.slot] at hs
    rw [forUser_congr (hab.level p) (hab.user p)]
    exact h.mapping hs hm

/-- A table below another is no root. -/
theorem Shaped.child_ne_top (h : a.Shaped format kernel) {p i c : Nat}
    (hs : a.slot? p i = some (.table c)) : a.level? c ≠ some format.topLevel := by
  intro hl
  exact absurd (h.child_lt_top hs hl) (Nat.lt_irrefl _)

/-- The slots of a table that hangs from another are for user code where its own slot is. -/
theorem Gated.forUser_child (h : a.Gated format kernel) (shaped : a.Shaped format kernel)
    {p i c j : Nat} (hs : a.slot? p i = some (.table c)) :
    a.ForUser format kernel c j ↔ a.ForUser format kernel p i := by
  rw [forUser_below (shaped.child_ne_top hs)]
  exact h.table hs

/-- On a way down, a slot is for user code where the way's slot in the root is. -/
theorem Gated.forUser_node? (h : a.Gated format kernel) (shaped : a.Shaped format kernel)
    (hroot : a.level? root = some format.topLevel) {v : Nat} : ∀ {d id : Nat},
      a.node? format root v d = some id → ∀ j, (d = 0 → j = format.index v format.topLevel) →
        (a.ForUser format kernel id j
          ↔ root ≠ kernel ∧ format.index v format.topLevel < format.userSplit) := by
  intro d
  induction d with
  | zero =>
    intro id hid j hj
    rw [node?] at hid
    injection hid with hid
    rw [← hid, forUser_top hroot, hj rfl]
  | succ d ih =>
    intro id hid j _
    obtain ⟨p, hp, hs⟩ := node?_succ_iff.mp hid
    rw [h.forUser_child shaped hs]
    refine ih hp _ fun hzero => ?_
    rw [hzero, Nat.sub_zero]

/-! ## Roots made and removed -/

/-- A first table has nothing in its slots. -/
theorem gated_first (frame : PhysAddr) (user : Bool) :
    (empty.add (.blank frame format.topLevel user format.entries)).2.Gated format kernel where
  table := fun hs => by cases slot_first hs
  mapping := fun hs hm => by
    rw [slot_first hs] at hm
    cases hm

/-- What a new root shares is in upper halves, which are not for user code. -/
theorem Rooted.gated (hab : Rooted format kernel a b root format.entries)
    (shaped : a.Shaped format kernel) (h : a.Gated format kernel) : b.Gated format kernel := by
  have hold : ∀ {p i : Nat} {s : Slot}, a.slot? p i = some s →
      (b.ForUser format kernel p i ↔ a.ForUser format kernel p i) := fun {p i s} hs => by
    obtain ⟨l, hl⟩ := level?_of_slot? hs
    have hne := hab.ne_root hl
    exact forUser_congr ((hab.level_kept hl).trans hl.symm) (hab.user hne)
  have hshared : ∀ {i : Nat}, format.userSplit ≤ i →
      (b.ForUser format kernel root i ↔ a.ForUser format kernel kernel i) := fun {i} hi => by
    rw [forUser_top hab.level_root, forUser_top shaped.kernel_top]
    have hnot : ¬ i < format.userSplit := Nat.not_lt.mpr hi
    simp only [hnot, and_false]
  refine ⟨fun {p i c} hs => ?_, fun {p i s m} hs hm => ?_⟩
  · rcases hab.slot_old hs (by simp) with hs | ⟨rfl, hi, hs⟩
    · obtain ⟨l, -, hc⟩ := shaped.child hs
      rw [hab.user (hab.ne_root hc), hold hs]
      exact h.table hs
    · obtain ⟨l, -, hc⟩ := shaped.child hs
      rw [hab.user (hab.ne_root hc), hshared hi]
      exact h.table hs
  · have hne : s ≠ .empty := by
      intro heq
      rw [heq] at hm
      cases hm
    rcases hab.slot_old hs hne with hs | ⟨rfl, hi, hs⟩
    · rw [hold hs]
      exact h.mapping hs hm
    · rw [hshared hi]
      exact h.mapping hs hm

/-- What is left when some tables are removed, and nothing that hangs from the others, is as it
was. -/
theorem Pruned.gated {R : Set Nat} (hab : Pruned a R b) (h : a.Gated format kernel)
    (closed : ∀ {p i c : Nat}, p ∉ R → a.slot? p i = some (.table c) → c ∉ R) :
    b.Gated format kernel := by
  have huser : ∀ {x : Nat}, x ∉ R → b.user? x = a.user? x := fun hx => by
    rw [user?, user?, hab.kept hx]
  refine ⟨fun {p i c} hs => ?_, fun {p i s m} hs hm => ?_⟩
  · have hp := hab.not_mem_of_slot hs
    rw [hab.slot hp] at hs
    rw [huser (closed hp hs), forUser_congr (hab.level hp) (huser hp)]
    exact h.table hs
  · have hp := hab.not_mem_of_slot hs
    rw [hab.slot hp] at hs
    rw [forUser_congr (hab.level hp) (huser hp)]
    exact h.mapping hs hm

/-! ## User bits in memory -/

section

variable (tables : ∀ {id frame : Nat}, a.frame? id = some frame →
    frame % frameSize = 0 ∧ frame < format.physicalEnd)
include tables

/-- From any table on, if entries can name all tables, the entries that a processor reads all have
the user bit exactly if the first slot is for user code and the address is mapped. -/
theorem all_isUser_from (shaped : a.Shaped format kernel)
    (settled : Settled format a memory) (h : a.Gated format kernel) (v : Nat) :
    ∀ {level id frame : Nat}, a.level? id = some level → a.frame? id = some frame →
      ((memory.entriesFrom format v (level + 1) frame).all RawEntry.isUser = true
        ↔ a.ForUser format kernel id (format.index v level)
          ∧ (a.lookup format v (level + 1) id).isSome = true) := by
  intro level
  -- induction on the level; the entry read is the one that the slot stands for
  induction level with
  | zero =>
    intro id frame hl hf
    obtain ⟨s, hs⟩ := shaped.regular.exists_slot hl (format.index_lt v 0)
    have hentry := settled.written hl hf hl hs
    rw [Memory.entriesFrom, lookup, hs]
    generalize hraw : (memory.read frame).entry format.entryBytes (format.index v 0) = raw
      at hentry ⊢
    cases hentry with
    | empty => simp [RawEntry.isUser]
    | @table child _ _ hframe huser => exact absurd hs (shaped.regular.not_table_at_leaf hl)
    | leaf m =>
      simp only [true_or, not_true_eq_false, and_false, if_false, List.all_cons, List.all_nil,
        Bool.and_true, isUser_encodePage, h.mapping hs rfl, Option.isSome_some, and_true]
    | large m =>
      have hm := (shaped.large hs).1
      rw [hl] at hm
      cases hm
  | succ level ih =>
    intro id frame hl hf
    obtain ⟨s, hs⟩ := shaped.regular.exists_slot hl (format.index_lt v (level + 1))
    have hentry := settled.written hl hf hl hs
    rw [Memory.entriesFrom, lookup, hs]
    generalize hraw : (memory.read frame).entry format.entryBytes (format.index v (level + 1)) = raw
      at hentry ⊢
    cases hentry with
    | empty => simp [RawEntry.isUser, RawEntry.isPresent]
    | @table child below user hframe huser =>
      have hc := shaped.regular.child_level hl hs
      obtain ⟨hmod, hlt⟩ := tables hframe
      have hread : RawEntry.frame format 0 (format.encodeTable below user) = below :=
        Format.addressField_encodeTable user hlt hmod
      have hgate : user = true ↔ a.ForUser format kernel id (format.index v (level + 1)) := by
        rw [← h.table hs, huser, Option.some.injEq]
      simp only [Format.isPresent_encodeTable, Format.isLarge_encodeTable, Bool.false_eq_true,
        or_false, Nat.succ_ne_zero, not_false_eq_true, and_self, if_true, List.all_cons,
        isUser_encodeTable, Bool.and_eq_true, hread]
      rw [ih hc hframe, hgate, h.forUser_child shaped hs]
      tauto
    | leaf m =>
      have hm := (shaped.leaf hs).1
      rw [hl] at hm
      cases hm
    | large m =>
      simp only [Format.isLarge_encodePage, Nat.zero_lt_succ, decide_true, or_true, not_true_eq_false,
        and_false, if_false, List.all_cons, List.all_nil, Bool.and_true, isUser_encodePage,
        h.mapping hs rfl, Option.isSome_some, and_true]

/-- From a root on, they have it exactly if the address is mapped, in the lower half of a task's
root. -/
theorem all_isUser_iff (shaped : a.Shaped format kernel)
    (settled : Settled format a memory) (h : a.Gated format kernel) {frame : Nat}
    (hroot : a.level? root = some format.topLevel) (hframe : a.frame? root = some frame) (v : Nat) :
    memory.passesUser format frame v = true
      ↔ (root ≠ kernel ∧ format.index v format.topLevel < format.userSplit)
        ∧ (a.view format root v).isSome = true := by
  rw [Memory.passesUser, Memory.entries, ← format.topLevel_add_one,
    all_isUser_from tables shaped settled h v hroot hframe, forUser_top hroot, view,
    ← format.topLevel_add_one, Option.isSome_map]

end

end Arena

/-! ## Edits -/

section

variable {format : Format} {kernel : TableId} {stock : Stock} {request : MapRequest}
  {s s' : TableStore}

/-- Requests for user code go into task trees, all others into the kernel's. -/
structure MapRequest.Proper (kernel : TableId) (request : MapRequest) : Prop where
  tables : request.user = true ↔ request.root ≠ kernel
  pages : request.flags.user = true ↔ request.root ≠ kernel

/-- On the way of a page of the request, slots are for user code if the request is. -/
theorem MapRequest.Piece.forUser_node? {target virt phys : Nat}
    (piece : request.Piece format target virt phys) (ready : request.Ready format kernel s)
    (orderly : s.Orderly format kernel stock) (h : s.arena.Gated format kernel) {d id : Nat}
    (hid : s.arena.node? format request.root virt d = some id) :
    s.arena.ForUser format kernel id (format.index virt (format.topLevel - d))
      ↔ request.root ≠ kernel := by
  rw [h.forUser_node? orderly.shaped ready.root hid _ fun hzero => by rw [hzero, Nat.sub_zero]]
  exact ⟨And.left, fun hne => ⟨hne, piece.index_lt ready.fits hne⟩⟩

theorem Edit.gated (e : Edit format request s s') (orderly : s.Orderly format kernel stock)
    (ready : request.Ready format kernel s) (proper : request.Proper kernel)
    (h : s.arena.Gated format kernel) : s'.arena.Gated format kernel := by
  cases e with
  | exhausted frames arena =>
    rw [arena]
    exact h
  | @link depth target virt phys parent frame piece depth_lt node slot unsealed frames arena =>
    have hgate := piece.forUser_node? ready orderly h node
    have hlinked := Arena.linked_add_put format (format.topLevel - depth - 1) frame request.user
      orderly.ledger.books.names slot
    rw [← arena] at hlinked
    -- the slots there were are for user code as they were
    have hold : ∀ {p i : Nat} {x : Slot}, s.arena.slot? p i = some x →
        (s'.arena.ForUser format kernel p i ↔ s.arena.ForUser format kernel p i) :=
      fun {p i x} hs => by
        obtain ⟨l, hl⟩ := Arena.level?_of_slot? hs
        refine Arena.forUser_congr ((hlinked.level_kept hl).trans hl.symm) ?_
        rw [hlinked.user, if_neg (hlinked.ne_child hl)]
    refine ⟨fun {p i c} hs => ?_, fun {p i x m} hs hm => ?_⟩
    · rcases (hlinked.table_slot slot).mp hs with ⟨rfl, rfl, rfl⟩ | hs
      · rw [hold slot, hgate, hlinked.user, if_pos rfl, Option.some.injEq]
        exact proper.tables
      · obtain ⟨l, -, hc⟩ := orderly.shaped.child hs
        rw [hold hs, hlinked.user, if_neg (hlinked.ne_child hc)]
        exact h.table hs
    · have hs := hlinked.slot_of_mapping hs hm
      rw [hold hs]
      exact h.mapping hs hm
  | @fill target virt phys id old piece node slot was frames arena =>
    have hgate := piece.forUser_node? ready orderly h node
    rw [Nat.sub_sub_self piece.target_le] at hgate
    have hold : ∀ p i, s'.arena.ForUser format kernel p i ↔ s.arena.ForUser format kernel p i :=
      fun p i => by
        rw [arena]
        exact Arena.forUser_congr (Arena.level?_put _ _ _ _ _) (Arena.user?_put _ _ _ _ _)
    have hslot : ∀ {p i : Nat} {x : Slot}, s'.arena.slot? p i = some x →
        (p = id ∧ i = format.index virt target ∧ x = Walk.pageSlot target ⟨phys, request.flags⟩)
          ∨ s.arena.slot? p i = some x := fun {p i x} hs => by
      rw [arena, Arena.slot?_put] at hs
      split at hs
      · rename_i heq
        rw [slot] at hs
        injection hs with hs
        exact .inl ⟨heq.1, heq.2, hs.symm⟩
      · exact .inr hs
    refine ⟨fun {p i c} hs => ?_, fun {p i x m} hs hm => ?_⟩
    · rcases hslot hs with ⟨-, -, heq⟩ | hs
      · exact absurd heq.symm (piece.maps ready.fits request.flags).ne_table
      · rw [hold, arena, Arena.user?_put]
        exact h.table hs
    · rw [hold]
      rcases hslot hs with ⟨rfl, rfl, rfl⟩ | hs
      · have hflags : m = ⟨phys, request.flags⟩ := by
          unfold Walk.pageSlot at hm
          split at hm
          · injection hm with hm
            exact hm.symm
          · injection hm with hm
            exact hm.symm
        rw [hflags, hgate]
        exact proper.pages
      · exact h.mapping hs hm

/-- Edits for requests that go where they should. -/
theorem Edits.gated {P : MapRequest → Prop} (e : Edits format P s s')
    (orderly : s.Orderly format kernel stock) (ready : AllReady format kernel P s)
    (proper : ∀ request, P request → request.Proper kernel) (h : s.arena.Gated format kernel) :
    s'.arena.Gated format kernel :=
  relate (R := fun s s' => s.arena.Gated format kernel → s'.arena.Gated format kernel)
    (fun heq h => by rw [heq.arena]; exact h) (fun h h' hs => h' (h hs)) orderly ready
    (fun {_ _ request} _ ho hready hr e => e.gated ho hready (proper request hr)) e h

end

end KernelMemory
