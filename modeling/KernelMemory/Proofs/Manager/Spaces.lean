/-
  KernelMemory.Proofs.Manager.Spaces — address spaces and their trees.

  The roots in use are those of the kernel space and of the task spaces alive.  Their upper
  halves are the kernel's, up to attributes, and no root maps page 0.  While there are no
  spaces there are no tables.

  Main results:
    * `Spaces.Sound`, `Machine.Sound` — what holds between two operations;
    * `Sound.edits`, `Sound.rooted`, `Sound.pruned`, `sound_first` — what operations do to the
      trees keeps it;
    * `translate_eq_view` — in sound states a translation never faults.
-/

import Mathlib.Data.List.Nodup
import KernelMemory.Proofs.Paging.Sharing

namespace KernelMemory

/-! ## Spaces and roots -/

/-- Spaces with one root are one space. -/
theorem AddressSpace.eq_of_frame {a : Arena} {id : TableId} {space other : AddressSpace}
    (h : a.frame? id = some space.root) (h' : a.frame? id = some other.root) : space = other := by
  cases space
  cases other
  exact congrArg AddressSpace.mk (Option.some.inj (h.symm.trans h'))

/-- The address spaces are those of the roots in use, and share the upper half. -/
structure Spaces.Sound (format : Format) (spaces : Spaces) (a : Arena) : Prop where
  shaped : a.Shaped format spaces.kernelTable
  kernel : a.frame? spaces.kernelTable = some spaces.kernel.root
  task : ∀ {space}, space ∈ spaces.tasks → ∃ id, id ≠ spaces.kernelTable
    ∧ a.level? id = some format.topLevel ∧ a.frame? id = some space.root
  owner : ∀ {id}, a.level? id = some format.topLevel →
    id = spaces.kernelTable ∨ ∃ space ∈ spaces.tasks, a.frame? id = some space.root
  nodup : spaces.tasks.Nodup
  upper : ∀ {id i x}, a.level? id = some format.topLevel → format.userSplit ≤ i →
    a.slot? id i = some x → ∃ y, a.slot? spaces.kernelTable i = some y ∧ x.Like y
  null : ∀ {id w}, a.level? id = some format.topLevel → w < frameSize →
    a.lookup format w format.levels id = none

namespace Spaces.Sound

variable {format : Format} {spaces spaces' : Spaces} {a b : Arena} {stock : Stock}
  {frames : FrameAllocator}

/-- What is noted of processors does not matter. -/
theorem congr (h : spaces.Sound format a) (htable : spaces'.kernelTable = spaces.kernelTable)
    (hkernel : spaces'.kernel = spaces.kernel) (htasks : spaces'.tasks = spaces.tasks) :
    spaces'.Sound format a where
  shaped := by rw [htable]; exact h.shaped
  kernel := by rw [htable, hkernel]; exact h.kernel
  task := by rw [htable, htasks]; exact h.task
  owner := by rw [htable, htasks]; exact h.owner
  nodup := by rw [htasks]; exact h.nodup
  upper := by rw [htable]; exact h.upper
  null := h.null

theorem alike (h : spaces.Sound format a) (hab : Arena.Alike a b) : spaces.Sound format b where
  shaped := h.shaped.alike hab
  kernel := by rw [hab.frame]; exact h.kernel
  task := fun hs => by simp only [hab.level, hab.frame]; exact h.task hs
  owner := fun {id} hl => by rw [hab.level] at hl; simp only [hab.frame]; exact h.owner hl
  nodup := h.nodup
  upper := fun hl hi hx => by
    rw [hab.level] at hl; rw [hab.slot] at hx; rw [hab.slot]; exact h.upper hl hi hx
  null := fun hl hw => by
    rw [hab.level] at hl; rw [Arena.lookup_alike hab]; exact h.null hl hw

/-- The root of a space that exists. -/
theorem exists_root (h : spaces.Sound format a) {space : AddressSpace}
    (hs : space = spaces.kernel ∨ space ∈ spaces.tasks) :
    ∃ id, a.level? id = some format.topLevel ∧ a.frame? id = some space.root := by
  rcases hs with rfl | hs
  · exact ⟨spaces.kernelTable, h.shaped.kernel_top, h.kernel⟩
  · obtain ⟨id, -, hl, hf⟩ := h.task hs
    exact ⟨id, hl, hf⟩

/-- A task space has a root of its own. -/
theorem task_root_ne (h : spaces.Sound format a) (books : a.Books) {space : AddressSpace}
    (hs : space ∈ spaces.tasks) : space.root ≠ spaces.kernel.root := by
  intro heq
  obtain ⟨id, hne, -, hf⟩ := h.task hs
  rw [heq] at hf
  exact hne (books.frame_inj hf h.kernel)

/-! ## Looking spaces up -/

theorem anyTable_eq_some (h : spaces.Sound format a) (books : a.Books) {space : AddressSpace}
    {id : TableId} (he : spaces.anyTable a space = some id) :
    (space = spaces.kernel ∨ space ∈ spaces.tasks) ∧ a.level? id = some format.topLevel
      ∧ a.frame? id = some space.root := by
  unfold anyTable at he
  split at he
  · rename_i hs
    obtain ⟨id', hl, hf⟩ := h.exists_root hs
    have hf' := books.find.mp he
    rw [books.frame_inj hf' hf]
    exact ⟨hs, hl, hf⟩
  · cases he

theorem anyTable_of_frame (books : a.Books) {space : AddressSpace} {id : TableId}
    (hs : space = spaces.kernel ∨ space ∈ spaces.tasks) (hf : a.frame? id = some space.root) :
    spaces.anyTable a space = some id := by
  unfold anyTable
  rw [if_pos hs]
  exact books.find.mpr hf

theorem taskTable_eq_ok (h : spaces.Sound format a) (books : a.Books) {space : AddressSpace}
    {id : TableId} (he : spaces.taskTable a space = .ok id) :
    space ∈ spaces.tasks ∧ id ≠ spaces.kernelTable ∧ a.level? id = some format.topLevel
      ∧ a.frame? id = some space.root := by
  unfold taskTable at he
  split at he
  · cases he
  · split at he
    · rename_i hs
      split at he
      · rename_i id' hid
        injection he with he
        subst he
        have hf := books.find.mp hid
        obtain ⟨id'', hne, hl, hf'⟩ := h.task hs
        rw [books.frame_inj hf hf']
        exact ⟨hs, hne, hl, hf'⟩
      · cases he
    · cases he

/-- The root table of a task is found. -/
theorem taskTable_of_task (h : spaces.Sound format a) (books : a.Books) {space : AddressSpace}
    (hs : space ∈ spaces.tasks) : ∃ id, spaces.taskTable a space = .ok id := by
  obtain ⟨id, -, -, hf⟩ := h.task hs
  have hne : space ≠ spaces.kernel := fun heq =>
    h.task_root_ne books hs (congrArg AddressSpace.root heq)
  refine ⟨id, ?_⟩
  unfold taskTable
  rw [if_neg hne, if_pos hs, books.find.mpr hf]

/-! ## Changes -/

/-- Edits that leave the upper halves alike keep the spaces. -/
theorem edits_of_upper {P : MapRequest → Prop} {s s' : TableStore}
    (h : spaces.Sound format s.arena) (e : Edits format P s s')
    (ledger : Ledger stock s.frames s.arena) (ready : AllReady format spaces.kernelTable P s)
    (upper : ∀ {id i x}, s.arena.level? id = some format.topLevel → format.userSplit ≤ i →
      s'.arena.slot? id i = some x →
        ∃ y, s'.arena.slot? spaces.kernelTable i = some y ∧ x.Like y) :
    spaces.Sound format s'.arena := by
  have orderly : s.Orderly format spaces.kernelTable stock := ⟨ledger, h.shaped⟩
  have hgrows := e.grows orderly ready
  have htop : ∀ {id}, s'.arena.level? id = some format.topLevel →
      s.arena.level? id = some format.topLevel := (e.level_top orderly ready).mp
  exact
    { shaped := (e.orderly orderly ready).shaped
      kernel := hgrows.frame h.kernel
      task := fun hs => by
        obtain ⟨id, hne, hl, hf⟩ := h.task hs
        exact ⟨id, hne, hgrows.level hl, hgrows.frame hf⟩
      owner := fun hl => (h.owner (htop hl)).imp_right fun ⟨space, hs, hf⟩ =>
        ⟨space, hs, hgrows.frame hf⟩
      nodup := h.nodup
      upper := fun hl => upper (htop hl)
      null := fun {id w} hl hw => by
        rw [e.lookup orderly ready (htop hl) fun r hr =>
          MapRequest.not_touches_null (ready r hr).fits hw]
        exact h.null (htop hl) hw }

/-- Edits of a kernel tree whose root is sealed keep the spaces. -/
theorem edits_kernel {P : MapRequest → Prop} {s s' : TableStore}
    (h : spaces.Sound format s.arena) (e : Edits format P s s')
    (ledger : Ledger stock s.frames s.arena) (ready : AllReady format spaces.kernelTable P s)
    (hroot : ∀ r, P r → r.root = spaces.kernelTable) (hsealed : ∀ r, P r → r.rootSealed = true) :
    spaces.Sound format s'.arena := by
  have orderly : s.Orderly format spaces.kernelTable stock := ⟨ledger, h.shaped⟩
  -- in the sealed root only attributes change, and the other roots keep their slots
  refine h.edits_of_upper e ledger ready fun {id i x} hl hi hx => ?_
  by_cases hid : id = spaces.kernelTable
  · subst hid
    exact ⟨x, hx, .refl x⟩
  · rw [e.slot_of_other orderly ready hl fun r hr => by rw [hroot r hr]; exact hid] at hx
    obtain ⟨y, hy, hlike⟩ := h.upper hl hi hx
    obtain ⟨z, hz, hlike'⟩ := e.slot_of_sealed orderly ready hroot hsealed hy
    exact ⟨z, hz, hlike.trans hlike'⟩

/-- Edits in the lower half of a task tree keep the spaces. -/
theorem edits_task {P : MapRequest → Prop} {s s' : TableStore} {root : TableId}
    (h : spaces.Sound format s.arena) (e : Edits format P s s')
    (ledger : Ledger stock s.frames s.arena) (ready : AllReady format spaces.kernelTable P s)
    (hroot : ∀ r, P r → r.root = root) (hne : root ≠ spaces.kernelTable) :
    spaces.Sound format s'.arena := by
  have orderly : s.Orderly format spaces.kernelTable stock := ⟨ledger, h.shaped⟩
  refine h.edits_of_upper e ledger ready fun {id i x} hl hi hx => ?_
  have hkernel : s'.arena.slot? spaces.kernelTable i = s.arena.slot? spaces.kernelTable i :=
    e.slot_of_other orderly ready h.shaped.kernel_top
      (fun r hr => by rw [hroot r hr]; exact hne.symm) i
  -- pages of a task are in the lower half, so no upper slot changes, of this root or another
  have hkept : s'.arena.slot? id i = s.arena.slot? id i := by
    by_cases hid : id = root
    · subst hid
      refine e.slot_of_root orderly ready hroot fun r hr _ _ _ piece => ?_
      have := piece.index_lt (ready r hr).fits (by rw [hroot r hr]; exact hne)
      omega
    · exact e.slot_of_other orderly ready hl (fun r hr => by rw [hroot r hr]; exact hid) i
  rw [hkernel]
  rw [hkept] at hx
  exact h.upper hl hi hx

/-- A root that shares the upper half of the kernel root is the root of a new space. -/
theorem rooted (h : spaces.Sound format a) {root : TableId}
    {space : AddressSpace} (hab : Arena.Rooted format spaces.kernelTable a b root format.entries)
    (hframe : b.frame? root = some space.root) (htable : spaces'.kernelTable = spaces.kernelTable)
    (hkernel : spaces'.kernel = spaces.kernel)
    (htasks : spaces'.tasks = spaces.tasks.insert space) : spaces'.Sound format b := by
  have hne : spaces.kernelTable ≠ root := hab.ne_root h.shaped.kernel_top
  have hroot : b.level? root = some format.topLevel := by rw [hab.level, if_pos rfl]
  have hlevel : ∀ {id}, id ≠ root → b.level? id = some format.topLevel →
      a.level? id = some format.topLevel := fun hid hl => by rwa [hab.level, if_neg hid] at hl
  have hsplit := format.userSplit_le_entries
  refine ⟨?_, ?_, fun {s} hs => ?_, fun {id} hl => ?_, ?_, fun {id i x} hl hi hx => ?_,
    fun {id w} hl hw => ?_⟩
  · rw [htable]; exact hab.shaped h.shaped
  · rw [htable, hkernel, hab.frame hne]; exact h.kernel
  · rw [htasks, List.mem_insert_iff] at hs
    rw [htable]
    rcases hs with rfl | hs
    · exact ⟨root, hne.symm, hroot, hframe⟩
    · obtain ⟨id, hid, hl, hf⟩ := h.task hs
      have hidroot := hab.ne_root hl
      exact ⟨id, hid, by rw [hab.level, if_neg hidroot, hl], by rw [hab.frame hidroot, hf]⟩
  · rw [htable, htasks]
    by_cases hid : id = root
    · subst hid
      exact .inr ⟨space, List.mem_insert_self, hframe⟩
    · rcases h.owner (hlevel hid hl) with heq | ⟨s, hs, hf⟩
      · exact .inl heq
      · exact .inr ⟨s, List.mem_insert_of_mem hs, by rw [hab.frame hid, hf]⟩
  · rw [htasks]; exact h.nodup.insert
  · rw [htable, hab.slot_other i hne]
    by_cases hid : id = root
    · subst hid
      have hlt := (hab.shaped h.shaped).slot_lt hx
      rw [hab.slot_root, if_pos ⟨hi, hlt⟩] at hx
      exact ⟨x, hx, .refl x⟩
    · rw [hab.slot_other i hid] at hx
      exact h.upper (hlevel hid hl) hi hx
  · by_cases hid : id = root
    · subst hid
      refine hab.lookup_lower ?_
      -- page 0 is under the first slot of a root, which is not shared
      have hlow : format.index w format.topLevel = 0 := by
        have hspan := MapRequest.Piece.frameSize_le_span format format.topLevel
        rw [Format.index, Nat.div_eq_of_lt (by omega), Nat.zero_mod]
      rw [hlow]
      cases format <;> decide
    · rw [hab.lookup h.shaped (hlevel hid hl)]
      exact h.null (hlevel hid hl) hw

/-- A space goes with the private part of its root. -/
theorem pruned (h : spaces.Sound format a) (books : a.Books) {root : TableId}
    {space : AddressSpace} (hab : Arena.Pruned a (a.Private format root) b)
    (hs : space ∈ spaces.tasks) (hne : root ≠ spaces.kernelTable)
    (hl : a.level? root = some format.topLevel) (hf : a.frame? root = some space.root)
    (htable : spaces'.kernelTable = spaces.kernelTable) (hkernel : spaces'.kernel = spaces.kernel)
    (htasks : spaces'.tasks = spaces.tasks.erase space) : spaces'.Sound format b := by
  have hkept : ∀ {id}, a.level? id = some format.topLevel → id ≠ root →
      id ∉ a.Private format root := fun hl hid => Arena.not_private_of_top h.shaped hl hid
  -- roots that are left were roots, and are not in the part that went
  have hold : ∀ {id}, b.level? id = some format.topLevel →
      a.level? id = some format.topLevel ∧ id ∉ a.Private format root := fun hl => by
    have hid := hab.not_mem_of_level hl
    rw [hab.level hid] at hl
    exact ⟨hl, hid⟩
  have hktop := h.shaped.kernel_top
  have hk := hkept hktop hne.symm
  refine ⟨?_, ?_, fun {s} hmem => ?_, fun {id} hl => ?_, ?_, fun {id i x} hl hi hx => ?_,
    fun {id w} hl hw => ?_⟩
  · rw [htable]; exact h.shaped.pruned hl hne.symm hab
  · rw [htable, hkernel, hab.frame hk]; exact h.kernel
  · rw [htasks, h.nodup.mem_erase_iff] at hmem
    obtain ⟨id, hid, hl', hf'⟩ := h.task hmem.2
    have hne' : id ≠ root := by
      rintro rfl
      exact hmem.1 (AddressSpace.eq_of_frame hf' hf)
    rw [htable]
    exact ⟨id, hid, by rw [hab.level (hkept hl' hne'), hl'], by rw [hab.frame (hkept hl' hne'), hf']⟩
  · obtain ⟨hl', hid⟩ := hold hl
    rw [htable, htasks]
    rcases h.owner hl' with heq | ⟨s, hmem, hf'⟩
    · exact .inl heq
    · refine .inr ⟨s, h.nodup.mem_erase_iff.mpr ⟨?_, hmem⟩, by rw [hab.frame hid, hf']⟩
      rintro rfl
      exact hid (.inr (books.frame_inj hf' hf))
  · rw [htasks]; exact h.nodup.erase space
  · obtain ⟨hl', hid⟩ := hold hl
    rw [hab.slot hid] at hx
    rw [htable, hab.slot hk]
    exact h.upper hl' hi hx
  · obtain ⟨hl', hid⟩ := hold hl
    rw [Arena.lookup_pruned h.shaped ‹a.level? root = _› hid hab]
    exact h.null hl' hw

/-- Spaces without tasks, on a root that was just made. -/
theorem first (frame : PhysAddr) (user : Bool)
    (htable : spaces.kernelTable
      = (Arena.empty.add (.blank frame format.topLevel user format.entries)).1)
    (hkernel : spaces.kernel.root = frame) (htasks : spaces.tasks = []) :
    spaces.Sound format (Arena.empty.add (.blank frame format.topLevel user format.entries)).2 := by
  have names := Arena.names_empty
  have honly : ∀ {id l : Nat},
      (Arena.empty.add (.blank frame format.topLevel user format.entries)).2.level? id = some l →
        id = spaces.kernelTable := by
    intro id l hl
    rw [Arena.level?_add names, ← htable] at hl
    split at hl
    · assumption
    · simp [Arena.level?] at hl
  refine ⟨by rw [htable]; exact Arena.shaped_first frame user, ?_, fun {s} hs => ?_,
    fun {id} hl => .inl (honly hl), by rw [htasks]; exact List.nodup_nil,
    fun {id i x} hl _ hx => ?_, fun {id w} hl _ => ?_⟩
  · rw [Arena.frame?_add names, if_pos htable, hkernel]
    rfl
  · rw [htasks] at hs
    cases hs
  · rw [← honly hl]
    exact ⟨x, hx, .refl x⟩
  · have hlt := format.index_lt w format.topLevel
    rw [← format.topLevel_add_one, Arena.lookup, Arena.slot?_add names,
      if_pos ((honly hl).trans htable), Arena.slots_blank, if_pos hlt]

/-- While there are no tasks, any edits of the kernel tree keep the spaces. -/
theorem edits_first {P : MapRequest → Prop} {s s' : TableStore}
    (h : spaces.Sound format s.arena) (e : Edits format P s s')
    (ledger : Ledger stock s.frames s.arena) (ready : AllReady format spaces.kernelTable P s)
    (htasks : spaces.tasks = []) : spaces.Sound format s'.arena := by
  refine h.edits_of_upper e ledger ready fun {id i x} hl _ hx => ?_
  -- the kernel root is the only root
  rcases h.owner hl with rfl | ⟨space, hs, -⟩
  · exact ⟨x, hx, .refl x⟩
  · rw [htasks] at hs
    cases hs

end Spaces.Sound

/-! ## Sound states -/

/-- What holds of the machine between two operations. -/
structure Machine.Sound (format : Format) (stock : Stock) (m : Machine) : Prop where
  ledger : Ledger stock m.store.frames m.store.arena
  settled : Arena.Settled format m.store.arena m.memory
  unstarted : m.spaces = none → m.store.arena = Arena.empty
  spaces : ∀ {spaces}, m.spaces = some spaces → spaces.Sound format m.store.arena

namespace Machine

variable {format : Format} {stock : Stock} {m : Machine}

/-- A machine after power-on, whose allocator covers no frames yet. -/
theorem sound_powerOn (format : Format) (poolPages : Nat) :
    (powerOn poolPages).Sound format ⟨∅, 0⟩ where
  ledger :=
    { books := Arena.books_empty
      allocator := FrameAllocator.wellFormed_unstarted poolPages
      total := rfl
      table := fun {id frame} hf => by simp [powerOn, TableStore.empty, Arena.frame?] at hf
      client := fun hf => hf.elim
      covered := fun hlt => absurd hlt (Nat.not_lt_zero _) }
  settled := Arena.settled_empty format _
  unstarted := fun _ => rfl
  spaces := fun h => by cases h

/-- So is any machine whose allocator is in order and whose manager was not started. -/
theorem sound_unstarted (hwf : m.store.frames.WellFormed) (hspaces : m.spaces = none)
    (hempty : m.store.arena = Arena.empty) : m.Sound format m.store.frames.inUse where
  ledger := by rw [hempty]; exact .bare hwf
  settled := by rw [hempty]; exact Arena.settled_empty format _
  unstarted := fun _ => hempty
  spaces := fun hsome => by
    rw [hspaces] at hsome
    cases hsome

/-- A started machine is sound if its frames and its memory are in order and its spaces are
sound. -/
theorem sound_of_spaces {spaces : Spaces} (hspaces : m.spaces = some spaces)
    (ledger : Ledger stock m.store.frames m.store.arena)
    (settled : Arena.Settled format m.store.arena m.memory)
    (hsound : spaces.Sound format m.store.arena) : m.Sound format stock where
  ledger := ledger
  settled := settled
  unstarted := fun hnone => by
    rw [hspaces] at hnone
    cases hnone
  spaces := fun {other} hother => by
    rw [hspaces] at hother
    injection hother with hother
    rw [← hother]
    exact hsound

/-! ## Translations -/

/-- Whether a space exists. -/
def Alive (m : Machine) (space : AddressSpace) : Prop :=
  ∃ spaces, m.spaces = some spaces ∧ (space = spaces.kernel ∨ space ∈ spaces.tasks)

theorem alive_of_some {spaces : Spaces} (h : m.spaces = some spaces) {space : AddressSpace} :
    m.Alive space ↔ space = spaces.kernel ∨ space ∈ spaces.tasks := by
  constructor
  · rintro ⟨spaces', hspaces', hs⟩
    rw [h] at hspaces'
    injection hspaces' with hspaces'
    rw [hspaces']
    exact hs
  · exact fun hs => ⟨spaces, h, hs⟩

theorem rootTable_eq_some (h : m.Sound format stock) {space : AddressSpace} {root : TableId}
    (hroot : m.rootTable space = some root) :
    m.Alive space ∧ m.store.arena.level? root = some format.topLevel
      ∧ m.store.arena.frame? root = some space.root := by
  obtain ⟨spaces, hspaces, htable⟩ := Option.bind_eq_some_iff.mp hroot
  obtain ⟨hs, hl, hf⟩ := (h.spaces hspaces).anyTable_eq_some h.ledger.books htable
  exact ⟨⟨spaces, hspaces, hs⟩, hl, hf⟩

/-- The root table of a space that exists is the one in its frame. -/
theorem rootTable_of_alive (h : m.Sound format stock) {space : AddressSpace}
    (halive : m.Alive space) : ∃ root, m.rootTable space = some root
      ∧ m.store.arena.level? root = some format.topLevel
      ∧ m.store.arena.frame? root = some space.root := by
  obtain ⟨spaces, hspaces, hs⟩ := halive
  obtain ⟨root, hl, hf⟩ := (h.spaces hspaces).exists_root hs
  refine ⟨root, ?_, hl, hf⟩
  rw [rootTable, hspaces]
  exact Spaces.Sound.anyTable_of_frame h.ledger.books hs hf

theorem rootTable_of_frame (h : m.Sound format stock) {space : AddressSpace} {root : TableId}
    (halive : m.Alive space) (hf : m.store.arena.frame? root = some space.root) :
    m.rootTable space = some root := by
  obtain ⟨root', hroot, -, hf'⟩ := rootTable_of_alive h halive
  rw [hroot, h.ledger.books.frame_inj hf' hf]

theorem rootTable_of_not_alive {space : AddressSpace} (h : ¬ m.Alive space) :
    m.rootTable space = none := by
  rw [rootTable]
  cases hspaces : m.spaces with
  | none => rfl
  | some spaces =>
    show spaces.anyTable m.store.arena space = none
    unfold Spaces.anyTable
    exact if_neg fun hs => h ⟨spaces, hspaces, hs⟩

/-- The mapping that covers an address of a space, and its level. -/
def covering (m : Machine) (format : Format) (space : AddressSpace) (virt : VirtAddr) :
    Except Fault (Option (Mapping × Nat)) :=
  match m.rootTable space with
  | none => .ok none
  | some root => Walk.cover format m.store.arena root virt

theorem covering_eq_lookup (h : m.Sound format stock) {space : AddressSpace} {root : TableId}
    (hroot : m.rootTable space = some root) (virt : VirtAddr) :
    m.covering format space virt = .ok (m.store.arena.lookup format virt format.levels root) := by
  obtain ⟨⟨spaces, hspaces, -⟩, hl, -⟩ := rootTable_eq_some h hroot
  rw [covering, hroot]
  exact Arena.cover_eq_lookup (h.spaces hspaces).shaped.regular hl virt

theorem translate_eq_view (h : m.Sound format stock) {space : AddressSpace} {root : TableId}
    (hroot : m.rootTable space = some root) (virt : VirtAddr) :
    m.translate format space virt
      = .ok ((m.store.arena.view format root virt).map Prod.fst) := by
  obtain ⟨⟨spaces, hspaces, -⟩, hl, -⟩ := rootTable_eq_some h hroot
  rw [translate, hroot]
  exact Arena.resolve_eq_view (h.spaces hspaces).shaped hl virt

theorem getEntry_eq_lookup (h : m.Sound format stock) {space : AddressSpace} {root : TableId}
    (hroot : m.rootTable space = some root) (virt : VirtAddr) :
    m.getEntry format space virt
      = .ok (((m.store.arena.lookup format virt format.levels root).bind fun (mapping, l) =>
          if l = 0 then some mapping else none).map fun mapping =>
            ⟨mapping.frame, mapping.flags, format.encodePage mapping.frame mapping.flags 0⟩) := by
  obtain ⟨⟨spaces, hspaces, -⟩, hl, -⟩ := rootTable_eq_some h hroot
  rw [getEntry, hroot]
  simp only
  rw [Walk.leaf, Arena.leafFrom_eq_lookup (h.spaces hspaces).shaped virt hl,
    format.topLevel_add_one]
  cases (m.store.arena.lookup format virt format.levels root).bind fun (mapping, l) =>
    if l = 0 then some mapping else none with
  | none => rfl
  | some mapping => rfl

end Machine

end KernelMemory
