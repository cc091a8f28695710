/-
  KernelMemory.Proofs.Manager.TreeShape — the tables form trees, and every table has an owner.

  A table at level `l + 1` points at tables in use at level `l`, large pages stand at their
  level and are aligned to their size, and every table in use is below the root of a space that
  exists.  A table that is no root hangs from one slot, or from one index of the upper half of
  all roots.  So an operation never meets a table that was released, and never a table where a
  page has to be.

  Main results:
    * `tree_shape` — so it is in every state of every run, and what can stop the system then.
-/

import KernelMemory.Proofs.Manager.Populated

namespace KernelMemory

open Machine Manager Steps

namespace Arena

variable {format : Format} {kernel : TableId} {a : Arena}

/-- A table in use is below a root. -/
theorem Shaped.exists_root_above (h : a.Shaped format kernel) : ∀ {above id l : Nat},
    a.level? id = some l → l + above = format.topLevel →
      ∃ root, a.level? root = some format.topLevel ∧ a.Below root id := by
  -- induction on the levels above the table; each step goes up to a parent
  intro above
  induction above with
  | zero =>
    intro id l hl hsum
    obtain rfl : l = format.topLevel := hsum
    exact ⟨id, hl, .refl⟩
  | succ above ih =>
    intro id l hl hsum
    obtain ⟨p, i, hs⟩ := h.has_parent hl (by omega)
    obtain ⟨k, hp, hid⟩ := h.child hs
    obtain rfl := level_unique hl hid
    obtain ⟨root, hroot, hbelow⟩ := ih hp (by omega)
    exact ⟨root, hroot, hbelow.tail ⟨i, hs⟩⟩

end Arena

/-! ## Shape and ownership -/

/-- The tables of a machine form the trees of its spaces. -/
structure TreeShape (format : Format) (m : Machine) : Prop where
  /-- A table slot stands above the leaf level and names a table in use one level down. -/
  child : ∀ {p i c l : Nat}, m.store.arena.level? p = some l →
    m.store.arena.slot? p i = some (.table c) → ∃ k, l = k + 1 ∧ m.store.arena.level? c = some k
  /-- Leaf tables hold mappings of single frames. -/
  leaves : ∀ {p i : Nat} {x : Slot}, m.store.arena.level? p = some 0 →
    m.store.arena.slot? p i = some x → x = .empty ∨ ∃ mapping, x = .leaf mapping
  /-- Large pages stand at one level, and their frames are aligned to what they cover. -/
  large : ∀ {p i : Nat} {mapping : Mapping}, m.store.arena.slot? p i = some (.large mapping) →
    m.store.arena.level? p = some Format.largeLevel
      ∧ mapping.frame % format.span Format.largeLevel = 0
  /-- A table in use is below the root of a space that exists. -/
  owned : ∀ {id l : Nat}, m.store.arena.level? id = some l →
    ∃ space root, m.Alive space ∧ m.rootTable space = some root ∧ m.store.arena.Below root id
  /-- Nothing points at a root. -/
  roots : ∀ {p i root : Nat} {space : AddressSpace}, m.rootTable space = some root →
    m.store.arena.slot? p i ≠ some (.table root)
  /-- Another table hangs from exactly one slot, or else from one index of the upper half of
  the kernel root and of all other roots. -/
  parent : ∀ {c l : Nat} {spaces : Spaces}, m.spaces = some spaces →
    m.store.arena.level? c = some l → (∀ space, m.rootTable space ≠ some c) →
      ∃ p i, ∀ q j, m.store.arena.slot? q j = some (.table c) ↔ j = i ∧ (q = p
        ∨ p = spaces.kernelTable ∧ format.userSplit ≤ i ∧ ∃ space, m.rootTable space = some q)

section

variable {format : Format} {config : Config} {stock : Stock} {poolPages : Nat} {cpu : CpuId}
  {m : Machine} {s : System}

/-- The tables at the top are the roots of spaces. -/
theorem level_top_iff (h : m.Sound format stock) {id : TableId} :
    m.store.arena.level? id = some format.topLevel ↔ ∃ space, m.rootTable space = some id := by
  constructor
  · intro hl
    cases hspaces : m.spaces with
    | none =>
      rw [h.unstarted hspaces] at hl
      cases hl
    | some spaces =>
      rcases (h.spaces hspaces).owner hl with rfl | ⟨space, hs, hf⟩
      · exact ⟨spaces.kernel, rootTable_of_frame h ⟨spaces, hspaces, .inl rfl⟩
          (h.spaces hspaces).kernel⟩
      · exact ⟨space, rootTable_of_frame h ⟨spaces, hspaces, .inr hs⟩ hf⟩
  · rintro ⟨space, hroot⟩
    exact (rootTable_eq_some h hroot).2.1

/-- While there are no spaces there are no tables. -/
theorem exists_spaces_of_level (h : m.Sound format stock) {id l : Nat}
    (hl : m.store.arena.level? id = some l) : ∃ spaces, m.spaces = some spaces := by
  cases hspaces : m.spaces with
  | none =>
    rw [h.unstarted hspaces] at hl
    cases hl
  | some spaces => exact ⟨spaces, rfl⟩

/-- What hangs from the upper half of the kernel root hangs from every root. -/
theorem slot_of_shared {spaces : Spaces} {a : Arena} (h : spaces.Sound format a) {root i c : Nat}
    (hroot : a.level? root = some format.topLevel) (hi : format.userSplit ≤ i)
    (hs : a.slot? spaces.kernelTable i = some (.table c)) : a.slot? root i = some (.table c) := by
  obtain ⟨x, hx⟩ := h.shaped.regular.exists_slot hroot (h.shaped.slot_lt hs)
  obtain ⟨y, hy, hlike⟩ := h.upper hroot hi hx
  rw [hs] at hy
  injection hy with hy
  subst hy
  cases hlike
  exact hx

/-- The slots from which a table hangs that is no root. -/
theorem exists_parent {spaces : Spaces} {a : Arena} (h : spaces.Sound format a) {c l : Nat}
    (hl : a.level? c = some l) (hlt : l < format.topLevel) :
    ∃ p i, ∀ q j, a.slot? q j = some (.table c) ↔ j = i ∧ (q = p
      ∨ p = spaces.kernelTable ∧ format.userSplit ≤ i ∧ a.level? q = some format.topLevel) := by
  obtain ⟨p, i, hs⟩ := h.shaped.has_parent hl hlt
  -- a parent in the upper half of some root is one among all roots; any other is the only one
  by_cases hupper : a.level? p = some format.topLevel ∧ format.userSplit ≤ i
  · have hkernel := h.shaped.shared hupper.1 hupper.2 hs
    refine ⟨spaces.kernelTable, i, fun q j => ⟨fun hq => ?_, ?_⟩⟩
    · rcases h.shaped.parent_unique hq hkernel with ⟨rfl, rfl⟩ | ⟨htop, -, rfl, hi⟩
      · exact ⟨rfl, .inl rfl⟩
      · exact ⟨rfl, .inr ⟨rfl, hi, htop⟩⟩
    · rintro ⟨rfl, rfl | ⟨-, hi, htop⟩⟩
      · exact hkernel
      · exact slot_of_shared h htop hi hkernel
  · refine ⟨p, i, fun q j => ⟨fun hq => ?_, ?_⟩⟩
    · rcases h.shaped.parent_unique hs hq with ⟨rfl, rfl⟩ | ⟨htop, -, -, hi⟩
      · exact ⟨rfl, .inl rfl⟩
      · exact absurd ⟨htop, hi⟩ hupper
    · rintro ⟨rfl, rfl | ⟨rfl, hi, -⟩⟩
      · exact hs
      · exact absurd ⟨h.shaped.kernel_top, hi⟩ hupper

theorem treeShape_of_sound (h : m.Sound format stock) : TreeShape format m where
  child := fun {p i c l} hl hs => by
    obtain ⟨spaces, hspaces⟩ := exists_spaces_of_level h hl
    obtain ⟨k, hp, hc⟩ := (h.spaces hspaces).shaped.child hs
    exact ⟨k, Arena.level_unique hl hp, hc⟩
  leaves := fun {p i x} hl hs => by
    obtain ⟨spaces, hspaces⟩ := exists_spaces_of_level h hl
    have hshaped := (h.spaces hspaces).shaped
    cases x with
    | empty => exact .inl rfl
    | leaf mapping => exact .inr ⟨mapping, rfl⟩
    | table c => exact absurd hs (hshaped.regular.not_table_at_leaf hl)
    | large mapping =>
      have hlevel := (hshaped.large hs).1
      rw [hl] at hlevel
      cases hlevel
  large := fun {p i mapping} hs => by
    obtain ⟨l, hl⟩ := Arena.level?_of_slot? hs
    obtain ⟨spaces, hspaces⟩ := exists_spaces_of_level h hl
    obtain ⟨hlevel, hmod, -⟩ := (h.spaces hspaces).shaped.large hs
    exact ⟨hlevel, hmod⟩
  owned := fun {id l} hl => by
    obtain ⟨spaces, hspaces⟩ := exists_spaces_of_level h hl
    have hshaped := (h.spaces hspaces).shaped
    obtain ⟨root, hroot, hbelow⟩ := hshaped.exists_root_above hl
      (Nat.add_sub_of_le (hshaped.level_le hl))
    obtain ⟨space, hspace⟩ := (level_top_iff h).mp hroot
    exact ⟨space, root, (rootTable_eq_some h hspace).1, hspace, hbelow⟩
  roots := fun {p i root space} hroot hs => by
    obtain ⟨l, hl⟩ := Arena.level?_of_slot? hs
    obtain ⟨spaces, hspaces⟩ := exists_spaces_of_level h hl
    have hlt := (h.spaces hspaces).shaped.child_lt_top hs (rootTable_eq_some h hroot).2.1
    exact absurd hlt (Nat.lt_irrefl _)
  parent := fun {c l spaces} hspaces hl hnot => by
    have hsound := h.spaces hspaces
    have hlt : l < format.topLevel := by
      refine Nat.lt_of_le_of_ne (hsound.shaped.level_le hl) ?_
      rintro rfl
      obtain ⟨space, hroot⟩ := (level_top_iff h).mp hl
      exact hnot space hroot
    obtain ⟨p, i, hparent⟩ := exists_parent hsound hl hlt
    exact ⟨p, i, fun q j => by rw [hparent, level_top_iff h]⟩

/-! ## What can stop the system -/

/-- The one way in which what processors do can break a contract is an address that leaves the
word, and questions never do. -/
structure NeverStale (format : Format) (config : Config) (s : System) : Prop where
  call : ∀ {cpu : CpuId} {call : Call} {fault : Fault} {m' : Machine},
    call.Permitted s.stock.held →
      perform format config cpu call s.machine = .error (.fault fault) m' → fault = .addOverflow
  enter : ∀ {cpu : CpuId} {fault : Fault} {m' : Machine},
    enterKernel cpu s.machine ≠ .error (.fault fault) m'
  map : ∀ {cpu : CpuId} {space : AddressSpace} {virt phys size : Nat} {fault : Fault}
    {m' : Machine},
    mapTask format config cpu space virt phys size s.machine ≠ .error (.fault fault) m'
  leave : ∀ {cpu : CpuId} {range : UserRange} {result : Except MemoryError Unit} {fault : Fault}
    {m' : Machine}, s.stage cpu = .mapped range result →
      finishUser cpu range.virt range.size result s.machine = .error (.fault fault) m' →
        fault = .addOverflow
  translate : ∀ (space : AddressSpace) (virt : Nat),
    ∃ answer, s.machine.translate format space virt = .ok answer
  getEntry : ∀ (space : AddressSpace) (virt : Nat),
    ∃ answer, s.machine.getEntry format space virt = .ok answer

theorem exists_translate (h : m.Sound format stock) (space : AddressSpace) (virt : Nat) :
    ∃ answer, m.translate format space virt = .ok answer := by
  cases hroot : m.rootTable space with
  | none => exact ⟨none, by rw [Machine.translate, hroot]⟩
  | some root => exact ⟨_, translate_eq_view h hroot virt⟩

theorem exists_getEntry (h : m.Sound format stock) (space : AddressSpace) (virt : Nat) :
    ∃ answer, m.getEntry format space virt = .ok answer := by
  cases hroot : m.rootTable space with
  | none => exact ⟨none, by rw [Machine.getEntry, hroot]⟩
  | some root => exact ⟨_, getEntry_eq_lookup h hroot virt⟩

theorem neverStale_of_sound (h : s.Sound format) : NeverStale format config s where
  call := fun permitted e => (ends_perform h.machine h.placed permitted).of_error e
  enter := fun e => ends_enterKernel.of_error e
  map := fun e => (ends_mapTask h.machine).of_error e
  leave := fun {cpu range result fault m'} hstage e => by
    obtain ⟨saved, hsaved⟩ := h.inside (by rw [hstage]; trivial)
    exact (ends_finishUser h.placed hsaved).of_error e
  translate := exists_translate h.machine
  getEntry := exists_getEntry h.machine

/-- In every state that processors reach, the tables form the trees of the spaces, and so no
operation meets a table that was released or a table at the leaf level. -/
theorem tree_shape (h : Reachable format config AnyCall poolPages s) :
    TreeShape format s.machine ∧ NeverStale format config s :=
  ⟨treeShape_of_sound h.sound.machine, neverStale_of_sound h.sound⟩

/-- In particular, where kernel memory and the memory of a task are mapped. -/
theorem tree_shape_with_task : ∃ s spaces space, Reachable .narrow mirrored AnyCall 0 s
    ∧ s.machine.Populated spaces space ∧ TreeShape .narrow s.machine
    ∧ NeverStale .narrow mirrored s := by
  obtain ⟨s, spaces, space, hs, hmapped⟩ :
      ∃ s spaces space, Reachable .narrow mirrored AnyCall 0 s ∧ _ :=
    exists_populated trivial trivial trivial (fun _ => trivial) fun _ => trivial
  exact ⟨s, spaces, space, hs, hmapped, tree_shape hs⟩

end

end KernelMemory
