/-
  KernelMemory.Proofs.Manager.UpperHalf — the upper halves of the roots, slot by slot.

  A new root gets the upper slots of the kernel root as they are at that time, and nothing
  writes them again.  The kernel root goes on: once it is sealed its upper slots stay, but that
  mapping kernel memory can give another policy to a large page that sits in the root itself.
  Where large pages sit below the root, all roots agree on the upper half at all times.  Where
  they sit in the root, a task keeps the policy of the time when its space was made.

  Main results:
    * `upper_half` — what roots have in common in every state, what a step leaves of it, and
      that a task keeps the slots it was made with;
    * `stale_upper_half` — a run after which a task and the kernel differ.
-/

import KernelMemory.Proofs.Manager.Isolation

namespace KernelMemory

open Machine Manager Steps

/-! ## Slots of roots -/

/-- One slot, or the same large page in two roots, each with attributes of its own. -/
def Slot.SharedAs (format : Format) (x y : Slot) : Prop :=
  x = y ∨ format = .narrow ∧ ∃ frame f g, x = .large ⟨frame, f⟩ ∧ y = .large ⟨frame, g⟩

/-- A slot in the root of a space. -/
def Machine.rootSlot? (m : Machine) (space : AddressSpace) (index : Nat) : Option Slot :=
  (m.rootTable space).bind fun root => m.store.arena.slot? root index

section

variable {format : Format} {config : Config} {stock stock' : Stock} {cpu : CpuId}
  {action : Action} {m m' : Machine} {space : AddressSpace} {root i : Nat} {P : MapRequest → Prop}

theorem rootSlot?_eq (hroot : m.rootTable space = some root) :
    m.rootSlot? space i = m.store.arena.slot? root i := by
  unfold Machine.rootSlot?
  rw [hroot]
  rfl

/-- Slots of roots that differ in attributes at most hold a large page, or do not differ. -/
theorem sharedAs_of_like {a : Arena} {kernel : TableId} (h : a.Shaped format kernel)
    {x y : Slot} (hroot : a.level? root = some format.topLevel) (hx : a.slot? root i = some x)
    (hlike : x.Like y) : x.SharedAs format y := by
  cases hlike with
  | empty => exact .inl rfl
  | table child => exact .inl rfl
  | leaf frame f g =>
    have hzero := (h.leaf hx).1
    rw [hroot] at hzero
    injection hzero with hzero
    have hpos := format.topLevel_pos
    omega
  | large frame f g =>
    have hlarge := (h.large hx).1
    rw [hroot] at hlarge
    cases format with
    | narrow => exact .inr ⟨rfl, frame, f, g, rfl, rfl⟩
    | wide => exact absurd hlarge (by decide)

/-! ## States -/

/-- What the upper halves of the roots have in common. -/
structure UpperHalf (format : Format) (m : Machine) : Prop where
  /-- A task has the slots of the kernel; but a large page in the root may differ in policy. -/
  shared : ∀ {spaces : Spaces} {space : AddressSpace} {i : Nat}, m.spaces = some spaces →
    space ∈ spaces.tasks → format.userSplit ≤ i → i < format.entries →
      ∃ x y, m.rootSlot? space i = some x ∧ m.rootSlot? spaces.kernel i = some y
        ∧ x.SharedAs format y
  /-- So but for large pages in the root, the kernel's mappings are the task's, policy and all. -/
  inForce : ∀ {spaces : Spaces} {space : AddressSpace} {v : Nat}, m.spaces = some spaces →
    space ∈ spaces.tasks → format.virtualInRange v = true → format.userEnd ≤ v →
      (format = .wide ∨ ∀ mapping,
        m.rootSlot? spaces.kernel (format.index v format.topLevel) ≠ some (.large mapping)) →
        m.covering format space v = m.covering format spaces.kernel v

theorem upperHalf_of_sound (h : m.Sound format stock) : UpperHalf format m := by
  have hshared : ∀ {spaces : Spaces} {space : AddressSpace} {i : Nat}, m.spaces = some spaces →
      space ∈ spaces.tasks → format.userSplit ≤ i → i < format.entries →
        ∃ x y, m.rootSlot? space i = some x ∧ m.rootSlot? spaces.kernel i = some y
          ∧ x.SharedAs format y := by
    intro spaces space i hspaces htask hi hlt
    have hsound := h.spaces hspaces
    obtain ⟨root, hroot, hl, -⟩ := rootTable_of_alive h ⟨spaces, hspaces, .inr htask⟩
    have hkernel := rootTable_of_frame h ⟨spaces, hspaces, .inl rfl⟩ hsound.kernel
    obtain ⟨x, hx⟩ := hsound.shaped.regular.exists_slot hl hlt
    obtain ⟨y, hy, hlike⟩ := hsound.upper hl hi hx
    rw [rootSlot?_eq hroot, rootSlot?_eq hkernel]
    exact ⟨x, y, hx, hy, sharedAs_of_like hsound.shaped hl hx hlike⟩
  refine ⟨hshared, ?_⟩
  intro spaces space v hspaces htask hrange hv hlarge
  have hsound := h.spaces hspaces
  obtain ⟨root, hroot, -, -⟩ := rootTable_of_alive h ⟨spaces, hspaces, .inr htask⟩
  have hkernel := rootTable_of_frame h ⟨spaces, hspaces, .inl rfl⟩ hsound.kernel
  have hindex : format.userSplit ≤ format.index v format.topLevel := by
    by_contra hlow
    exact absurd ((Format.index_top_lt_iff hrange).mp (by omega)) (Nat.not_lt.mpr hv)
  obtain ⟨x, y, hx, hy, hxy⟩ := hshared hspaces htask hindex (format.index_lt v format.topLevel)
  have hsame : x = y := by
    rcases hxy with heq | ⟨rfl, frame, f, g, -, rfl⟩
    · exact heq
    · rcases hlarge with hwide | hnot
      · cases hwide
      · exact absurd hy (hnot _)
  rw [rootSlot?_eq hroot] at hx
  rw [rootSlot?_eq hkernel] at hy
  -- the first slot on the way down is one slot, so the lookups are one lookup
  have hlookup : m.store.arena.lookup format v format.levels root
      = m.store.arena.lookup format v format.levels spaces.kernelTable := by
    rw [← format.topLevel_add_one]
    unfold Arena.lookup
    rw [hx, hy, hsame]
  rw [covering_eq_lookup h hroot, covering_eq_lookup h hkernel, hlookup]

/-! ## Steps -/

/-- Whether an action maps kernel memory. -/
def Action.mapsKernel : Action → Prop
  | .call (.mapKernel ..) => True
  | _ => False

/-- What an action leaves of the upper half of the roots. -/
structure UpperKept (format : Format) (action : Action) (m m' : Machine) : Prop where
  /-- No task that goes on to exist gets another upper slot. -/
  task : ∀ {space : AddressSpace} {i : Nat}, m.HasTask space → m'.HasTask space →
    format.userSplit ≤ i → m'.rootSlot? space i = m.rootSlot? space i
  /-- The kernel keeps its own, unless kernel memory is mapped and large pages sit in the root. -/
  kernel : ∀ {spaces : Spaces} {i : Nat}, m.spaces = some spaces →
    format = .wide ∨ ¬ action.mapsKernel → format.userSplit ≤ i →
      m'.rootSlot? spaces.kernel i = m.rootSlot? spaces.kernel i

theorem rootSlot?_of_census (hcensus : m'.census = m.census)
    (harena : m'.store.arena = m.store.arena) : m'.rootSlot? space i = m.rootSlot? space i := by
  unfold Machine.rootSlot?
  rw [rootTable_of_census hcensus harena, harena]

/-- Edits that leave a slot of a root alone leave that slot of its space. -/
theorem rootSlot?_of_remapped {spaces : Spaces} (hr : Remapped format P m m')
    (h : m.Sound format stock) (h' : m'.Sound format stock') (hspaces : m.spaces = some spaces)
    (ready : AllReady format spaces.kernelTable P m.store) (hroot : m.rootTable space = some root)
    (hkept : ∀ {mid : TableStore}, Edits format P m.store mid →
      mid.arena.slot? root i = m.store.arena.slot? root i) :
    m'.rootSlot? space i = m.rootSlot? space i := by
  have hsame := rootTable_of_grows h h' hr.census (hr.grows h hspaces ready) space
  obtain ⟨mid, he, -, hmid⟩ := hr.edits
  rw [rootSlot?_eq hroot, rootSlot?_eq (hsame.trans hroot), hmid.alike.slot, hkept he]

/-- Mapping user memory writes no upper slot of any root. -/
theorem rootSlot?_of_mappedUser {a : AddressSpace} {virt phys : Nat}
    (hu : MappedUser format a virt phys m m') (h : m.Sound format stock)
    (hi : format.userSplit ≤ i) : m'.rootSlot? space i = m.rootSlot? space i := by
  have h' := hu.sound h
  rcases hu with hq | ⟨table, kernel, tasks, task, hcensus, -, hne, hl, hf, hr⟩
  · exact rootSlot?_of_census hq.census hq.store.arena
  · obtain ⟨spaces, hspaces, heq⟩ := exists_of_census hcensus
    simp only [Spaces.census, Prod.mk.injEq] at heq
    have ready : AllReady format spaces.kernelTable (UserRequest format task virt phys) m.store :=
      allReady_user hl
    have orderly : m.store.Orderly format spaces.kernelTable stock :=
      ⟨h.ledger, (h.spaces hspaces).shaped⟩
    have hsame := rootTable_of_grows h h' hr.census (hr.grows h hspaces ready) space
    cases hroot : m.rootTable space with
    | none =>
      unfold Machine.rootSlot?
      rw [hsame, hroot]
      rfl
    | some root =>
      refine rootSlot?_of_remapped hr h h' hspaces ready hroot fun {mid} he => ?_
      by_cases htask : root = task
      · -- pages of a task fall into the lower slots of its root
        subst htask
        refine he.slot_of_root orderly ready (fun r hreq => hreq.root) fun r hreq _ _ _ piece => ?_
        have hlow := piece.index_lt (ready r hreq).fits
          (by rw [hreq.root, heq.1]; exact hne)
        omega
      · exact he.slot_of_other orderly ready (rootTable_eq_some h hroot).2.1
          (fun r hreq => by rw [hreq.root]; exact htask) i

/-- Mapping kernel memory writes no slot of the root of a task. -/
theorem taskSlot_of_mappedKernel {spaces : Spaces} (hk : MappedKernel format config m m')
    (h : m.Sound format stock) (hspaces : m.spaces = some spaces) (htask : space ∈ spaces.tasks) :
    m'.rootSlot? space i = m.rootSlot? space i := by
  have h' := hk.sound h
  rcases hk.tables with hq | ⟨spaces', hspaces', hr⟩
  · exact rootSlot?_of_census hq.census hq.store.arena
  · rw [hspaces] at hspaces'
    injection hspaces' with hspaces'
    subst hspaces'
    have hsound := h.spaces hspaces
    have ready : AllReady format spaces.kernelTable (SealedRequest format config spaces) m.store :=
      allReady_kernel ⟨spaces.kernelTable, true⟩ hsound.shaped.kernel_top
    obtain ⟨root, hroot, hl, hf⟩ := rootTable_of_alive h ⟨spaces, hspaces, .inr htask⟩
    refine rootSlot?_of_remapped hr h h' hspaces ready hroot fun {mid} he => ?_
    refine he.slot_of_other ⟨h.ledger, hsound.shaped⟩ ready hl (fun r hreq => ?_) i
    rw [hreq.root]
    rintro rfl
    have hkernel := hsound.kernel
    rw [hf] at hkernel
    injection hkernel with hkernel
    exact hsound.task_root_ne h.ledger.books htask hkernel

/-- Where large pages sit below the root, mapping kernel memory writes no slot of the root of
the kernel either. -/
theorem kernelSlot_of_mappedKernel {spaces : Spaces} (hk : MappedKernel .wide config m m')
    (h : m.Sound .wide stock) (hspaces : m.spaces = some spaces) :
    m'.rootSlot? spaces.kernel i = m.rootSlot? spaces.kernel i := by
  have h' := hk.sound h
  rcases hk.tables with hq | ⟨spaces', hspaces', hr⟩
  · exact rootSlot?_of_census hq.census hq.store.arena
  · rw [hspaces] at hspaces'
    injection hspaces' with hspaces'
    subst hspaces'
    have hsound := h.spaces hspaces
    have hl := hsound.shaped.kernel_top
    have ready : AllReady .wide spaces.kernelTable (SealedRequest .wide config spaces) m.store :=
      allReady_kernel ⟨spaces.kernelTable, true⟩ hl
    have hroot := rootTable_of_frame h ⟨spaces, hspaces, .inl rfl⟩ hsound.kernel
    refine rootSlot?_of_remapped hr h h' hspaces ready hroot fun {mid} he => ?_
    have orderly : m.store.Orderly .wide spaces.kernelTable stock := ⟨h.ledger, hsound.shaped⟩
    -- a slot that is there differs in attributes at most, so it is the slot it was
    cases hx : m.store.arena.slot? spaces.kernelTable i with
    | some x =>
      obtain ⟨y, hy, hlike⟩ := he.slot_of_sealed orderly ready (fun r hreq => hreq.root)
        (fun r hreq => hreq.sealing) hx
      rw [hy]
      rcases sharedAs_of_like hsound.shaped hl hx hlike with heq | ⟨hnarrow, -⟩
      · rw [heq]
      · cases hnarrow
    | none =>
      cases hy : mid.arena.slot? spaces.kernelTable i with
      | none => rfl
      | some y =>
        have hlt := (he.orderly orderly ready).shaped.slot_lt hy
        obtain ⟨x, hx'⟩ := hsound.shaped.regular.exists_slot hl hlt
        rw [hx] at hx'
        cases hx'

/-- Spaces that go on to exist keep their upper slots, whatever is done; for the kernel space,
unless kernel memory is mapped and large pages sit in the root. -/
theorem rootSlot?_of_effect (e : Effect format config cpu stock m action stock' m')
    (h : m.Sound format stock) {spaces : Spaces} (hspaces : m.spaces = some spaces)
    (halive : m.Alive space) (hleft : m'.Alive space) (hi : format.userSplit ≤ i)
    (hkernel : space ∈ spaces.tasks ∨ format = .wide ∨ ¬ action.mapsKernel) :
    m'.rootSlot? space i = m.rootSlot? space i := by
  have h' := e.sound h
  cases e with
  | refrained hr _ => exact rootSlot?_of_census hr.calm.census hr.calm.arena
  | covered hc => exact rootSlot?_of_census hc.calm.census hc.calm.arena
  | started hi =>
    rw [hi.started.unstarted] at hspaces
    cases hspaces
  | mappedKernel hk =>
    by_cases htask : space ∈ spaces.tasks
    · exact taskSlot_of_mappedKernel hk h hspaces htask
    · obtain rfl : space = spaces.kernel :=
        ((alive_of_some hspaces).mp halive).resolve_right htask
      rcases hkernel with hin | rfl | hnot
      · exact absurd hin htask
      · exact kernelSlot_of_mappedKernel hk h hspaces
      · exact absurd trivial hnot
  | created hc _ =>
    obtain ⟨root, hroot, hl, hf⟩ := rootTable_of_alive h halive
    obtain ⟨spaces', new, hspaces', hrooted, -, -⟩ := hc.rooted
    have hne := hrooted.ne_root hl
    have hroot' := rootTable_of_frame h' hleft ((hrooted.frame hne).trans hf)
    rw [rootSlot?_eq hroot, rootSlot?_eq hroot', hrooted.slot_other i hne]
  | @deleted old _ hd _ _ =>
    obtain ⟨root, hroot, hl, hf⟩ := rootTable_of_alive h halive
    obtain ⟨spaces', gone, hspaces', hmem, -, -, hf', hpruned, hcensus⟩ := hd.pruned
    rw [hspaces] at hspaces'
    injection hspaces' with hspaces'
    subst hspaces'
    have hsound := h.spaces hspaces
    have hne : root ≠ gone := by
      rintro rfl
      rw [AddressSpace.eq_of_frame hf hf'] at hleft
      exact hd.not_alive h hleft
    have hkept := Arena.not_private_of_top hsound.shaped hl hne
    have hroot' := rootTable_of_frame h' hleft ((hpruned.frame hkept).trans hf)
    rw [rootSlot?_eq hroot, rootSlot?_eq hroot', hpruned.slot hkept]
  | mappedUser hu => exact rootSlot?_of_mappedUser hu.tables h hi
  | mapped hu _ => exact rootSlot?_of_mappedUser hu h hi
  | moved _ hq _ _ => exact rootSlot?_of_census hq.census hq.store.arena

/-- The kernel space goes on to exist, whatever is done. -/
theorem alive_kernel_of_effect (e : Effect format config cpu stock m action stock' m')
    (h : m.Sound format stock) {spaces : Spaces} (hspaces : m.spaces = some spaces) :
    m'.Alive spaces.kernel := by
  have halive : m.Alive spaces.kernel := ⟨spaces, hspaces, .inl rfl⟩
  cases e with
  | refrained hr _ => exact (alive_of_census hr.calm.census).mpr halive
  | covered hc => exact (alive_of_census hc.calm.census).mpr halive
  | started hi =>
    rw [hi.started.unstarted] at hspaces
    cases hspaces
  | mappedKernel hk =>
    rcases hk.tables with hq | ⟨_, _, hr⟩
    · exact (alive_of_census hq.census).mpr halive
    · exact (alive_of_census hr.census).mpr halive
  | created hc _ => exact hc.alive halive
  | deleted hd _ _ =>
    apply hd.alive halive
    obtain ⟨spaces', root, hspaces', hmem, -⟩ := hd.pruned
    rw [hspaces] at hspaces'
    injection hspaces' with hspaces'
    subst hspaces'
    intro heq
    exact (h.spaces hspaces).task_root_ne h.ledger.books hmem (congrArg AddressSpace.root heq.symm)
  | mappedUser hu => exact (alive_of_census hu.tables.census).mpr halive
  | mapped hu _ => exact (alive_of_census hu.census).mpr halive
  | moved _ hq _ _ => exact (alive_of_census hq.census).mpr halive

theorem upperKept_of_effect (e : Effect format config cpu stock m action stock' m')
    (h : m.Sound format stock) : UpperKept format action m m' where
  task := by
    intro space i htask hleft hi
    obtain ⟨spaces, hspaces, hmem⟩ := htask
    obtain ⟨spaces', hspaces', hmem'⟩ := hleft
    exact rootSlot?_of_effect e h hspaces ⟨spaces, hspaces, .inr hmem⟩
      ⟨spaces', hspaces', .inr hmem'⟩ hi (.inl hmem)
  kernel := by
    intro spaces i hspaces hnot hi
    exact rootSlot?_of_effect e h hspaces ⟨spaces, hspaces, .inl rfl⟩
      (alive_kernel_of_effect e h hspaces) hi (.inr hnot)

/-- A space that is there after a call to make one, and was not before, is the one made. -/
theorem created_of_effect (e : Effect format config cpu stock m (.call .createSpace) stock' m')
    (hnew : ¬ m.Alive space) (halive : m'.Alive space) : Created format stock space m m' := by
  cases e with
  | refrained hr _ => exact absurd ((alive_of_census hr.calm.census).mp halive) hnew
  | moved hmoves _ _ _ => exact hmoves.elim
  | @created made _ hc _ =>
    obtain ⟨spaces, root, hspaces, -, -, hcensus⟩ := hc.rooted
    obtain ⟨table, kernel, tasks, hcensus', hin⟩ := alive_iff.mp halive
    rw [hcensus] at hcensus'
    simp only [Option.some.injEq, Prod.mk.injEq] at hcensus'
    obtain ⟨-, rfl, rfl⟩ := hcensus'
    rcases hin with rfl | hin
    · exact absurd ⟨spaces, hspaces, .inl rfl⟩ hnew
    · rcases List.mem_insert_iff.mp hin with rfl | hin
      · exact hc
      · exact absurd ⟨spaces, hspaces, .inr hin⟩ hnew

/-- A new root has the upper slots of the kernel root as they are. -/
theorem rootSlot?_of_created {spaces : Spaces} (hc : Created format stock space m m')
    (h : m.Sound format stock) (hspaces : m.spaces = some spaces) (hi : format.userSplit ≤ i)
    (hlt : i < format.entries) : m'.rootSlot? space i = m.rootSlot? spaces.kernel i := by
  have h' := hc.sound h
  obtain ⟨spaces', root, hspaces', hrooted, hframe, hcensus⟩ := hc.rooted
  rw [hspaces] at hspaces'
  injection hspaces' with hspaces'
  subst hspaces'
  have halive : m'.Alive space :=
    alive_iff.mpr ⟨_, _, _, hcensus, .inr List.mem_insert_self⟩
  have hkernel := rootTable_of_frame h ⟨spaces, hspaces, .inl rfl⟩ (h.spaces hspaces).kernel
  rw [rootSlot?_eq (rootTable_of_frame h' halive hframe), rootSlot?_eq hkernel, hrooted.slot_root,
    if_pos ⟨hi, hlt⟩]

/-- In every state of every run tasks have the upper slots of the kernel, but for the policy of
large pages in the root; no step writes an upper slot of a task that goes on to exist; and so a
task has the upper slots that the kernel had when its space was made. -/
theorem upper_half {poolPages : Nat} {s : System} (h : Reachable format config AnyCall poolPages s) :
    UpperHalf format s.machine
      ∧ (∀ {cpu : CpuId} {action : Action} {s' : System},
        Step format config AnyCall cpu action s s' → UpperKept format action s.machine s'.machine)
      ∧ ∀ {cpu : CpuId} {made later : System} {spaces : Spaces} {space : AddressSpace} {i : Nat},
        s.machine.spaces = some spaces → ¬ s.machine.Alive space →
        Step format config AnyCall cpu (.call .createSpace) s made →
        Run format config AnyCall (fun t => t.machine.HasTask space) made later →
        format.userSplit ≤ i → i < format.entries →
          later.machine.rootSlot? space i = s.machine.rootSlot? spaces.kernel i := by
  refine ⟨upperHalf_of_sound h.sound.machine, ?_, ?_⟩
  · intro cpu action s' hstep
    exact upperKept_of_effect (hstep.effect h.sound) h.sound.machine
  · intro cpu made later spaces space i hspaces hnew hstep hrun hi hlt
    obtain ⟨spaces', hspaces', hmem⟩ := hrun.along_start
    have hcreated := created_of_effect (hstep.effect h.sound) hnew ⟨spaces', hspaces', .inr hmem⟩
    -- the slots are the kernel's at first, and no step of the run writes them
    have hsame : later.machine.rootSlot? space i = made.machine.rootSlot? space i := by
      apply hrun.eq_of_step (f := fun t => t.machine.rootSlot? space i) (h.step hstep)
      intro t u mover action ht hbefore hafter hnext
      exact (upperKept_of_effect (hnext.effect ht.sound) ht.sound.machine).task hbefore hafter hi
    rw [hsame, rootSlot?_of_created hcreated h.sound.machine hspaces hi hlt]

/-- In particular, where kernel memory and the memory of a task are mapped. -/
theorem upper_half_with_task : ∃ s spaces space, Reachable .narrow mirrored AnyCall 0 s
    ∧ s.machine.Populated spaces space
    ∧ UpperHalf .narrow s.machine
    ∧ (∀ {cpu : CpuId} {action : Action} {s' : System},
      Step .narrow mirrored AnyCall cpu action s s' →
        UpperKept .narrow action s.machine s'.machine)
    ∧ ∀ {cpu : CpuId} {made later : System} {spaces : Spaces} {space : AddressSpace} {i : Nat},
      s.machine.spaces = some spaces → ¬ s.machine.Alive space →
      Step .narrow mirrored AnyCall cpu (.call .createSpace) s made →
      Run .narrow mirrored AnyCall (fun t => t.machine.HasTask space) made later →
      Format.narrow.userSplit ≤ i → i < Format.narrow.entries →
        later.machine.rootSlot? space i = s.machine.rootSlot? spaces.kernel i := by
  obtain ⟨s, spaces, space, hs, hmapped⟩ :
      ∃ s spaces space, Reachable .narrow mirrored AnyCall 0 s ∧ _ :=
    exists_populated trivial trivial trivial (fun _ => trivial) fun _ => trivial
  exact ⟨s, spaces, space, hs, hmapped, upper_half hs⟩

end

/-! ## A task and the kernel that differ -/

/-- A range that is one block of the root, where large pages sit in the root. -/
structure RootBlock (virt : VirtAddr) (phys : PhysAddr) (size i : Nat) : Prop where
  pos : size ≠ 0
  check : checkRange .narrow virt phys size = .ok ()
  bounds : pageBounds virt phys size = some (virt, phys, Format.narrow.span Format.largeLevel)
  not_null : virt ≠ 0
  virt_mod : virt % Format.narrow.span Format.largeLevel = 0
  phys_mod : phys % Format.narrow.span Format.largeLevel = 0
  index : Format.narrow.index virt Format.largeLevel = i

/-- A slot of the root was given a mapping. -/
structure BlockMapped (root i : Nat) (mapping : Mapping) (s s' : TableStore) : Prop where
  frames : s'.frames = s.frames
  slot : ∀ j, s'.arena.slot? root j
    = if j = i then some (.large mapping) else s.arena.slot? root j

section

variable {s : TableStore} {root : TableId} {virt : VirtAddr} {phys : PhysAddr} {size i : Nat} {flags : PageFlags}
  {rootSealed user : Bool} {old : Slot}

/-- The large page is written into the slot, or is there already. -/
theorem ends_install_block (request : MapRequest)
    (hslot : s.arena.slot? request.root (Format.narrow.index virt Format.largeLevel) = some old)
    (hold : old = .empty ∧ request.rootSealed = false ∨ ∃ flags, old = .large ⟨phys, flags⟩) :
    Ends (Walk.install .narrow request virt phys Format.largeLevel request.root) s
      (fun step s' => step ≠ none ∧ BlockMapped request.root
        (Format.narrow.index virt Format.largeLevel) ⟨phys, request.flags⟩ s s')
      (fun _ _ => False) := by
  have hput : BlockMapped request.root (Format.narrow.index virt Format.largeLevel)
      ⟨phys, request.flags⟩ s { s with arena := (s.arena.put request.root
          (Format.narrow.index virt Format.largeLevel) (.large ⟨phys, request.flags⟩)) } := by
    refine ⟨rfl, fun j => ?_⟩
    show (s.arena.put _ _ _).slot? request.root j = _
    rw [Arena.slot?_put, hslot]
    simp
  unfold Walk.install
  rw [ends_bind, TableStore.ends_slot hslot]
  rcases hold with ⟨rfl, hopen⟩ | ⟨flags', rfl⟩
  · simp only
    rw [if_neg (by rw [hopen]; decide), ends_bind, TableStore.ends_setSlot hslot]
    exact ⟨by simp, hput⟩
  · simp only
    rw [ends_bind]
    unfold Walk.remap
    rw [if_neg (by simp)]
    by_cases hflags : flags' = request.flags
    · rw [if_pos hflags]
      refine ⟨by simp, rfl, fun j => ?_⟩
      by_cases hj : j = Format.narrow.index virt Format.largeLevel
      · rw [if_pos hj, hj, hslot, hflags]
      · rw [if_neg hj]
    · rw [if_neg hflags, ends_bind, TableStore.ends_setSlot hslot]
      exact ⟨by simp, hput⟩

/-- A block of the root is mapped without going down. -/
theorem ends_mapView_block {config : Config} (block : RootBlock virt phys size i)
    (hlarge : config.largePages = true) (hslot : s.arena.slot? root i = some old)
    (hold : old = .empty ∧ rootSealed = false ∨ ∃ flags, old = .large ⟨phys, flags⟩) :
    Ends (mapView .narrow config ⟨root, rootSealed⟩ virt phys size flags) s
      (fun _ s' => BlockMapped root i ⟨phys, flags⟩ s s') (fun _ _ => False) := by
  have hindex := block.index
  subst hindex
  unfold mapView
  rw [if_neg block.pos, ends_bind, ends_ofResult_ok block.check, hlarge]
  unfold Walk.mapRange
  simp only [block.bounds]
  rw [if_neg fun hzero => block.not_null hzero.1]
  show Ends (Walk.mapPages .narrow ⟨root, virt, phys, size, flags, rootSealed, false, true⟩
    (1023 + 1) virt phys (Format.narrow.span Format.largeLevel) {}) s _ _
  rw [Walk.mapPages, if_neg (by decide), ends_bind]
  have hfits : Walk.fitsLarge .narrow ⟨root, virt, phys, size, flags, rootSealed, false, true⟩
      virt phys (Format.narrow.span Format.largeLevel) = true := by
    unfold Walk.fitsLarge
    simp only [block.virt_mod, block.phys_mod]
    decide
  unfold Walk.mapNext
  rw [if_pos hfits, ends_bind]
  show Ends (Walk.install .narrow ⟨root, virt, phys, size, flags, rootSealed, false, true⟩
    virt phys Format.largeLevel root) s _ _
  refine (ends_install_block _ hslot hold).mono (fun step s' hs => ?_) fun _ _ hf => hf
  cases step with
  | none => exact absurd rfl hs.1
  | some step =>
    rw [ends_pure]
    simp only
    rw [if_pos (Nat.sub_self _)]
    exact hs.2

/-- Kernel memory that is one block of the root, and is seen at its own address alone. -/
structure KernelBlock (config : Config) (address : PhysAddr) (size i : Nat) : Prop where
  largePages : config.largePages = true
  second : secondView config address = .ok none
  block : RootBlock (VirtAddr.identity address) address size i

/-- The slot of a root for a large page that is mapped with a policy. -/
abbrev kernelLarge (frame : PhysAddr) (policy : CachePolicy) : Slot :=
  .large ⟨frame, PageFlags.kernelData.withCachePolicy policy⟩

theorem ends_mapViews_block {config : Config} {address : PhysAddr} {policy : CachePolicy}
    (kernel : KernelBlock config address size i) (hslot : s.arena.slot? root i = some old)
    (hold : old = .empty ∧ rootSealed = false ∨ ∃ flags, old = .large ⟨address, flags⟩) :
    Ends (mapViews .narrow config ⟨root, rootSealed⟩ address size policy) s
      (fun _ s' => s'.frames = s.frames
        ∧ s'.arena.slot? root i = some (kernelLarge address policy))
      (fun _ _ => False) := by
  unfold mapViews
  rw [ends_bind, ends_ofResult_ok kernel.second, ends_bind, ends_ofResult_ok kernel.block.check]
  simp only
  rw [ends_bind]
  refine (ends_mapView_block kernel.block kernel.largePages hslot hold).mono
    (fun _ s' h' => ?_) fun _ _ hf => hf
  exact ⟨h'.frames, by rw [h'.slot, if_pos rfl]⟩

/-- Mapping the block once more gives the slot the new policy. -/
theorem ends_mapKernel_block {config : Config} {stock : Stock} {m : Machine} {cpu : CpuId}
    {address : PhysAddr} {spaces : Spaces} {before policy : CachePolicy}
    (kernel : KernelBlock config address size i) (hlong : flushThreshold * frameSize < size)
    (h : m.Sound .narrow stock) (hspaces : m.spaces = some spaces)
    (hslot : m.store.arena.slot? spaces.kernelTable i = some (kernelLarge address before)) :
    Ends (mapKernel .narrow config cpu address size policy) m
      (fun _ m' => m'.census = m.census
        ∧ m'.store.arena.slot? spaces.kernelTable i = some (kernelLarge address policy))
      (fun _ _ => False) := by
  have hsound := h.spaces hspaces
  have ready : AllReady .narrow spaces.kernelTable (SealedRequest .narrow config spaces) m.store :=
    allReady_kernel ⟨spaces.kernelTable, true⟩ hsound.shaped.kernel_top
  have orderly : m.store.Orderly .narrow spaces.kernelTable stock := ⟨h.ledger, hsound.shaped⟩
  rw [mapKernel_eq, ends_bind, ends_started_some hspaces, ends_bind, ends_attempt, ends_onStore]
  refine ((ends_mapViews none ⟨orderly, hsound.shaped.kernel_top⟩).and
    (ends_mapViews_block kernel hslot (.inr ⟨_, rfl⟩))).mono (fun changed s hs => ?_) fun f s hf => hf.2.elim
  obtain ⟨he, -, hafter⟩ := hs
  unfold finishKernel
  rw [ends_bind]
  refine ends_commit (m := { m with store := s }) (he.orderly orderly ready)
    (he.synced orderly ready h.settled.synced) _ _ fun count a memory hunmarked hsettled => ?_
  -- the block is long, so caches are dropped as a whole
  have hdrop : ∀ (virt : VirtAddr) {m : Machine},
      Ends (invalidate cpu virt size) m (fun _ m' => Still m m') (fun _ _ => False) := by
    intro virt m
    unfold invalidate
    rw [if_neg (by omega)]
    split
    · exact still_modifyCpu fun _ => rfl
    · rename_i start phys length hb
      have hlength := (pageBounds_spec hb).2.2
      have hmany : flushThreshold < length / frameSize := by
        unfold flushThreshold frameSize at *
        omega
      rw [if_pos hmany]
      exact still_modifyCpu fun _ => rfl
  simp only
  rw [ends_bind]
  refine (hdrop _).mono (fun _ m₁ h₁ => ?_) fun _ _ hf => hf
  rw [kernel.second]
  simp only [reportKernel]
  have hdone : ∀ {m'}, Still m₁ m' → m'.census = m.census
      ∧ m'.store.arena.slot? spaces.kernelTable i = some (kernelLarge address policy) := by
    intro m' h₂
    have hstill := h₁.trans h₂
    refine ⟨hstill.quiet.census, ?_⟩
    rw [hstill.quiet.store.arena]
    exact (hunmarked.alike.slot _ _).trans hafter
  split
  · rw [ends_bind, ends_add]
    exact ⟨fun _ => ends_write _ _ (fun _ m' => m'.census = m.census
      ∧ m'.store.arena.slot? spaces.kernelTable i = some (kernelLarge address policy)) _
      fun m' h₂ => hdone h₂, fun hle => by
        have hword := lt_bound_of_checkRange (by omega) kernel.block.check
        omega⟩
  · exact hdone (.refl m₁)

end

/-- A little free memory that is not mapped, and device registers from 2 GiB on, where the upper
half starts. -/
def deviceMap : BootMap :=
  ⟨[⟨0, .free, ⟨false, true⟩⟩, ⟨0x4000, .reserved, .none⟩, ⟨0x80000000, .device, .none⟩,
    ⟨0x80400000, .endMarker, .none⟩], by decide⟩

theorem ends_populate_device {config : Config} {stock : Stock} {memory : Memory} {frame : PhysAddr}
    {root : TableId} {s : TableStore} (kernel : KernelBlock config 0x80000000 0x400000 512)
    (hfirst : FirstRoot .narrow stock memory frame root s) (hbase : config.kernelImageBase = none)
    (image : Option MemoryRegion) :
    Ends (populate .narrow config ⟨root, false⟩ deviceMap image []) s
      (fun _ s' => s'.frames = s.frames
        ∧ s'.arena.slot? root 512 = some (kernelLarge 0x80000000 .uncached))
      (fun _ _ => False) := by
  have hempty : s.arena.slot? root 512 = some .empty := hfirst.slot_root (by decide)
  have hregions : deviceMap.regions.filter BootRegion.isMapped
      = [⟨⟨0x80000000, 0x400000⟩, .device, .none⟩] := by decide
  have hreach : reachable .narrow ⟨⟨0x80000000, 0x400000⟩, .device, .none⟩
      = (pure (some ⟨0x80000000, 0x400000⟩) : TableSteps (Option MemoryRegion)) := by
    unfold reachable
    simp only
    rw [if_neg (by decide), if_neg (by decide)]
  have himage : mapImage .narrow config ⟨root, false⟩ image = pure () := by
    unfold mapImage
    rw [hbase]
  unfold populate
  rw [hregions, himage, ends_bind]
  unfold mapRegions
  rw [hreach, ends_bind, ends_pure]
  simp only
  rw [ends_bind]
  refine (ends_mapViews_block kernel hempty (.inl ⟨rfl, rfl⟩)).mono (fun _ s₁ h₁ => ?_)
    fun _ _ hf => hf
  rw [ends_bind, TableStore.ends_write]
  exact h₁

theorem kernelBlock_device : KernelBlock {} 0x80000000 0x400000 512 where
  largePages := rfl
  second := rfl
  block := by constructor <;> decide

/-- Frames 1 and 2 of the map are free, so two frames are there to be handed out. -/
theorem exists_two_frames : ∃ first second,
    (FrameAllocator.init ⟨0, none⟩ deviceMap {}).2.1.allocatePage.1 = .ok first
      ∧ (FrameAllocator.init ⟨0, none⟩ deviceMap {}).2.1.allocatePage.2.allocatePage.1
        = .ok second := by
  have hwf : (FrameAllocator.init ⟨0, none⟩ deviceMap {}).2.1.WellFormed :=
    (FrameAllocator.init_wellFormed (FrameAllocator.wellFormed_unstarted 0) (by decide) {}).1
  have hregions : deviceMap.regions
      = [⟨⟨0, 0x4000⟩, .free, ⟨false, true⟩⟩, ⟨⟨0x4000, 0x7fffc000⟩, .reserved, .none⟩,
        ⟨⟨0x80000000, 0x400000⟩, .device, .none⟩] := by decide
  have hfree : ∀ frame, frame = 1 ∨ frame = 2 →
      (FrameAllocator.init ⟨0, none⟩ deviceMap {}).2.1.isFree frame = true := by
    intro frame hframe
    rw [FrameAllocator.isFree_init, FrameBitmap.isFree_ofMap (by rw [hregions]; decide), hregions]
    have hstop : deviceMap.stop = 0x80400000 := rfl
    refine ⟨by omega, ?_, ⟨⟨0, 0x4000⟩, .free, ⟨false, true⟩⟩, List.mem_cons_self, rfl, ?_, ?_⟩
    · rw [hstop]
      unfold frameSize
      omega
    · exact Nat.not_lt_zero _
    · show ¬ 0 + 0x4000 < (frame + 1) * frameSize
      unfold frameSize
      omega
  obtain ⟨first, after, e⟩ := FrameAllocator.exists_allocatePage hwf (hfree 1 (.inl rfl))
  obtain ⟨taken, -, -, hwf', -, hafter⟩ := FrameAllocator.allocatePage_ok hwf e
  -- one frame was taken, so one of the two is left
  obtain ⟨left, hleft⟩ : ∃ left, after.isFree left = true := by
    by_cases heq : taken = 1
    · refine ⟨2, ?_⟩
      rw [hafter, hfree 2 (.inr rfl), heq]
      decide
    · refine ⟨1, ?_⟩
      rw [hafter, hfree 1 (.inl rfl)]
      simpa using Ne.symm heq
  obtain ⟨second, rest, e'⟩ := FrameAllocator.exists_allocatePage hwf' hleft
  exact ⟨first, second, by rw [e], by rw [e, e']⟩

/-- Where the allocator and the manager were started with that map, the kernel tree has the registers
uncached, and a frame is left. -/
theorem exists_started_device {config : Config} (kernel : KernelBlock config 0x80000000 0x400000 512)
    (hbase : config.kernelImageBase = none) : ∃ m stock second,
    Answered .narrow config AnyCall 0 [(0, .initFrames deviceMap), (0, .init deviceMap [])] m stock
      ∧ m.store.frames.allocatePage.1 = .ok second
      ∧ ∃ spaces, m.spaces = some spaces ∧ m.store.arena.slot? spaces.kernelTable 512
        = some (kernelLarge 0x80000000 .uncached) := by
  obtain ⟨first, second, hfirst, hsecond⟩ := exists_two_frames
  obtain ⟨m₁, stock₁, h₁, hframes₁, hspaces₁⟩ : ∃ m stock,
      Answered .narrow config AnyCall 0 [(0, .initFrames deviceMap)] m stock ∧ _ ∧ _ :=
    answered_initFrames (by decide) trivial 0
  rw [← hframes₁] at hfirst hsecond
  obtain ⟨m₂, stock₂, h₂, root, frame, s, ⟨hs, hslot⟩, hinstalled⟩ :=
    h₁.init deviceMap [] hspaces₁ hfirst trivial 0
      (fun root s => s.frames = m₁.store.frames.allocatePage.2
        ∧ s.arena.slot? root 512 = some (kernelLarge 0x80000000 .uncached))
      fun hallocated hroot => (ends_populate_device kernel hroot hbase _).mono
        (fun _ _ hdone => ⟨by rw [hdone.1, hallocated], hdone.2⟩) fun _ _ hf => hf
  obtain ⟨spaces₂, hspaces₂, hcensus₂⟩ := exists_of_census hinstalled.census
  simp only [Spaces.census, Prod.mk.injEq] at hcensus₂
  refine ⟨m₂, stock₂, second, h₂, by rw [hinstalled.frames, hs]; exact hsecond, spaces₂, hspaces₂, ?_⟩
  rw [hcensus₂.1]
  exact (hinstalled.unmarked.alike.slot _ _).trans hslot

/-- The manager starts, a task space is made, and then the registers get another policy. -/
def policyChange : List (CpuId × Call) :=
  [(0, .initFrames deviceMap), (0, .init deviceMap []), (0, .createSpace),
    (0, .mapKernel 0x80000000 0x400000 .writeBack)]

theorem exists_policyChange {config : Config} (kernel : KernelBlock config 0x80000000 0x400000 512)
    (hbase : config.kernelImageBase = none) : ∃ m stock spaces space,
    run .narrow config (Machine.powerOn 0) policyChange = .ok m
      ∧ Reachable .narrow config AnyCall 0 ⟨m, stock, fun _ => .idle⟩
      ∧ m.spaces = some spaces ∧ space ∈ spaces.tasks
      ∧ m.rootSlot? spaces.kernel 512 = some (kernelLarge 0x80000000 .writeBack)
      ∧ m.rootSlot? space 512 = some (kernelLarge 0x80000000 .uncached) := by
  obtain ⟨m₂, stock₂, second, h₂, hsecond, spaces₂, hspaces₂, hslot₂⟩ :=
    exists_started_device kernel hbase
  -- a task takes that over
  obtain ⟨m₃, stock₃, h₃, space, hcreated⟩ := h₂.createSpace hspaces₂ hsecond trivial 0
  have hsound₂ := h₂.reachable.sound.machine
  have hsound₃ := h₃.reachable.sound.machine
  have htask₃ : m₃.rootSlot? space 512 = some (kernelLarge 0x80000000 .uncached) := by
    rw [rootSlot?_of_created hcreated hsound₂ hspaces₂ (by decide) (by decide),
      rootSlot?_eq (rootTable_of_frame hsound₂ ⟨spaces₂, hspaces₂, .inl rfl⟩
        (hsound₂.spaces hspaces₂).kernel)]
    exact hslot₂
  obtain ⟨spaces₃, hspaces₃, hmem⟩ := hcreated.hasTask
  obtain ⟨spaces, task, hspaces, hrooted, -, hcensus₃⟩ := hcreated.rooted
  rw [hspaces₂] at hspaces
  injection hspaces with hspaces
  subst hspaces
  rw [census_of_some hspaces₃] at hcensus₃
  simp only [Spaces.census, Option.some.injEq, Prod.mk.injEq] at hcensus₃
  have hslot₃ : m₃.store.arena.slot? spaces₃.kernelTable 512
      = some (kernelLarge 0x80000000 .uncached) := by
    rw [hcensus₃.1]
    exact (hrooted.slot_other 512
      (hrooted.ne_root (hsound₂.spaces hspaces₂).shaped.kernel_top)).trans hslot₂
  -- and the new policy is written into the kernel root alone
  have hmap : Ends (perform .narrow config 0 (.mapKernel 0x80000000 0x400000 .writeBack)) m₃
      (fun _ m' => m'.census = m₃.census ∧ m'.store.arena.slot? spaces₃.kernelTable 512
        = some (kernelLarge 0x80000000 .writeBack))
      (fun _ _ => False) := by
    rw [perform, ends_bind]
    exact ends_mapKernel_block kernel (by decide) hsound₃ hspaces₃ hslot₃
  obtain ⟨_, m₄, e₄, hcensus₄, hslot₄⟩ := exists_of_ends hmap
  have h₄ := h₃.next (by trivial) trivial e₄
  have hsound₄ := h₄.reachable.sound.machine
  rw [census_of_some hspaces₃] at hcensus₄
  obtain ⟨spaces₄, hspaces₄, heq⟩ := exists_of_census hcensus₄
  simp only [Spaces.census, Prod.mk.injEq] at heq
  have hmem₄ : space ∈ spaces₄.tasks := by rw [heq.2.2]; exact hmem
  refine ⟨m₄, _, spaces₄, space, h₄.run, h₄.reachable, hspaces₄, hmem₄, ?_, ?_⟩
  · rw [rootSlot?_eq (rootTable_of_frame hsound₄ ⟨spaces₄, hspaces₄, .inl rfl⟩
      (hsound₄.spaces hspaces₄).kernel), heq.1]
    exact hslot₄
  · have hstep : Step .narrow config AnyCall 0
        (.call (.mapKernel 0x80000000 0x400000 .writeBack)) ⟨m₃, stock₃, fun _ => .idle⟩ _ :=
      .of_ok rfl trivial trivial e₄
    have hkept := upperKept_of_effect (hstep.effect h₃.reachable.sound) hsound₃
    rw [hkept.task ⟨spaces₃, hspaces₃, hmem⟩ ⟨spaces₄, hspaces₄, hmem₄⟩ (by decide)]
    exact htask₃

/-- After these calls a root slot of the upper half has the new policy in the kernel root, and
still the old one in the root of the task. -/
theorem stale_upper_half : ∃ m stock spaces space,
    run .narrow {} (Machine.powerOn 0) policyChange = .ok m
      ∧ Reachable .narrow {} AnyCall 0 ⟨m, stock, fun _ => .idle⟩
      ∧ m.spaces = some spaces ∧ space ∈ spaces.tasks
      ∧ m.rootSlot? spaces.kernel 512 = some (kernelLarge 0x80000000 .writeBack)
      ∧ m.rootSlot? space 512 = some (kernelLarge 0x80000000 .uncached)
      ∧ m.rootSlot? space 512 ≠ m.rootSlot? spaces.kernel 512 := by
  obtain ⟨m, stock, spaces, space, hrun, hreachable, hspaces, hmem, hkernel, htask⟩ :=
    exists_policyChange kernelBlock_device rfl
  refine ⟨m, stock, spaces, space, hrun, hreachable, hspaces, hmem, hkernel, htask, ?_⟩
  rw [hkernel, htask]
  decide

end KernelMemory
