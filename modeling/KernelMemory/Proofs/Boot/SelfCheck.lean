/-
  KernelMemory.Proofs.Boot.SelfCheck — what the self-check leaves behind.

  The check makes a task space, takes a frame, maps it and destroys the space again.  From the
  moment the space is made until it is destroyed only the space and the frames that clients hold
  change (`Visiting`).  So a check that passes leaves frames, tables, spaces and the root of the
  processor as they were.  One that stops in between gives nothing back: it brings the processor
  to the kernel root, but the space stays, with its tables, and so does the frame.

  Main results:
    * `ends_mapUser_outside` — a processor outside the kernel space is outside again;
    * `Visiting.cleanedUp`, `Visiting.leftOver` — the two ways the check can end;
    * `selfCheck_cleans_up` — which of them it is, from every state that processors reach;
    * `selfCheck_leaves_space` — a check for which there are too few frames.
-/

import KernelMemory.Boot.BringUp
import KernelMemory.Proofs.Manager.UserMapping

namespace KernelMemory

open Machine Manager Steps TableStore

variable {format : Format} {config : Config} {stock stock' : Stock} {m m₁ m₂ : Machine}
  {cpu : CpuId} {space kernel : AddressSpace} {virt phys size : Nat}

/-! ## Mapping for the active task -/

namespace Manager

/-- A processor outside the kernel space is outside again after mapping user memory. -/
theorem ends_mapUser_outside (h : m.Sound format stock) (hplaced : m.Placed)
    (hout : savedRoot m cpu = none) :
    Ends (mapUser format config cpu space virt phys size) m
      (fun _ m' => savedRoot m' cpu = none) (onOverflow fun _ m' => savedRoot m' cpu = none) := by
  rw [mapUser, ends_bind, ends_activeRoot]
  split
  · exact hout
  · rw [ends_bind]
    refine ends_enterKernel.mono (fun _ m₁ h₁ => ?_) fun f m₁ h₁ => ?_
    · obtain ⟨hq, spaces, hspaces, hthere⟩ := h₁
      have hback : ∀ {m₂ : Machine} (result : Except MemoryError Unit),
          MappedUser format space virt phys m₁ m₂ ∧ SameRoots m₁ m₂ →
          Ends (finishUser cpu virt size result) m₂ (fun _ m' => savedRoot m' cpu = none)
            (onOverflow fun _ m' => savedRoot m' cpu = none) := by
        intro m₂ result hmapped
        obtain ⟨hplaced₂, hsaved₂⟩ := back_of_mapped hplaced hq hspaces hthere hmapped.1 hmapped.2
        exact (ends_finishUser hplaced₂ hsaved₂).weaken_overflow
          (fun _ _ hdone => savedRoot_of_moved hdone.2.toMoved)
          fun _ _ hdone => savedRoot_of_moved hdone.2.toMoved
      show Ends (do
        let result ← attempt (mapTask format config cpu space virt phys size)
        finishUser cpu virt size result) m₁ _ _
      rw [ends_bind, ends_attempt]
      refine (ends_mapTask (hq.sound h)).mono (fun _ m₂ h₂ => hback (.ok ()) h₂) fun f m₂ h₂ => ?_
      cases f with
      | refused error => exact hback (.error error) h₂
      | fault fault => exact h₂.elim
    · cases f with
      | refused error =>
        rw [show m₁ = m from h₁]
        exact hout
      | fault fault => exact h₁.elim

/-- For a task it breaks no contract, whatever the range. -/
theorem ends_mapUser_task (h : m.Sound format stock) (hplaced : m.Placed) (htask : m.HasTask space)
    (hout : savedRoot m cpu = none) :
    Ends (mapUser format config cpu space virt phys size) m
      (fun _ m' => MappedForUser format cpu space virt phys m m' ∧ savedRoot m' cpu = none)
      (onRefusal fun _ m' =>
        MappedForUser format cpu space virt phys m m' ∧ savedRoot m' cpu = none) := by
  refine (((ends_mapUser h hplaced).and (ends_mapUser_outside h hplaced hout)).and
    (overflowsIff_iff_ends.mp (overflowsIff_mapUser ⟨space, virt, phys, size⟩ h hplaced))).mono
    (fun _ _ hdone => hdone.1) fun f m' hf => ?_
  cases f with
  | refused error => exact hf.1
  | fault fault => exact absurd htask hf.2.2.noTask

/-- A page that is handed out was free, and there is none if no frame is free. -/
theorem ends_allocatePage_free (h : m.Sound format stock) :
    Ends (onStore TableStore.allocatePage) m
      (fun result m' => Refrained (handedOut stock 0 result) m m'
        ∧ match result with
          | .ok frame => ∃ f, frame = f * frameSize ∧ f ∈ m.store.frames.freeSet
          | .error _ => m.store.frames.freeSet = ∅)
      (fun _ _ => False) := by
  have hfree : Ends (onStore TableStore.allocatePage) m
      (fun result _ => match result with
        | .ok frame => ∃ f, frame = f * frameSize ∧ f ∈ m.store.frames.freeSet
        | .error _ => m.store.frames.freeSet = ∅) (fun _ _ => False) := by
    rw [ends_onStore]
    refine TableStore.ends_allocatePage _ _ fun result s hframes _ => ?_
    cases result with
    | ok frame =>
      obtain ⟨f, hf, hfree, -⟩ := FrameAllocator.allocatePage_ok h.ledger.allocator hframes
      exact ⟨f, hf, hfree⟩
    | error error =>
      refine Set.eq_empty_of_forall_notMem fun f hf => ?_
      obtain ⟨frame, frames, heq⟩ := FrameAllocator.exists_allocatePage h.ledger.allocator hf
      rw [heq] at hframes
      cases hframes
  exact ((ends_allocatePage h).and hfree).mono (fun _ _ hboth => hboth) fun _ _ hf => hf.1

end Manager

/-! ## While the space is there -/

/-- Frames that hold tables, counted. -/
theorem Machine.Sound.tablePages (h : m.Sound format stock) :
    m.tablePages = m.store.arena.tableFrames.ncard :=
  h.ledger.books.size_eq fun hf => (h.ledger.table hf).1

/-- There are finitely many. -/
theorem Machine.Sound.finite_tableFrames (h : m.Sound format stock) :
    m.store.arena.tableFrames.Finite :=
  (Set.finite_lt_nat m.store.frames.totalPages).subset fun _ hf => (h.ledger.tableFrame hf).1

/-- A task has one for its root. -/
theorem ownFrames_nonempty (h : m.Sound format stock) (htask : m.HasTask space) :
    (m.ownFrames format space).Nonempty := by
  obtain ⟨-, root, -, -, -, hf⟩ := exists_taskRoot h htask
  have hmod := (h.ledger.table hf).1
  refine ⟨space.root / frameSize, htask, root, hf, root, .inr rfl, ?_⟩
  rw [hf, Nat.div_mul_cancel (Nat.dvd_of_mod_eq_zero hmod)]

/-- A task space was made, and since then only it and the frames that clients hold have changed;
no processor but `cpu` was brought to it. -/
structure Visiting (format : Format) (cpu : CpuId) (space : AddressSpace) (m : Machine)
    (stock : Stock) (m' : Machine) : Prop where
  sound : m'.Sound format stock
  placed : m'.Placed
  fresh : ¬ m.HasTask space
  tasks : ∀ other, m'.HasTask other ↔ m.HasTask other ∨ other = space
  kernel : m'.kernelSpace = m.kernelSpace
  others : m'.otherFrames format space = m.store.arena.tableFrames
  outside : savedRoot m' cpu = none
  unused : ∀ {other : CpuId} {roots : CpuRoots}, other ≠ cpu → m'.roots? other = some roots →
    ¬ (roots.loaded = space.root ∨ roots.saved = some space.root)

theorem kernelSpace_of_census (h : m₂.census = m₁.census) : m₂.kernelSpace = m₁.kernelSpace := by
  have hkernel : ∀ m : Machine, m.kernelSpace = m.census.map fun c => c.2.1 := by
    intro m
    rw [Machine.kernelSpace, Machine.census, Option.map_map]
    rfl
  rw [hkernel, hkernel, h]

theorem Visiting.hasTask (h : Visiting format cpu space m stock m₁) : m₁.HasTask space :=
  (h.tasks space).mpr (.inr rfl)

theorem visiting_of_created (hm : m.Sound format stock) (hplaced : m.Placed)
    (hout : savedRoot m cpu = none) (hc : Created format stock space m m₁)
    (hsame : SameRoots m m₁) : Visiting format cpu space m stock m₁ := by
  have hfresh : ¬ m.HasTask space := by
    rintro ⟨spaces, hspaces, hmem⟩
    exact hc.not_alive hm ⟨spaces, hspaces, .inr hmem⟩
  have hunused := not_uses_of_created hm hplaced hc hsame
  have heffect : Effect format {} 0 stock m (.call .createSpace) stock m₁ := .created hc hsame
  obtain ⟨spaces, root, hspaces, -, -, hcensus⟩ := id hc.rooted
  refine ⟨hc.sound hm, hplaced.keep hsame fun _ => hc.alive, hfresh, fun other => ?_, ?_, ?_, ?_,
    fun _ hr huse => hunused (.inr ⟨_, _, hr, huse⟩)⟩
  · rw [hasTask_of_census hcensus, hasTask_of_some hspaces, List.mem_insert_iff, or_comm]
  · obtain ⟨spaces₁, hspaces₁, heq⟩ := exists_of_census hcensus
    simp only [Spaces.census, Prod.mk.injEq] at heq
    rw [Machine.kernelSpace, Machine.kernelSpace, hspaces, hspaces₁, Option.map_some,
      Option.map_some, heq.2.1]
  · rw [otherFrames_of_effect heffect hm ⟨hfresh, hc.hasTask⟩, otherFrames_of_not_task hfresh]
  · rw [savedRoot, hsame.noted]
    exact hout

/-- Steps that keep the spaces, and the tables of all others, do not end the visit. -/
theorem Visiting.next (h : Visiting format cpu space m stock m₁) (sound : m₂.Sound format stock')
    (placed : m₂.Placed) (census : m₂.census = m₁.census)
    (others : m₂.otherFrames format space = m₁.otherFrames format space)
    (noted : OthersKept cpu m₁ m₂) (outside : savedRoot m₂ cpu = none) :
    Visiting format cpu space m stock' m₂ where
  sound := sound
  placed := placed
  fresh := h.fresh
  tasks := fun other => by rw [hasTask_congr census, h.tasks]
  kernel := (kernelSpace_of_census census).trans h.kernel
  others := others.trans h.others
  outside := outside
  unused := fun hne hr => by
    rw [noted _ hne] at hr
    exact h.unused hne hr

/-- Frames may be asked for and given back. -/
theorem Visiting.refrained (h : Visiting format cpu space m stock m₁)
    (hr : Refrained stock' m₁ m₂) : Visiting format cpu space m stock' m₂ :=
  h.next (hr.calm.sound h.sound) (placed_of_census h.placed hr.calm.census hr.same) hr.calm.census
    (ownFrames_congr hr.calm.census hr.calm.arena).2 (othersKept_same hr.same)
    (by rw [savedRoot, hr.same.noted]; exact h.outside)

/-- The processor may be brought to any space. -/
theorem Visiting.switched {other : AddressSpace} (h : Visiting format cpu space m stock m₁)
    (halive : m₁.Alive other) (hq : Quiet m₁ m₂)
    (hswitched : SameRoots m₁ m₂ ∨ Switched cpu ⟨other.root, none⟩ m₁ m₂) :
    Visiting format cpu space m stock m₂ := by
  have hframes : m₂.otherFrames format space = m₁.otherFrames format space :=
    (ownFrames_congr hq.census hq.store.arena).2
  rcases hswitched with hsame | hmoved
  · exact h.refrained ⟨hq.calm h.sound, hq.image, hsame⟩
  · exact h.next (hq.sound h.sound) (placed_switch h.placed hq halive hmoved) hq.census hframes
      (othersKept_moved hmoved.toMoved) (savedRoot_of_moved hmoved.toMoved)

/-- Memory may be mapped into the space. -/
theorem Visiting.mapped (h : Visiting format cpu space m stock m₁)
    (hu : MappedForUser format cpu space virt phys m₁ m₂) (hout : savedRoot m₂ cpu = none) :
    Visiting format cpu space m stock m₂ :=
  h.next (hu.tables.sound h.sound) hu.placed hu.tables.census
    (otherFrames_of_mappedUser hu.tables h.sound) hu.others hout

/-- On another root, no processor uses the space. -/
theorem Visiting.not_uses (h : Visiting format cpu space m stock m₁)
    (hroot : (m₁.cpu cpu).root ≠ space.root) : ¬ m₁.Uses space.root := by
  obtain ⟨-, root, -, -, -, hf⟩ := exists_taskRoot h.sound h.hasTask
  have hpos : 0 < space.root := (h.sound.ledger.table hf).2.1
  rintro (⟨other, hother⟩ | ⟨other, roots, hr, huse⟩)
  · by_cases heq : other = cpu
    · rw [heq] at hother
      exact hroot hother
    · cases hr : m₁.roots? other with
      | none =>
        rw [h.placed.unknown hr] at hother
        exact Nat.ne_of_lt hpos hother
      | some roots => exact h.unused heq hr (.inl ((h.placed.loaded hr).trans hother))
  · by_cases heq : other = cpu
    · rw [heq] at hr
      rcases huse with hloaded | hsaved
      · exact hroot ((h.placed.loaded hr).symm.trans hloaded)
      · have hout := h.outside
        rw [savedRoot, hr] at hout
        exact Option.some_ne_none _ (hsaved.symm.trans hout)
    · exact h.unused heq hr huse

/-- The frames that are free or the space's: those that were free, but for what clients hold. -/
theorem Visiting.mem_free_union_own (h : Visiting format cpu space m stock' m₁)
    (hm : m.Sound format stock) (htotal : stock'.total = stock.total)
    (hkept : stock.held ⊆ stock'.held) {f : Nat} :
    f ∈ m₁.store.frames.freeSet ∪ m₁.ownFrames format space
      ↔ f ∈ m.store.frames.freeSet ∧ f ∉ stock'.held := by
  rw [KernelMemory.mem_free_union_own h.sound, h.others, hm.ledger.mem_freeSet_iff, htotal]
  constructor
  · rintro ⟨hlt, hnot, htable⟩
    exact ⟨⟨hlt, fun hin => hnot (hkept hin), htable⟩, hnot⟩
  · rintro ⟨⟨hlt, -, htable⟩, hnot⟩
    exact ⟨hlt, hnot, htable⟩

/-! ## How the visit ends -/

/-- Frames, tables, spaces and the root of the processor are as they were. -/
structure CleanedUp (cpu : CpuId) (m m' : Machine) : Prop where
  free : m'.store.frames.freeSet = m.store.frames.freeSet
  tables : m'.tablePages = m.tablePages
  tasks : ∀ other, m'.HasTask other ↔ m.HasTask other
  root : (m'.cpu cpu).root = (m.cpu cpu).root

/-- A space is left over, with tables of its own; of the frames that were free, some hold its tables
and some are kept. -/
structure LeftOver (format : Format) (cpu : CpuId) (space : AddressSpace) (kept : Set Nat)
    (m m' : Machine) : Prop where
  fresh : ¬ m.HasTask space
  tasks : ∀ other, m'.HasTask other ↔ m.HasTask other ∨ other = space
  tables : m'.tablePages = m.tablePages + (m'.ownFrames format space).ncard
  nonempty : 0 < (m'.ownFrames format space).ncard
  free : ∀ f, f ∈ m.store.frames.freeSet
    ↔ f ∈ m'.store.frames.freeSet ∨ f ∈ m'.ownFrames format space ∨ f ∈ kept
  apart : m'.store.frames.freeSet ∩ m'.ownFrames format space = ∅
    ∧ (m'.store.frames.freeSet ∪ m'.ownFrames format space) ∩ kept = ∅
  root : (m'.cpu cpu).root = (m.cpu cpu).root

/-- Nothing was done but that frames may have been looked for. -/
theorem Manager.Refrained.cleanedUp (hr : Refrained stock m m₁) (hm : m.Sound format stock) :
    CleanedUp cpu m m₁ where
  free := by
    ext f
    rw [hr.calm.ledger.mem_freeSet_iff, hm.ledger.mem_freeSet_iff, hr.calm.arena]
  tables := congrArg Arena.size hr.calm.arena
  tasks := fun _ => hasTask_congr hr.calm.census
  root := hr.same.root cpu

/-- The space is destroyed, and clients hold what they held. -/
theorem Visiting.cleanedUp (h : Visiting format cpu space m stock' m₁) (hm : m.Sound format stock)
    (hd : Deleted format stock' space m₁ m₂) (hsame : SameRoots m₁ m₂) {m' : Machine}
    (hr : Refrained stock m₂ m') (hroot : (m₁.cpu cpu).root = (m.cpu cpu).root) :
    CleanedUp cpu m m' := by
  obtain ⟨hnot, hothers⟩ := otherFrames_of_deleted hd h.sound
  have hm' : m'.Sound format stock := hr.calm.sound (hd.sound h.sound)
  -- the tables that are left are those of the others, which are those there were
  have htables : m'.store.arena.tableFrames = m.store.arena.tableFrames := by
    rw [hr.calm.arena, ← otherFrames_of_not_task hnot, hothers, h.others]
  obtain ⟨spaces, root, hspaces, hmem, -, -, -, -, hcensus⟩ := hd.pruned
  refine ⟨?_, ?_, fun other => ?_, ?_⟩
  · ext f
    rw [hm'.ledger.mem_freeSet_iff, hm.ledger.mem_freeSet_iff, htables]
  · rw [hm'.tablePages, hm.tablePages, htables]
  · have htasks := h.tasks other
    rw [hasTask_of_some hspaces] at htasks
    rw [hasTask_congr hr.calm.census, hasTask_of_census hcensus,
      (h.sound.spaces hspaces).nodup.mem_erase_iff, htasks]
    constructor
    · rintro ⟨hne, htask | heq⟩
      · exact htask
      · exact absurd heq hne
    · intro htask
      refine ⟨?_, .inl htask⟩
      rintro rfl
      exact h.fresh htask
  · rw [hr.same.root, hsame.root, hroot]

/-- The space stays. -/
theorem Visiting.leftOver (h : Visiting format cpu space m stock' m₁) (hm : m.Sound format stock)
    (htotal : stock'.total = stock.total) {kept : Set Nat} (hkept : kept ⊆ m.store.frames.freeSet)
    (hheld : stock'.held = stock.held ∪ kept) (hroot : (m₁.cpu cpu).root = (m.cpu cpu).root) :
    LeftOver format cpu space kept m m₁ := by
  have hsubset : stock.held ⊆ stock'.held := by
    rw [hheld]
    exact Set.subset_union_left
  have hunion : ∀ f, f ∈ m₁.store.frames.freeSet ∪ m₁.ownFrames format space
      ↔ f ∈ m.store.frames.freeSet ∧ f ∉ stock'.held :=
    fun _ => h.mem_free_union_own hm htotal hsubset
  -- of what was free, clients hold what is kept
  have hnot : ∀ {f}, f ∈ m.store.frames.freeSet → (f ∈ stock'.held ↔ f ∈ kept) := by
    intro f hf
    rw [hheld, Set.mem_union]
    exact or_iff_right (hm.ledger.mem_freeSet_iff.mp hf).2.1
  obtain ⟨-, root, -, -, -, hf⟩ := exists_taskRoot h.sound h.hasTask
  refine ⟨h.fresh, h.tasks, ?_, ?_, fun f => ?_, ⟨?_, ?_⟩, hroot⟩
  · rw [h.sound.tablePages, hm.tablePages, ← h.others, Machine.otherFrames,
      Set.ncard_sdiff_add_ncard_of_subset ownFrames_subset h.sound.finite_tableFrames]
  · rw [Set.ncard_pos (finite_ownFrames h.sound)]
    exact ownFrames_nonempty h.sound h.hasTask
  · by_cases hk : f ∈ kept
    · exact ⟨fun _ => .inr (.inr hk), fun _ => hkept hk⟩
    · rw [← or_assoc, ← Set.mem_union, hunion]
      constructor
      · exact fun hf => .inl ⟨hf, fun hin => hk ((hnot hf).mp hin)⟩
      · rintro (hf | hf)
        · exact hf.1
        · exact absurd hf hk
  · exact free_disjoint_own h.sound
  · rw [Set.eq_empty_iff_forall_notMem]
    rintro f ⟨hf, hk⟩
    obtain ⟨hfree, hout⟩ := (hunion f).mp hf
    exact hout ((hnot hfree).mpr hk)

/-! ## The check -/

namespace Boot

/-- What the check does with a frame and a new space. -/
def visit (config : Config) (cpu : CpuId) (kernel space : AddressSpace) (frame : PhysAddr) :
    MachineSteps Unit := do
  Manager.switchTo cpu space
  let mapped ← Steps.attempt (Manager.mapUser .wide config cpu space scratchPage frame frameSize)
  let resolved ← (← get).translate .wide space scratchPage
  Manager.switchTo cpu kernel
  Steps.ofResult mapped
  if resolved ≠ some frame then
    write .warn s!"scratch page resolved to {debugAddress resolved}, expected {hex frame}"
  Manager.deleteSpace .wide cpu space
  onStore (TableStore.freePage frame)

theorem selfCheck_eq (config : Config) (cpu : CpuId) : selfCheck config cpu = (do
    match (← get).kernelSpace with
    | none => Steps.refuse .notInitialized
    | some kernel =>
      let space ← Manager.createSpace .wide cpu
      match ← onStore TableStore.allocatePage with
      | .error error => Steps.refuse (.ofFrameError error)
      | .ok frame => visit config cpu kernel space frame) := by
  simp only [selfCheck, uninterrupted_onStore]
  rfl

/-- The scratch page was translated to the frame that was handed out for it. -/
def Resolved (config : Config) (cpu : CpuId) (m : Machine) : Prop :=
  ∃ space frame m₁ m₂ m₃ m₄, createSpace .wide cpu m = .ok space m₁
    ∧ onStore TableStore.allocatePage m₁ = .ok (.ok frame) m₂ ∧ switchTo cpu space m₂ = .ok () m₃
    ∧ mapUser .wide config cpu space scratchPage frame frameSize m₃ = .ok () m₄
    ∧ m₄.translate .wide space scratchPage = .ok (some frame)

/-- A processor goes to a space that exists. -/
theorem ends_switchTo_alive (h : m.Sound format stock) (halive : m.Alive space)
    (hout : savedRoot m cpu = none) :
    Ends (switchTo cpu space) m
      (fun _ m' => switchTo cpu space m = .ok () m' ∧ Quiet m m'
        ∧ (SameRoots m m' ∨ Switched cpu ⟨space.root, none⟩ m m')
        ∧ (m'.cpu cpu).root = space.root)
      (fun _ _ => False) := by
  obtain ⟨m', e, hq, hroot, -⟩ := exists_switchTo h halive hout
  have hswitched := ((ends_switchTo h).of_ok e).2
  unfold Ends
  rw [e]
  exact ⟨rfl, hq, hswitched.imp_right And.right, hroot⟩

/-- The end of the check: the space is destroyed and the frame is given back. -/
theorem ends_finish (hm : m.Sound .wide stock) {f : Nat} (hfree : f ∈ m.store.frames.freeSet)
    (h : Visiting .wide cpu space m (handedOut stock 0 (.ok (f * frameSize))) m₁)
    (hroot : (m₁.cpu cpu).root = (m.cpu cpu).root) (hne : (m₁.cpu cpu).root ≠ space.root) :
    Ends (do
        Manager.deleteSpace .wide cpu space
        onStore (TableStore.freePage (f * frameSize)) : MachineSteps Unit) m₁
      (fun _ m' => CleanedUp cpu m m') (fun _ _ => False) := by
  rw [ends_bind]
  refine (ends_deleteSpace h.sound h.placed).mono (fun _ m₂ h₂ => ?_) fun failure m₂ hf => ?_
  · obtain ⟨hd, hsame, -⟩ := h₂
    have hblock : FrameAllocator.block (f * frameSize) 0 = {f} := by
      ext g
      exact FrameAllocator.mem_block_page
    have hgiven : FrameAllocator.givenBack (f * frameSize) 0 = {f} := by
      ext g
      rw [FrameAllocator.givenBack, hblock, Set.mem_ofPred_eq]
      refine and_iff_right ⟨?_, Nat.zero_le maxOrder, Nat.mul_mod_left f frameSize⟩
      have hne := FrameAllocator.ne_zero_of_isFree hm.ledger.allocator hfree
      exact Nat.mul_ne_zero hne (by decide)
    have hheld : (handedOut stock 0 (.ok (f * frameSize))).held = stock.held ∪ {f} := by
      rw [← hblock]
      rfl
    refine (ends_freeBlock (hd.sound h.sound) ?_).mono (fun _ m' hr => ?_) fun _ _ hfalse => hfalse
    · rw [hgiven, hheld]
      exact Set.subset_union_right
    · -- the frame was not held before it was handed out
      have hback : (handedOut stock 0 (.ok (f * frameSize))).held \ {f} = stock.held := by
        rw [hheld, Set.union_sdiff_cancel_right]
        rintro g ⟨hg, rfl⟩
        exact (hm.ledger.mem_freeSet_iff.mp hfree).2.1 hg
      rw [hgiven, hback] at hr
      exact h.cleanedUp hm hd hsame hr hroot
  · cases failure with
    | refused error => exact h.not_uses hne (hf.2 h.hasTask)
    | fault fault => exact hf

theorem alive_of_kernelSpace (h : m.kernelSpace = some kernel) : m.Alive kernel := by
  obtain ⟨spaces, hspaces, rfl⟩ := Option.map_eq_some_iff.mp h
  exact ⟨spaces, hspaces, .inl rfl⟩

/-- A task has another root than the kernel. -/
theorem root_ne_of_hasTask (h : m.Sound format stock) (hkernel : m.kernelSpace = some kernel)
    (htask : m.HasTask space) : kernel.root ≠ space.root := by
  obtain ⟨spaces, hspaces, rfl⟩ := Option.map_eq_some_iff.mp hkernel
  exact ((h.spaces hspaces).task_root_ne h.ledger.books ((hasTask_of_some hspaces).mp htask)).symm

/-- Once there is a frame, the check comes back to the kernel root: with everything cleaned up and
the page resolved, or with the space and the frame left over. -/
theorem ends_visit (hm : m.Sound .wide stock) (hkernel : m.kernelSpace = some kernel)
    (hroot : (m.cpu cpu).root = kernel.root) {f : Nat} (hfree : f ∈ m.store.frames.freeSet)
    (h : Visiting .wide cpu space m (handedOut stock 0 (.ok (f * frameSize))) m₁) :
    Ends (visit config cpu kernel space (f * frameSize)) m₁
      (fun _ m' => CleanedUp cpu m m' ∧ ∃ m₂ m₃, switchTo cpu space m₁ = .ok () m₂
        ∧ mapUser .wide config cpu space scratchPage (f * frameSize) frameSize m₂ = .ok () m₃
        ∧ m₃.translate .wide space scratchPage = .ok (some (f * frameSize)))
      (onRefusal fun _ m' => LeftOver .wide cpu space {f} m m') := by
  have hblock : FrameAllocator.block (f * frameSize) 0 = {f} := by
    ext g
    exact FrameAllocator.mem_block_page
  obtain ⟨spaces, hspaces, hmem⟩ := id h.hasTask
  have halive : m₁.Alive space := ⟨spaces, hspaces, .inr hmem⟩
  rw [visit, ends_bind]
  refine (ends_switchTo_alive h.sound halive h.outside).mono (fun _ m₂ h₂ => ?_)
    fun _ _ hf => hf.elim
  obtain ⟨hswitch, hq, hswitched, -⟩ := h₂
  have hv := h.switched halive hq hswitched
  -- whatever mapping came to, the processor goes back, and what it came to decides
  have hback : ∀ {m₃ : Machine} (mapped : Except MemoryError Unit),
      Visiting .wide cpu space m (handedOut stock 0 (.ok (f * frameSize))) m₃ →
      (mapped = .ok () →
        mapUser .wide config cpu space scratchPage (f * frameSize) frameSize m₂ = .ok () m₃
          ∧ m₃.translate .wide space scratchPage = .ok (some (f * frameSize))) →
      Ends (do
          let resolved ← (← get).translate .wide space scratchPage
          Manager.switchTo cpu kernel
          Steps.ofResult mapped
          if resolved ≠ some (f * frameSize) then
            write .warn s!"scratch page resolved to {debugAddress resolved}, expected {hex (f * frameSize)}"
          Manager.deleteSpace .wide cpu space
          onStore (TableStore.freePage (f * frameSize)) : MachineSteps Unit) m₃
        (fun _ m' => CleanedUp cpu m m' ∧ ∃ m₂ m₃, switchTo cpu space m₁ = .ok () m₂
          ∧ mapUser .wide config cpu space scratchPage (f * frameSize) frameSize m₂ = .ok () m₃
          ∧ m₃.translate .wide space scratchPage = .ok (some (f * frameSize)))
        (onRefusal fun _ m' => LeftOver .wide cpu space {f} m m') := by
    intro m₃ mapped hv₃ hresolved
    obtain ⟨spaces₃, hspaces₃, hmem₃⟩ := id hv₃.hasTask
    obtain ⟨root, htable, -⟩ := rootTable_of_alive hv₃.sound ⟨spaces₃, hspaces₃, .inr hmem₃⟩
    rw [ends_bind, ends_get, ends_bind, ends_lift_ok (translate_eq_view hv₃.sound htable _), ends_bind]
    have hkernel₃ := hv₃.kernel.trans hkernel
    refine (ends_switchTo_alive hv₃.sound (alive_of_kernelSpace hkernel₃) hv₃.outside).mono
      (fun _ m₄ h₄ => ?_) fun _ _ hf => hf.elim
    obtain ⟨-, hq₄, hswitched₄, hroot₄⟩ := h₄
    have hv₄ := hv₃.switched (alive_of_kernelSpace hkernel₃) hq₄ hswitched₄
    have hsame : (m₄.cpu cpu).root = (m.cpu cpu).root := hroot₄.trans hroot.symm
    rw [ends_bind, ends_ofResult]
    refine ⟨fun _ hok => ?_, fun error herror => ?_⟩
    · obtain ⟨hmapped, htranslate⟩ := hresolved hok
      have hview := translate_eq_view hv₃.sound htable scratchPage
      rw [htranslate] at hview
      injection hview with hview
      rw [← hview, if_neg (not_not.mpr rfl)]
      have hne : (m₄.cpu cpu).root ≠ space.root := by
        rw [hroot₄]
        exact root_ne_of_hasTask hv₄.sound (hv₄.kernel.trans hkernel) hv₄.hasTask
      exact (ends_finish hm hfree hv₄ hsame hne).mono
        (fun _ m' hclean => ⟨hclean, m₂, m₃, hswitch, hmapped, htranslate⟩) fun _ _ hf => hf.elim
    · refine hv₄.leftOver hm rfl (Set.singleton_subset_iff.mpr hfree) ?_ hsame
      rw [← hblock]
      rfl
  rw [ends_bind, ends_attempt]
  refine ((ends_mapUser_task hv.sound hv.placed hv.hasTask hv.outside).and (ends_self _ _)).mono
    (fun _ m₃ h₃ => ?_) fun failure m₃ h₃ => ?_
  · obtain ⟨⟨hu, hout⟩, e⟩ := h₃
    refine hback (.ok ()) (hv.mapped hu hout) fun _ => ⟨e, ?_⟩
    have htranslated := (userMapped_of_mapUser hv.sound hv.placed e).translated 0 (by decide) (by decide)
    have hshifted : shifted scratchPage (f * frameSize) + 0 = f * frameSize := by
      rw [Nat.add_zero, shifted_eq_iff, Nat.mul_mod_left]
      decide
    rw [hshifted] at htranslated
    exact htranslated
  · cases failure with
    | refused error => exact hback (.error error) (hv.mapped h₃.1.1 h₃.1.2) nofun
    | fault fault => exact h₃.1.elim

/-- In every state that processors reach, on the kernel root and outside the kernel space, the check
breaks no contract.  If it passes, everything is cleaned up and the page was resolved.  If it does
not, then the processor is back on the kernel root; no space was made and everything is as it was, or
the space that was made is left over, and with it the frame that was to be mapped, if there was one. -/
theorem selfCheck_cleans_up {poolPages : Nat} {s : System}
    (h : Reachable .wide config AnyCall poolPages s) (hkernel : s.machine.kernelSpace = some kernel)
    (hroot : (s.machine.cpu cpu).root = kernel.root) (hout : savedRoot s.machine cpu = none) :
    Ends (selfCheck config cpu) s.machine
      (fun _ m' => CleanedUp cpu s.machine m' ∧ Resolved config cpu s.machine)
      (onRefusal fun _ m' =>
        (∃ error m₁, createSpace .wide cpu s.machine = .error (.refused error) m₁)
            ∧ CleanedUp cpu s.machine m'
          ∨ ∃ space m₁ kept, createSpace .wide cpu s.machine = .ok space m₁
            ∧ (kept = ∅ ∧ m₁.store.frames.freeSet = ∅ ∨ ∃ f ∈ m₁.store.frames.freeSet, kept = {f})
            ∧ LeftOver .wide cpu space kept s.machine m') := by
  have hm := h.sound.machine
  have hplaced := h.sound.placed
  rw [selfCheck_eq, ends_bind, ends_get, hkernel, ends_bind]
  refine ((ends_createSpace hm).and (ends_self _ _)).mono (fun space m₁ h₁ => ?_) fun failure m₁ h₁ => ?_
  · obtain ⟨⟨hcreated, hsame⟩, hcreate⟩ := h₁
    have hv := visiting_of_created hm hplaced hout hcreated hsame
    rw [ends_bind]
    refine ((ends_allocatePage_free hv.sound).and (ends_self _ _)).mono (fun result m₂ h₂ => ?_)
      fun _ _ hf => hf.1.elim
    obtain ⟨⟨hr, hfree⟩, hallocate⟩ := h₂
    have hv₂ := hv.refrained hr
    cases result with
    | error error =>
      refine .inr ⟨space, m₁, ∅, hcreate, .inl ⟨rfl, hfree⟩, ?_⟩
      exact hv₂.leftOver hm rfl (Set.empty_subset _) (Set.union_empty _).symm
        ((hr.same.root cpu).trans (hsame.root cpu))
    | ok frame =>
      obtain ⟨f, rfl, hf⟩ := hfree
      have hbefore : f ∈ s.machine.store.frames.freeSet := by
        rw [← free_of_createSpace hm hcreate]
        exact .inl hf
      refine (ends_visit hm hkernel hroot hbefore hv₂).weaken (fun _ m' hdone => ?_)
        fun _ m' hleft => .inr ⟨space, m₁, {f}, hcreate, .inr ⟨f, hf, rfl⟩, hleft⟩
      obtain ⟨hclean, m₃, m₄, hswitch, hmapped, htranslate⟩ := hdone
      exact ⟨hclean, space, _, m₁, m₂, m₃, m₄, hcreate, hallocate, hswitch, hmapped, htranslate⟩
  · cases failure with
    | refused error => exact .inl ⟨⟨error, m₁, h₁.2⟩, h₁.1.1.cleanedUp hm⟩
    | fault fault => exact h₁.1.elim

/-! ## Two runs -/

/-- With one free frame left, which becomes the root of the space, there is none to map: the check
fails and the space is left over. -/
theorem exists_leftOver (hm : m.Sound .wide stock) (hplaced : m.Placed)
    (hkernel : m.kernelSpace = some kernel) (hout : savedRoot m cpu = none)
    (hone : m.store.frames.available .normal = 1) :
    ∃ error m' space, selfCheck config cpu m = .error (.refused error) m'
      ∧ LeftOver .wide cpu space ∅ m m' := by
  have hstarted : m.spaces ≠ none := started_of_kernelSpace hkernel
  obtain ⟨f, hf⟩ := FrameAllocator.exists_isFree hm.ledger.allocator (hone ▸ Nat.one_pos)
  obtain ⟨space, m₁, hcreate⟩ := exists_createSpace hm hstarted hf
  obtain ⟨hcreated, hsame⟩ := (ends_createSpace hm).of_ok hcreate
  have hv := visiting_of_created hm hplaced hout hcreated hsame
  have hnone : m₁.store.frames.available .normal = 0 := by
    have hcount := available_of_created hcreated hm
    omega
  obtain ⟨result, m₂, hallocate, hr, hfree⟩ := exists_of_ends (ends_allocatePage_free hv.sound)
  cases result with
  | ok frame =>
    obtain ⟨g, -, hg⟩ := hfree
    rw [FrameAllocator.available_normal hv.sound.ledger.allocator,
      Set.ncard_eq_zero (FrameAllocator.finite_freeSet _)] at hnone
    rw [hnone] at hg
    exact hg.elim
  | error error =>
    refine ⟨.ofFrameError error, m₂, space, ?_, ?_⟩
    · rw [selfCheck_eq]
      show (do
        match m.kernelSpace with
        | none => Steps.refuse .notInitialized
        | some kernel =>
          let space ← Manager.createSpace .wide cpu
          match ← onStore TableStore.allocatePage with
          | .error error => Steps.refuse (.ofFrameError error)
          | .ok frame => visit config cpu kernel space frame : MachineSteps Unit) m = _
      rw [hkernel]
      show (do
          let space ← Manager.createSpace .wide cpu
          match ← onStore TableStore.allocatePage with
          | .error error => Steps.refuse (.ofFrameError error)
          | .ok frame => visit config cpu kernel space frame : MachineSteps Unit) m = _
      rw [bind_of_ok hcreate, bind_of_ok hallocate]
      rfl
    · exact (hv.refrained hr).leftOver hm rfl (Set.empty_subset _) (Set.union_empty _).symm
        ((hr.same.root cpu).trans (hsame.root cpu))

/-- Three frames of free memory, which the kernel does not map. -/
def tightMap : BootMap :=
  ⟨[⟨0, .free, ⟨false, true⟩⟩, ⟨3 * frameSize, .endMarker, .none⟩], by decide⟩

/-- The kernel root takes one of them, and frame 0 is never handed out. -/
theorem exists_started_tightMap : ∃ s kernel, Reachable .wide {} AnyCall 0 s
    ∧ s.machine.kernelSpace = some kernel ∧ (s.machine.cpu 0).root = kernel.root
    ∧ savedRoot s.machine 0 = none ∧ s.machine.store.frames.available .normal = 1 := by
  have hframes : (FrameAllocator.init ⟨0, none⟩ tightMap {}).2.1
      = ⟨0, some (FrameBitmap.ofMap tightMap)⟩ := by decide +kernel
  have hfirst : (FrameAllocator.mk 0 (some (FrameBitmap.ofMap tightMap))).allocatePage.1
      = .ok frameSize := by decide +kernel
  have hone : (FrameAllocator.mk 0 (some (FrameBitmap.ofMap tightMap))).allocatePage.2.available
      .normal = 1 := by decide +kernel
  obtain ⟨m, stock, h, hleft, spaces, hspaces, -, -, hroot, hout, -⟩ : ∃ m stock,
      Answered .wide {} AnyCall 0 [(0, .initFrames tightMap), (0, .init tightMap [])] m stock
        ∧ _ ∧ _ :=
    exists_started (by decide) (by decide) rfl hframes hfirst trivial trivial 0
  refine ⟨_, spaces.kernel, h.reachable, kernelSpace_of_some hspaces, hroot, hout, ?_⟩
  rw [hleft]
  exact hone

/-- From there the check breaks no contract. -/
theorem selfCheck_cleans_up_tightMap : ∃ s kernel, Reachable .wide {} AnyCall 0 s
    ∧ s.machine.kernelSpace = some kernel ∧ (s.machine.cpu 0).root = kernel.root
    ∧ savedRoot s.machine 0 = none
    ∧ Ends (selfCheck {} 0) s.machine
      (fun _ m' => CleanedUp 0 s.machine m' ∧ Resolved {} 0 s.machine)
      (onRefusal fun _ m' =>
        (∃ error m₁, createSpace .wide 0 s.machine = .error (.refused error) m₁)
            ∧ CleanedUp 0 s.machine m'
          ∨ ∃ space m₁ kept, createSpace .wide 0 s.machine = .ok space m₁
            ∧ (kept = ∅ ∧ m₁.store.frames.freeSet = ∅ ∨ ∃ f ∈ m₁.store.frames.freeSet, kept = {f})
            ∧ LeftOver .wide 0 space kept s.machine m') := by
  obtain ⟨s, kernel, hs, hkernel, hroot, hout, -⟩ := exists_started_tightMap
  exact ⟨s, kernel, hs, hkernel, hroot, hout, selfCheck_cleans_up hs hkernel hroot hout⟩

/-- But the space is left over. -/
theorem selfCheck_leaves_space : ∃ s kernel error m' space, Reachable .wide {} AnyCall 0 s
    ∧ s.machine.kernelSpace = some kernel ∧ (s.machine.cpu 0).root = kernel.root
    ∧ savedRoot s.machine 0 = none
    ∧ selfCheck {} 0 s.machine = .error (.refused error) m'
    ∧ ¬ s.machine.HasTask space ∧ m'.HasTask space
    ∧ s.machine.tablePages < m'.tablePages
    ∧ ¬ CleanedUp 0 s.machine m' := by
  obtain ⟨s, kernel, hs, hkernel, hroot, hout, hone⟩ := exists_started_tightMap
  obtain ⟨error, m', space, e, hleft⟩ :=
    exists_leftOver hs.sound.machine hs.sound.placed hkernel hout hone
  have htask : m'.HasTask space := (hleft.tasks space).mpr (.inr rfl)
  refine ⟨s, kernel, error, m', space, hs, hkernel, hroot, hout, e, hleft.fresh, htask, ?_, ?_⟩
  · rw [hleft.tables]
    exact Nat.lt_add_of_pos_right hleft.nonempty
  · exact fun hclean => hleft.fresh ((hclean.tasks space).mp htask)

end Boot

end KernelMemory
