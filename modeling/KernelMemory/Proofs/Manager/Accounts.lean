/-
  KernelMemory.Proofs.Manager.Accounts — who the frames in use belong to.

  A frame is in use because it was when the allocator had started, or because a client holds it,
  or because a table is in it; never for two of these reasons.  The frames of a task space are
  those of its root and of the tables below the lower half of that.  What is done to other spaces
  leaves them alone, and what is done to the space moves frames between them and the free ones, and
  does nothing else.  So when the space is gone, as many frames are free as if it had never been.

  Main results:
    * `free_union_own` — what is done to a space keeps its frames and the free ones together;
    * `ownFrames_of_effect` — what is done otherwise keeps the frames of the space;
    * `Reachable.exists_lifetime` — a space can be made, be given memory, and be destroyed;
    * `frames_accounted` — the accounts of every run.
-/

import KernelMemory.Proofs.Manager.UpperHalf
import KernelMemory.Proofs.Paging.Private

namespace KernelMemory

open Machine Manager Steps

/-! ## The frames of a space -/

/-- The frames of a task space: of its root, and of the tables below the lower half of that. -/
def Machine.ownFrames (format : Format) (m : Machine) (space : AddressSpace) : Set Nat :=
  {f | m.HasTask space ∧ ∃ root, m.store.arena.frame? root = some space.root
    ∧ f ∈ m.store.arena.privateFrames format root}

/-- The frames of all other tables. -/
def Machine.otherFrames (format : Format) (m : Machine) (space : AddressSpace) : Set Nat :=
  m.store.arena.tableFrames \ m.ownFrames format space

section

variable {format : Format} {config : Config} {stock stock' : Stock} {cpu : CpuId}
  {action : Action} {m m' : Machine} {space : AddressSpace} {root : TableId} {P : MapRequest → Prop}

theorem ownFrames_eq (books : m.store.arena.Books) (htask : m.HasTask space)
    (hf : m.store.arena.frame? root = some space.root) :
    m.ownFrames format space = m.store.arena.privateFrames format root := by
  ext f
  constructor
  · rintro ⟨-, root', hf', hin⟩
    rw [books.frame_inj hf' hf] at hin
    exact hin
  · intro hin
    exact ⟨htask, root, hf, hin⟩

theorem otherFrames_eq (books : m.store.arena.Books) (htask : m.HasTask space)
    (hf : m.store.arena.frame? root = some space.root) :
    m.otherFrames format space = m.store.arena.otherFrames format root := by
  unfold Machine.otherFrames
  rw [ownFrames_eq books htask hf, Arena.tableFrames_eq format m.store.arena root,
    Set.union_sdiff_left]
  exact (Set.disjoint_iff_inter_eq_empty.mpr (Arena.privateFrames_disjoint books root)).symm.sdiff_eq_left

theorem ownFrames_of_not_task (htask : ¬ m.HasTask space) : m.ownFrames format space = ∅ :=
  Set.eq_empty_of_forall_notMem fun _ hf => htask hf.1

theorem otherFrames_of_not_task (htask : ¬ m.HasTask space) :
    m.otherFrames format space = m.store.arena.tableFrames := by
  unfold Machine.otherFrames
  rw [ownFrames_of_not_task htask, Set.sdiff_empty]

theorem ownFrames_congr (hcensus : m'.census = m.census)
    (harena : m'.store.arena = m.store.arena) :
    m'.ownFrames format space = m.ownFrames format space
      ∧ m'.otherFrames format space = m.otherFrames format space := by
  unfold Machine.otherFrames Machine.ownFrames
  simp only [hasTask_congr hcensus, harena, and_self]

theorem ownFrames_subset : m.ownFrames format space ⊆ m.store.arena.tableFrames := by
  rintro f ⟨-, root, -, id, -, hf⟩
  exact ⟨id, hf⟩

/-- The root of a task. -/
theorem exists_taskRoot (h : m.Sound format stock) (htask : m.HasTask space) :
    ∃ spaces root, m.spaces = some spaces ∧ root ≠ spaces.kernelTable
      ∧ m.store.arena.level? root = some format.topLevel
      ∧ m.store.arena.frame? root = some space.root := by
  obtain ⟨spaces, hspaces, hmem⟩ := htask
  obtain ⟨root, hne, hl, hf⟩ := (h.spaces hspaces).task hmem
  exact ⟨spaces, root, hspaces, hne, hl, hf⟩

/-- Together with its frames, the frames that are free are those that nobody else has. -/
theorem mem_free_union_own (h : m.Sound format stock) {f : Nat} :
    f ∈ m.store.frames.freeSet ∪ m.ownFrames format space
      ↔ f < stock.total ∧ f ∉ stock.held ∧ f ∉ m.otherFrames format space := by
  constructor
  · rintro (hfree | hown)
    · obtain ⟨hlt, hheld, htable⟩ := h.ledger.mem_freeSet_iff.mp hfree
      exact ⟨hlt, hheld, fun hother => htable hother.1⟩
    · obtain ⟨hlt, -, hheld⟩ := h.ledger.tableFrame (ownFrames_subset hown)
      rw [h.ledger.total] at hlt
      exact ⟨hlt, hheld, fun hother => hother.2 hown⟩
  · rintro ⟨hlt, hheld, hother⟩
    by_cases hown : f ∈ m.ownFrames format space
    · exact .inr hown
    · exact .inl (h.ledger.mem_freeSet_iff.mpr ⟨hlt, hheld, fun htable => hother ⟨htable, hown⟩⟩)

theorem free_disjoint_own (h : m.Sound format stock) :
    m.store.frames.freeSet ∩ m.ownFrames format space = ∅ := by
  refine Set.eq_empty_of_forall_notMem fun f hf => ?_
  obtain ⟨hfree, hown⟩ := hf
  exact (h.ledger.mem_freeSet_iff.mp hfree).2.2 (ownFrames_subset hown)

theorem finite_ownFrames (h : m.Sound format stock) : (m.ownFrames format space).Finite :=
  (Set.finite_lt_nat m.store.frames.totalPages).subset fun _ hf =>
    (h.ledger.tableFrame (ownFrames_subset hf)).1

/-- The number of frames that are free or the space's. -/
theorem ncard_free_union_own (h : m.Sound format stock) :
    (m.store.frames.freeSet ∪ m.ownFrames format space).ncard
      = m.store.frames.available .normal + (m.ownFrames format space).ncard := by
  rw [Set.ncard_union_eq (Set.disjoint_iff_inter_eq_empty.mpr (free_disjoint_own h))
      m.store.frames.finite_freeSet (finite_ownFrames h),
    FrameAllocator.available_normal h.ledger.allocator]

/-! ## What is done to a space -/

/-- Whether an action makes a space, maps memory into it or destroys it. -/
def Action.On (space : AddressSpace) (m m' : Machine) : Action → Prop
  | .call .createSpace => ¬ m.HasTask space ∧ m'.HasTask space
  | .call (.deleteSpace other) => other = space
  | .call (.mapUser other _ _ _) => other = space
  | .map range => range.space = space
  | _ => False

/-- Edits on other roots leave the frames of a space alone. -/
theorem ownFrames_of_remapped (hr : Remapped format P m m') (h : m.Sound format stock)
    (h' : m'.Sound format stock') {spaces : Spaces} (hspaces : m.spaces = some spaces)
    (ready : AllReady format spaces.kernelTable P m.store)
    (hne : ∀ root, root ≠ spaces.kernelTable → m.store.arena.frame? root = some space.root →
      ∀ request, P request → root ≠ request.root) :
    m'.ownFrames format space = m.ownFrames format space := by
  by_cases htask : m.HasTask space
  · obtain ⟨spaces', root, hspaces', hkernel, hl, hf⟩ := exists_taskRoot h htask
    rw [hspaces] at hspaces'
    injection hspaces' with hspaces'
    subst hspaces'
    obtain ⟨mid, he, -, hmid⟩ := hr.edits
    have orderly : m.store.Orderly format spaces.kernelTable stock :=
      ⟨h.ledger, (h.spaces hspaces).shaped⟩
    have hf' : m'.store.arena.frame? root = some space.root := by
      rw [hmid.alike.frame]
      exact (he.grows orderly ready).frame hf
    rw [ownFrames_eq h.ledger.books htask hf,
      ownFrames_eq h'.ledger.books ((hasTask_congr hr.census).mpr htask) hf',
      (hmid.alike.privateFrames root).1]
    exact he.privateFrames_other orderly ready hl (hne root hkernel hf)
  · rw [ownFrames_of_not_task htask,
      ownFrames_of_not_task (htask ∘ (hasTask_congr hr.census).mp)]

theorem ownFrames_of_mappedKernel (hk : MappedKernel format config m m')
    (h : m.Sound format stock) : m'.ownFrames format space = m.ownFrames format space := by
  have h' := hk.sound h
  rcases hk.tables with hq | ⟨spaces, hspaces, hr⟩
  · exact (ownFrames_congr hq.census hq.store.arena).1
  · have hsound := h.spaces hspaces
    refine ownFrames_of_remapped hr h h' hspaces
      (allReady_kernel ⟨spaces.kernelTable, true⟩ hsound.shaped.kernel_top) ?_
    intro root hne _ request hreq
    rw [hreq.root]
    exact hne

/-- Mapping memory into a space leaves the frames of the others alone. -/
theorem ownFrames_of_mappedUser {a : AddressSpace} {virt phys : Nat}
    (hu : MappedUser format a virt phys m m') (h : m.Sound format stock) (hne : a ≠ space) :
    m'.ownFrames format space = m.ownFrames format space := by
  have h' := hu.sound h
  rcases hu with hq | ⟨table, kernel, tasks, task, hcensus, -, -, hl, hf, hr⟩
  · exact (ownFrames_congr hq.census hq.store.arena).1
  · obtain ⟨spaces, hspaces, -⟩ := exists_of_census hcensus
    refine ownFrames_of_remapped hr h h' hspaces (allReady_user hl) ?_
    intro root _ hroot request hreq
    rw [hreq.root]
    rintro rfl
    exact hne (AddressSpace.eq_of_frame hf hroot)

/-- Every table that mapping memory into a space adds is the space's. -/
theorem otherFrames_of_mappedUser {virt phys : Nat}
    (hu : MappedUser format space virt phys m m') (h : m.Sound format stock) :
    m'.otherFrames format space = m.otherFrames format space := by
  have h' := hu.sound h
  rcases hu with hq | ⟨table, kernel, tasks, task, hcensus, hmem, hne, hl, hf, hr⟩
  · exact (ownFrames_congr hq.census hq.store.arena).2
  · obtain ⟨spaces, hspaces, heq⟩ := exists_of_census hcensus
    simp only [Spaces.census, Prod.mk.injEq] at heq
    have htask := (hasTask_of_census hcensus).mpr hmem
    have orderly : m.store.Orderly format spaces.kernelTable stock :=
      ⟨h.ledger, (h.spaces hspaces).shaped⟩
    have ready : AllReady format spaces.kernelTable (UserRequest format task virt phys) m.store :=
      allReady_user hl
    obtain ⟨mid, he, -, hmid⟩ := hr.edits
    have hf' : m'.store.arena.frame? task = some space.root := by
      rw [hmid.alike.frame]
      exact (he.grows orderly ready).frame hf
    rw [otherFrames_eq h.ledger.books htask hf,
      otherFrames_eq h'.ledger.books ((hasTask_congr hr.census).mpr htask) hf',
      (hmid.alike.privateFrames task).2]
    exact he.otherFrames_own orderly ready (fun r hreq => hreq.root) (by rw [heq.1]; exact hne)

/-- What is done otherwise leaves the frames of a space alone. -/
theorem ownFrames_of_effect (e : Effect format config cpu stock m action stock' m')
    (h : m.Sound format stock) (hoff : ¬ action.On space m m') :
    m'.ownFrames format space = m.ownFrames format space := by
  have h' := e.sound h
  cases e with
  | refrained hr _ => exact (ownFrames_congr hr.calm.census hr.calm.arena).1
  | covered hc => exact (ownFrames_congr hc.calm.census hc.calm.arena).1
  | started hi =>
    -- there was no task before, and is none
    obtain ⟨frame, root, first, mid, -, -, -, -, -, -, hcensus⟩ := hi.started.tree
    have hbefore : ¬ m.HasTask space := by
      rintro ⟨spaces, hspaces, -⟩
      rw [hi.started.unstarted] at hspaces
      cases hspaces
    have hafter : ¬ m'.HasTask space := by
      rw [hasTask_of_census hcensus]
      exact List.not_mem_nil
    rw [ownFrames_of_not_task hbefore, ownFrames_of_not_task hafter]
  | mappedKernel hk => exact ownFrames_of_mappedKernel hk h
  | created hc _ =>
    by_cases htask : m.HasTask space
    · obtain ⟨spaces, root, hspaces, -, hl, hf⟩ := exists_taskRoot h htask
      obtain ⟨spaces', new, hspaces', hrooted, -, hcensus⟩ := hc.rooted
      rw [hspaces] at hspaces'
      injection hspaces' with hspaces'
      subst hspaces'
      have htask' : m'.HasTask space := by
        rw [hasTask_of_census hcensus]
        exact List.mem_insert_of_mem ((hasTask_of_some hspaces).mp htask)
      rw [ownFrames_eq h.ledger.books htask hf,
        ownFrames_eq h'.ledger.books htask' ((hrooted.frame (hrooted.ne_root hl)).trans hf)]
      exact hrooted.privateFrames_other (h.spaces hspaces).shaped hl
    · have htask' : ¬ m'.HasTask space := fun hmade => hoff ⟨htask, hmade⟩
      rw [ownFrames_of_not_task htask, ownFrames_of_not_task htask']
  | @deleted old _ hd _ _ =>
    obtain ⟨spaces, gone, hspaces, -, -, hl, hf, hpruned, hcensus⟩ := hd.pruned
    have hne : space ≠ old := fun heq => hoff heq.symm
    have hstays : m'.HasTask space ↔ m.HasTask space := by
      rw [hasTask_of_census hcensus, hasTask_of_some hspaces, List.mem_erase_of_ne hne]
    by_cases htask : m.HasTask space
    · obtain ⟨spaces', root, hspaces', -, hl', hf'⟩ := exists_taskRoot h htask
      have hroots : root ≠ gone := by
        rintro rfl
        exact hne (AddressSpace.eq_of_frame hf' hf)
      have hshaped := (h.spaces hspaces).shaped
      have hkept := Arena.not_private_of_top hshaped hl' hroots
      rw [ownFrames_eq h.ledger.books htask hf',
        ownFrames_eq h'.ledger.books (hstays.mpr htask) ((hpruned.frame hkept).trans hf')]
      exact hpruned.privateFrames_other hshaped hl hl' hroots
    · rw [ownFrames_of_not_task htask, ownFrames_of_not_task (htask ∘ hstays.mp)]
  | mappedUser hu => exact ownFrames_of_mappedUser hu.tables h hoff
  | mapped hu _ => exact ownFrames_of_mappedUser hu h hoff
  | moved _ hq _ _ => exact (ownFrames_congr hq.census hq.store.arena).1

/-- A space that is destroyed takes its frames along, and no others. -/
theorem otherFrames_of_deleted (hd : Deleted format stock space m m') (h : m.Sound format stock) :
    ¬ m'.HasTask space ∧ m'.otherFrames format space = m.otherFrames format space := by
  have hnot : ¬ m'.HasTask space := by
    rintro ⟨spaces, hspaces, hmem⟩
    exact hd.not_alive h ⟨spaces, hspaces, .inr hmem⟩
  obtain ⟨spaces, root, hspaces, hmem, -, -, hf, hpruned, -⟩ := hd.pruned
  refine ⟨hnot, ?_⟩
  rw [otherFrames_of_not_task hnot,
    otherFrames_eq h.ledger.books ((hasTask_of_some hspaces).mpr hmem) hf]
  exact hpruned.tableFrames

/-- What is done to a space leaves all other tables where they are. -/
theorem otherFrames_of_effect (e : Effect format config cpu stock m action stock' m')
    (h : m.Sound format stock) (hon : action.On space m m') :
    m'.otherFrames format space = m.otherFrames format space := by
  have h' := e.sound h
  cases e with
  | refrained hr _ => exact (ownFrames_congr hr.calm.census hr.calm.arena).2
  | covered _ => exact hon.elim
  | started _ => exact hon.elim
  | mappedKernel _ => exact hon.elim
  | @created made _ hc _ =>
    obtain ⟨hbefore, hafter⟩ := hon
    obtain ⟨spaces, root, hspaces, hrooted, hf, hcensus⟩ := hc.rooted
    have hmade : space = made := by
      rcases List.mem_insert_iff.mp ((hasTask_of_census hcensus).mp hafter) with heq | hmem
      · exact heq
      · exact absurd ⟨spaces, hspaces, hmem⟩ hbefore
    rw [← hmade] at hf
    rw [otherFrames_of_not_task hbefore, otherFrames_eq h'.ledger.books hafter hf]
    exact hrooted.otherFrames_root
  | deleted hd _ _ =>
    rw [show _ = space from hon] at hd
    exact (otherFrames_of_deleted hd h).2
  | mappedUser hu =>
    have hu := hu.tables
    rw [show _ = space from hon] at hu
    exact otherFrames_of_mappedUser hu h
  | mapped hu _ =>
    rw [show _ = space from hon] at hu
    exact otherFrames_of_mappedUser hu h
  | moved _ hq _ _ => exact (ownFrames_congr hq.census hq.store.arena).2

/-! ## Steps -/

/-- Clients hold what they held when something was done to a space. -/
theorem Step.stock_of_on {Rule : Call → Prop} {s s' : System}
    (hstep : Step format config Rule cpu action s s') (hon : action.On space s.machine s'.machine) :
    s'.stock = s.stock := by
  cases hstep with
  | @call _ call result m' idle permitted rule ends =>
    cases call with
    | createSpace => rfl
    | deleteSpace _ => rfl
    | mapUser _ _ _ _ => rfl
    | _ => exact hon.elim
  | _ => rfl

/-- What is done to a space moves frames between it and the free ones. -/
theorem free_union_own {Rule : Call → Prop} {s s' : System}
    (hstep : Step format config Rule cpu action s s') (hs : s.Sound format)
    (hon : action.On space s.machine s'.machine) :
    s'.machine.store.frames.freeSet ∪ s'.machine.ownFrames format space
      = s.machine.store.frames.freeSet ∪ s.machine.ownFrames format space := by
  ext f
  rw [mem_free_union_own (hstep.sound hs).machine, mem_free_union_own hs.machine,
    hstep.stock_of_on hon, otherFrames_of_effect (hstep.effect hs) hs.machine hon]

/-- A run, and by how many frames the steps that do nothing to a space changed the number of
free frames, all together. -/
inductive Tally (format : Format) (config : Config) (space : AddressSpace) :
    System → System → Int → Prop where
  | refl {s : System} : Tally format config space s s 0
  | on {s t u : System} {change : Int} {cpu : CpuId} {action : Action}
      (before : Tally format config space s t change)
      (step : Step format config AnyCall cpu action t u)
      (on : action.On space t.machine u.machine) : Tally format config space s u change
  | off {s t u : System} {change : Int} {cpu : CpuId} {action : Action}
      (before : Tally format config space s t change)
      (step : Step format config AnyCall cpu action t u)
      (off : ¬ action.On space t.machine u.machine) :
      Tally format config space s u
        (change + (u.machine.store.frames.available .normal
          - t.machine.store.frames.available .normal))

/-- Along a run the frames of a space and the free ones change in number as the other steps have
it. -/
theorem Tally.available {s s' : System} {change : Int}
    (h : Tally format config space s s' change) (hs : s.Sound format) :
    s'.Sound format ∧
      (s'.machine.store.frames.available .normal + (s'.machine.ownFrames format space).ncard : Int)
        = s.machine.store.frames.available .normal + (s.machine.ownFrames format space).ncard
          + change := by
  induction h with
  | refl => exact ⟨hs, by omega⟩
  | on before step hon ih =>
    obtain ⟨ht, hcount⟩ := ih
    have hu := step.sound ht
    refine ⟨hu, ?_⟩
    have hsame := congrArg Set.ncard (free_union_own step ht hon)
    rw [ncard_free_union_own hu.machine, ncard_free_union_own ht.machine] at hsame
    omega
  | off before step hoff ih =>
    obtain ⟨ht, hcount⟩ := ih
    refine ⟨step.sound ht, ?_⟩
    rw [ownFrames_of_effect (step.effect ht) ht.machine hoff]
    omega

/-- A space that is destroyed gives back the frames of its root and of the tables below the lower
half of that. -/
theorem free_of_deleteSpace (h : m.Sound format stock) (hplaced : m.Placed)
    (e : deleteSpace format cpu space m = .ok () m') :
    m.HasTask space ∧ ¬ m'.HasTask space
      ∧ m'.store.frames.freeSet = m.store.frames.freeSet ∪ m.ownFrames format space
      ∧ m'.store.frames.available .normal
          = m.store.frames.available .normal + (m.ownFrames format space).ncard := by
  obtain ⟨hd, -, -⟩ := (ends_deleteSpace h hplaced).of_ok e
  have h' := hd.sound h
  obtain ⟨hnot, hothers⟩ := otherFrames_of_deleted hd h
  have hfree : m'.store.frames.freeSet = m.store.frames.freeSet ∪ m.ownFrames format space := by
    have hunion : m'.store.frames.freeSet ∪ m'.ownFrames format space
        = m.store.frames.freeSet ∪ m.ownFrames format space := by
      ext f
      rw [mem_free_union_own h', mem_free_union_own h, hothers]
    rw [ownFrames_of_not_task hnot, Set.union_empty] at hunion
    exact hunion
  obtain ⟨spaces, root, hspaces, hmem, -⟩ := hd.pruned
  refine ⟨(hasTask_of_some hspaces).mpr hmem, hnot, hfree, ?_⟩
  rw [FrameAllocator.available_normal h'.ledger.allocator, hfree, ncard_free_union_own h]

end

/-! ## Accounts -/

/-- Frames that are in use for no table: those that were when the allocator had just started, and
those that clients were given since and hold. -/
structure Accounts where
  boot : Set Nat
  clients : Set Nat

/-- The accounts after a call that left the machine as given. -/
def Call.accountsAfter (accounts : Accounts) (m : Machine) :
    Call → Except MemoryError Answer → Accounts
  | .initFrames _, .ok (.first true) => ⟨m.store.frames.inUse.held, ∅⟩
  | .allocatePage, .ok (.frame (.ok address)) =>
    { accounts with clients := accounts.clients ∪ FrameAllocator.block address 0 }
  | .allocateBlock order _, .ok (.frame (.ok address)) =>
    { accounts with clients := accounts.clients ∪ FrameAllocator.block address order }
  | .freePage address, _ =>
    { accounts with clients := accounts.clients \ FrameAllocator.givenBack address 0 }
  | .freeBlock address order, _ =>
    { accounts with clients := accounts.clients \ FrameAllocator.givenBack address order }
  | _, _ => accounts

/-- The states of the runs in which clients give back only what they hold, each with the accounts
of the run that leads to it. -/
inductive Audited (format : Format) (config : Config) (poolPages : Nat) :
    Accounts → System → Prop where
  | start : Audited format config poolPages ⟨∅, ∅⟩ (System.powerOn poolPages)
  | call {accounts : Accounts} {s : System} {cpu : CpuId} {call : Call}
      {result : Except MemoryError Answer} {m' : Machine}
      (before : Audited format config poolPages accounts s) (idle : s.stage cpu = .idle)
      (permitted : call.Permitted accounts.clients)
      (ends : attempt (perform format config cpu call) s.machine = .ok result m') :
      Audited format config poolPages (call.accountsAfter accounts m' result)
        ⟨m', call.stockAfter s.stock m' result, s.stage⟩
  | part {accounts : Accounts} {s s' : System} {cpu : CpuId} {action : Action}
      (before : Audited format config poolPages accounts s)
      (noCall : ∀ call, action ≠ .call call)
      (step : Step format config AnyCall cpu action s s') :
      Audited format config poolPages accounts s'

section

variable {format : Format} {config : Config} {poolPages : Nat} {accounts : Accounts} {s : System}

/-- What the accounts say is what the system keeps of frames that are in use for no table. -/
structure Accounts.Balanced (accounts : Accounts) (stock : Stock) : Prop where
  held : stock.held = accounts.boot ∪ accounts.clients
  disjoint : accounts.boot ∩ accounts.clients = ∅

theorem Accounts.Balanced.handOut {stock : Stock} (h : accounts.Balanced stock) {block : Set Nat}
    (hnew : stock.held ∩ block = ∅) :
    Accounts.Balanced { accounts with clients := accounts.clients ∪ block }
      ⟨stock.held ∪ block, stock.total⟩ where
  held := by
    show stock.held ∪ block = accounts.boot ∪ (accounts.clients ∪ block)
    rw [h.held, Set.union_assoc]
  disjoint := by
    rw [h.held, Set.union_inter_distrib_right, Set.union_empty_iff] at hnew
    show accounts.boot ∩ (accounts.clients ∪ block) = ∅
    rw [Set.inter_union_distrib_left, h.disjoint, hnew.1, Set.union_empty]

theorem Accounts.Balanced.giveBack {stock : Stock} (h : accounts.Balanced stock) {block : Set Nat}
    (hheld : block ⊆ accounts.clients) :
    Accounts.Balanced { accounts with clients := accounts.clients \ block }
      ⟨stock.held \ block, stock.total⟩ where
  held := by
    have hboot : accounts.boot \ block = accounts.boot := by
      have hdisjoint := Set.disjoint_iff_inter_eq_empty.mpr h.disjoint
      exact (hdisjoint.mono_right hheld).sdiff_eq_left
    show stock.held \ block = accounts.boot ∪ accounts.clients \ block
    rw [h.held, Set.union_sdiff_distrib, hboot]
  disjoint := by
    refine Set.eq_empty_of_subset_empty ?_
    rw [← h.disjoint]
    exact Set.inter_subset_inter_right _ Set.sdiff_subset

/-- A call keeps the accounts balanced. -/
theorem Accounts.Balanced.after {stock : Stock} {m m' : Machine} {cpu : CpuId} {call : Call}
    {result : Except MemoryError Answer} (hb : accounts.Balanced stock) (h : m.Sound format stock)
    (permitted : call.Permitted accounts.clients)
    (ends : attempt (perform format config cpu call) m = .ok result m') :
    (call.accountsAfter accounts m' result).Balanced (call.stockAfter stock m' result) := by
  cases call with
  | initFrames map =>
    -- the accounts begin anew when the allocator starts
    have hstart : Accounts.Balanced ⟨m'.store.frames.inUse.held, ∅⟩ m'.store.frames.inUse :=
      ⟨(Set.union_empty _).symm, Set.inter_empty _⟩
    rcases result with error | (_ | (_ | _) | _ | _)
    case ok.first.true => exact hstart
    all_goals exact hb
  | allocatePage =>
    have hends : Ends (perform format config cpu .allocatePage) m
        (fun answer _ => ∀ address, answer = .frame (.ok address) →
          stock.held ∩ FrameAllocator.block address 0 = ∅) (fun _ _ => False) := by
      rw [perform_allocatePage, ends_bind, ends_onStore]
      refine TableStore.ends_allocatePage _ _ fun result s hframes _ address heq => ?_
      injection heq with heq
      rw [heq] at hframes
      exact h.ledger.held_disjoint
        (FrameAllocator.block_subset_of_allocatePage h.ledger.allocator hframes)
    rcases result with error | (_ | _ | (_ | address) | _)
    case ok.frame.ok => exact hb.handOut (hends.of_ok (eq_ok_of_attempt ends) address rfl)
    all_goals exact hb
  | allocateBlock order zone =>
    have hends : Ends (perform format config cpu (.allocateBlock order zone)) m
        (fun answer _ => ∀ address, answer = .frame (.ok address) →
          stock.held ∩ FrameAllocator.block address order = ∅) (fun _ _ => False) := by
      rw [perform_allocateBlock, ends_bind, ends_onStore]
      refine TableStore.ends_allocateBlock _ _ _ _ fun result s hframes _ address heq => ?_
      injection heq with heq
      rw [heq] at hframes
      exact h.ledger.held_disjoint
        (FrameAllocator.block_subset_of_allocateBlock h.ledger.allocator hframes)
    rcases result with error | (_ | _ | (_ | address) | _)
    case ok.frame.ok => exact hb.handOut (hends.of_ok (eq_ok_of_attempt ends) address rfl)
    all_goals exact hb
  | freePage address => exact hb.giveBack permitted
  | freeBlock address order => exact hb.giveBack permitted
  | _ => exact hb

/-- What clients hold may be given back; so a call that is permitted to them is permitted. -/
theorem Call.Permitted.mono {call : Call} {held held' : Set Nat} (h : call.Permitted held)
    (hle : held ⊆ held') : call.Permitted held' := by
  cases call with
  | initFrames map => exact h
  | freePage address => exact h.trans hle
  | freeBlock address order => exact h.trans hle
  | _ => trivial

/-- A section is no call, so clients hold what they held. -/
theorem Step.stock_of_section {cpu : CpuId} {action : Action} {s' : System}
    (hstep : Step format config AnyCall cpu action s s') (noCall : ∀ call, action ≠ .call call) :
    s'.stock = s.stock := by
  cases hstep with
  | call => exact absurd rfl (noCall _)
  | _ => rfl

theorem Audited.balanced (h : Audited format config poolPages accounts s) :
    Reachable format config AnyCall poolPages s ∧ accounts.Balanced s.stock := by
  induction h with
  | start => exact ⟨.start, (Set.union_empty _).symm, Set.inter_empty _⟩
  | @call accounts s cpu call result m' before idle permitted ends ih =>
    obtain ⟨hreachable, hb⟩ := ih
    have hheld : accounts.clients ⊆ s.stock.held := by
      rw [hb.held]
      exact Set.subset_union_right
    exact ⟨hreachable.step (.call idle (permitted.mono hheld) trivial ends),
      hb.after hreachable.sound.machine permitted ends⟩
  | part before noCall step ih =>
    obtain ⟨hreachable, hb⟩ := ih
    refine ⟨hreachable.step step, ?_⟩
    rw [step.stock_of_section noCall]
    exact hb

/-! ## A space from its start to its end -/

/-- Whether a call gives frames back. -/
def Call.GivesBack : Call → Prop
  | .freePage _ | .freeBlock .. => True
  | _ => False

/-- Where clients give nothing back, they give back what they hold. -/
theorem Reachable.audited (h : Reachable format config (fun call => ¬ call.GivesBack) poolPages s) :
    ∃ accounts, Audited format config poolPages accounts s := by
  induction h with
  | start => exact ⟨_, .start⟩
  | @step s s' cpu action before step ih =>
    obtain ⟨accounts, h⟩ := ih
    have hstep : Step format config AnyCall cpu action s s' := step.mono fun _ _ => trivial
    cases step with
    | @call _ call result m' idle permitted rule ends =>
      refine ⟨_, h.call idle ?_ ends⟩
      cases call with
      | initFrames map => exact permitted
      | freePage address => exact absurd trivial rule
      | freeBlock address order => exact absurd trivial rule
      | _ => trivial
    | _ => exact ⟨accounts, h.part (by simp) hstep⟩

/-- No processor uses a new space, as none could before it was there. -/
theorem not_uses_of_created {stock : Stock} {m m' : Machine} {space : AddressSpace}
    (h : m.Sound format stock) (hplaced : m.Placed)
    (hcreated : Created format stock space m m') (hsame : SameRoots m m') :
    ¬ m'.Uses space.root := by
  intro huses
  rcases hplaced.legit_of_uses (hsame.uses.mp huses) with hnull | halive
  · have h' := hcreated.sound h
    obtain ⟨-, root, -, -, -, hf⟩ := exists_taskRoot h' hcreated.hasTask
    have hpos : 0 < space.root := (h'.ledger.table hf).2.1
    exact Nat.ne_of_gt hpos hnull
  · exact hcreated.not_alive h halive

/-- Once its own processor is elsewhere, no processor uses it that did not before. -/
theorem not_uses_of_othersKept {cpu : CpuId} {m m' : Machine} {root : PhysAddr}
    (hplaced : m'.Placed) (hnull : root ≠ 0) (hothers : OthersKept cpu m m')
    (hroot : (m'.cpu cpu).root ≠ root) (houtside : savedRoot m' cpu = none) (h : ¬ m.Uses root) :
    ¬ m'.Uses root := by
  have hnoted : ∀ {other roots}, m'.roots? other = some roots →
      ¬ (roots.loaded = root ∨ roots.saved = some root) := by
    intro other roots hr huse
    by_cases heq : other = cpu
    · subst heq
      rcases huse with hloaded | hsaved
      · exact hroot ((hplaced.loaded hr).symm.trans hloaded)
      · rw [savedRoot, hr] at houtside
        exact Option.some_ne_none root (hsaved.symm.trans houtside)
    · rw [hothers other heq] at hr
      exact h (.inr ⟨other, roots, hr, huse⟩)
  rintro (⟨other, hother⟩ | ⟨other, roots, hr, huse⟩)
  · cases hr : m'.roots? other with
    | none => exact hnull (hother.symm.trans (hplaced.unknown hr))
    | some roots => exact hnoted hr (.inl ((hplaced.loaded hr).trans hother))
  · exact hnoted hr huse

/-- A page of the lower half that is in no large page takes a table below the root. -/
theorem one_lt_ownFrames {stock : Stock} {m : Machine} {space : AddressSpace}
    (h : m.Sound format stock) (htask : m.HasTask space) {v p : Nat} (hv : v < format.userEnd)
    (ht : m.translate format space v = .ok (some p))
    (hapart : p % format.span Format.largeLevel ≠ v % format.span Format.largeLevel) :
    1 < (m.ownFrames format space).ncard := by
  obtain ⟨spaces, root, hspaces, -, hl, hf⟩ := exists_taskRoot h htask
  have hshaped := (h.spaces hspaces).shaped
  have halive : m.Alive space := ⟨spaces, hspaces, .inr ((hasTask_of_some hspaces).mp htask)⟩
  rw [translate_eq_view h (rootTable_of_frame h halive hf)] at ht
  injection ht with ht
  obtain ⟨⟨q, flags⟩, hview, rfl⟩ := Option.map_eq_some_iff.mp ht
  obtain ⟨mapping, hlookup, -⟩ := hshaped.lookup_of_apart hl hview hapart
  obtain ⟨child, hs⟩ := Arena.exists_child_of_lookup hlookup
  have hlow := (Format.index_top_lt_iff (Format.inRange_of_lt_userEnd hv)).mpr hv
  -- the table is private to the root, and another one
  obtain ⟨l, -, hc⟩ := hshaped.child hs
  have hne : child ≠ root := by
    rintro rfl
    have hlt := hshaped.child_lt_top hs hc
    rw [hl] at hc
    exact Nat.ne_of_lt hlt (Option.some.inj hc).symm
  have hprivate : child ∈ m.store.arena.Private format root :=
    .inl ⟨_, child, Nat.zero_le _, Nat.lt_of_lt_of_eq hlow (Nat.zero_add _).symm, hs, .refl⟩
  obtain ⟨t, ht, -⟩ := Arena.exists_of_level? hc
  have hchild := Arena.frame?_of_get? ht
  have hframes : ∀ {id frame : Nat}, m.store.arena.frame? id = some frame →
      frame / frameSize * frameSize = frame := fun hid =>
    Nat.div_mul_cancel (Nat.dvd_of_mod_eq_zero (h.ledger.table hid).1)
  have hown : m.ownFrames format space = m.store.arena.privateFrames format root :=
    ownFrames_eq h.ledger.books htask hf
  refine (Set.one_lt_ncard_iff (finite_ownFrames h)).mpr
    ⟨space.root / frameSize, t.frame / frameSize, ?_, ?_, fun heq => hne ?_⟩
  · rw [hown]
    exact ⟨root, .inr rfl, by rw [hframes hf]; exact hf⟩
  · rw [hown]
    exact ⟨child, hprivate, by rw [hframes hchild]; exact hchild⟩
  · have hsame : space.root = t.frame := by rw [← hframes hf, heq, hframes hchild]
    rw [hsame] at hf
    exact h.ledger.books.frame_inj hchild hf

/-- The life of a task space on one processor: it is made, the processor goes there, is given a range
of memory, goes to the kernel space, and destroys it. -/
structure Lifetime (format : Format) (config : Config) (cpu : CpuId) (range : UserRange)
    (s made there given back s' : System) : Prop where
  before : ¬ s.machine.HasTask range.space
  create : Step format config AnyCall cpu (.call .createSpace) s made
  hasTask : made.machine.HasTask range.space
  go : Step format config AnyCall cpu (.call (.switchTo range.space)) made there
  give : Step format config AnyCall cpu (.call range.call) there given
  leave : ∃ kernel, given.machine.kernelSpace = some kernel
    ∧ Step format config AnyCall cpu (.call (.switchTo kernel)) given back
  delete : Step format config AnyCall cpu (.call (.deleteSpace range.space)) back s'
  after : ¬ s'.machine.HasTask range.space

/-- A space that no processor used when it was made is destroyed by the processor that went there and
leaves. -/
theorem exists_leave {stock : Stock} {m made : Machine} {cpu : CpuId} {space : AddressSpace}
    {stage : CpuId → Stage} (hs : System.Sound format ⟨m, stock, stage⟩) (hidle : stage cpu = .idle)
    (htask : m.HasTask space) (houtside : savedRoot m cpu = none)
    (hunused : ¬ made.Uses space.root) (hothers : OthersKept cpu made m) :
    ∃ kernel m' m'', m.kernelSpace = some kernel ∧ switchTo cpu kernel m = .ok () m' ∧ Quiet m m'
      ∧ deleteSpace format cpu space m' = .ok () m'' := by
  obtain ⟨spaces, hspaces, hmem⟩ := id htask
  have hkernel : m.kernelSpace = some spaces.kernel := kernelSpace_of_some hspaces
  obtain ⟨m', e, hq, hroot, houtside'⟩ : ∃ m', switchTo cpu spaces.kernel m = .ok () m' ∧ _ ∧ _ ∧ _ :=
    exists_switchTo hs.machine ⟨spaces, hspaces, .inl rfl⟩ houtside
  have hstep : Step format {} AnyCall cpu (.call (.switchTo spaces.kernel)) ⟨m, stock, stage⟩
      ⟨m', stock, stage⟩ := Step.of_ok hidle trivial trivial (perform_of_switchTo e)
  have hs' := hstep.sound hs
  have htask' : m'.HasTask space := (hasTask_congr hq.census).mpr htask
  have hne := (hs.machine.spaces hspaces).task_root_ne hs.machine.ledger.books hmem
  obtain ⟨-, root, -, -, -, hf⟩ := exists_taskRoot hs'.machine htask'
  have hnull : space.root ≠ 0 := Nat.ne_of_gt (hs'.machine.ledger.table hf).2.1
  have hunused' : ¬ m'.Uses space.root :=
    not_uses_of_othersKept hs'.placed hnull (hothers.trans (hstep.effect hs).others)
      (by rw [hroot]; exact hne.symm) houtside' hunused
  obtain ⟨m'', e'⟩ : ∃ m'', deleteSpace format cpu space m' = .ok () m'' :=
    exists_deleteSpace hs'.machine hs'.placed htask' hunused'
  exact ⟨spaces.kernel, m', m'', hkernel, e, hq, e'⟩

/-- While there are frames for its tables, a space can be made, be given memory, and be destroyed. -/
theorem Reachable.exists_lifetime {cpu : CpuId} {poolPages virt phys size : Nat} {m : Machine}
    {stock : Stock} {stage : CpuId → Stage}
    (h : Reachable format config (fun call => ¬ call.GivesBack) poolPages ⟨m, stock, stage⟩)
    (hidle : stage cpu = .idle) (hstarted : m.spaces ≠ none) (houtside : savedRoot m cpu = none)
    (hpos : 0 < size) (hvirt : virt + (size - 1) < format.userEnd)
    (hphys : phys + (size - 1) < format.physicalEnd)
    (enough : tablesWanted format config virt phys size < m.store.frames.available .normal) :
    ∃ space made there given back s',
      Reachable format config (fun call => ¬ call.GivesBack) poolPages back
        ∧ Lifetime format config cpu ⟨space, virt, phys, size⟩ ⟨m, stock, stage⟩ made there given
          back s'
        ∧ there.machine.store.frames = made.machine.store.frames
        ∧ back.machine.store.frames = given.machine.store.frames
        ∧ (∀ i, i < size → frameSize ≤ virt + i →
          back.machine.translate format space (virt + i) = .ok (some (shifted virt phys + i)))
        ∧ deleteSpace format cpu space back.machine = .ok () s'.machine := by
  have hs := h.sound
  -- the space is made, and the processor goes there
  obtain ⟨space, m₁, m₂, e₁, e₂, hon⟩ : ∃ space m₁ m₂,
      createSpace format cpu m = .ok space m₁ ∧ _ ∧ _ :=
    exists_onTask hs.machine hstarted houtside (Nat.zero_lt_of_lt enough)
  obtain ⟨hcreated, hsame⟩ := (ends_createSpace hs.machine).of_ok e₁
  have hcreate : Step format config (fun call => ¬ call.GivesBack) cpu (.call .createSpace)
      ⟨m, stock, stage⟩ ⟨m₁, stock, stage⟩ :=
    Step.of_ok hidle trivial (fun hgives => hgives) (perform_of_createSpace e₁)
  have hs₁ := hcreate.sound hs
  have hgo : Step format config (fun call => ¬ call.GivesBack) cpu (.call (.switchTo space))
      ⟨m₁, stock, stage⟩ ⟨m₂, stock, stage⟩ :=
    Step.of_ok hidle trivial (fun hgives => hgives) (perform_of_switchTo e₂)
  have hs₂ := hgo.sound hs₁
  obtain ⟨hq₂, -⟩ := (ends_switchTo hs₁.machine).of_ok e₂
  -- it is given its range
  have hspent := hon.spent
  have henough : tablesWanted format config virt phys size ≤ m₂.store.frames.available .normal := by
    omega
  obtain ⟨m₃, e₃, htask₃, houtside₃, hbytes⟩ :=
    hon.exists_mapUser hs₂.machine hs₂.placed hpos hvirt hphys henough
  have hgive : Step format config (fun call => ¬ call.GivesBack) cpu
      (.call (.mapUser space virt phys size)) ⟨m₂, stock, stage⟩ ⟨m₃, stock, stage⟩ :=
    Step.of_ok hidle trivial (fun hgives => hgives) (perform_of_mapUser e₃)
  have hs₃ := hgive.sound hs₂
  -- the processor leaves, and destroys it
  obtain ⟨kernel, m₄, m₅, hkernel, e₄, hq₄, e₅⟩ :=
    exists_leave hs₃ hidle htask₃ houtside₃
      (not_uses_of_created hs.machine hs.placed hcreated hsame)
      ((hgo.effect hs₁).others.trans (hgive.effect hs₂).others)
  have hleave : Step format config (fun call => ¬ call.GivesBack) cpu (.call (.switchTo kernel))
      ⟨m₃, stock, stage⟩ ⟨m₄, stock, stage⟩ :=
    Step.of_ok hidle trivial (fun hgives => hgives) (perform_of_switchTo e₄)
  have hs₄ := hleave.sound hs₃
  have hdelete : Step format config AnyCall cpu (.call (.deleteSpace space))
      ⟨m₄, stock, stage⟩ ⟨m₅, stock, stage⟩ :=
    Step.of_ok hidle trivial trivial (perform_of_deleteSpace e₅)
  have hnew : ¬ m.HasTask space := by
    rintro ⟨spaces, hspaces, hmem⟩
    exact hcreated.not_alive hs.machine ⟨spaces, hspaces, .inr hmem⟩
  obtain ⟨-, hgone, -⟩ := free_of_deleteSpace hs₄.machine hs₄.placed e₅
  have hany : ∀ call : Call, ¬ call.GivesBack → AnyCall call := fun _ _ => trivial
  have hlife : Lifetime format config cpu ⟨space, virt, phys, size⟩ ⟨m, stock, stage⟩
      ⟨m₁, stock, stage⟩ ⟨m₂, stock, stage⟩ ⟨m₃, stock, stage⟩ ⟨m₄, stock, stage⟩
      ⟨m₅, stock, stage⟩ :=
    ⟨hnew, hcreate.mono hany, hcreated.hasTask, hgo.mono hany, hgive.mono hany,
      ⟨kernel, hkernel, hleave.mono hany⟩, hdelete, hgone⟩
  refine ⟨space, _, _, _, _, _, (((h.step hcreate).step hgo).step hgive).step hleave, hlife,
    hq₂.store.frames, hq₄.store.frames, fun i hi hnull => ?_, e₅⟩
  have hstay : SameAt format m₃ m₄ space (virt + i) := (hq₄.calm hs₃.machine).sameAt
  exact hstay.translate.trans (hbytes hi hnull)

/-- So it can be once the manager is started. -/
theorem exists_lifetime : ∃ space s made there given back s',
    Reachable .narrow mirrored (fun call => ¬ call.GivesBack) 0 s
      ∧ Reachable .narrow mirrored (fun call => ¬ call.GivesBack) 0 back
      ∧ Lifetime .narrow mirrored 0 ⟨space, 0x400000, 0x801000, 0x1000⟩ s made there given back s'
      ∧ there.machine.store.frames = made.machine.store.frames
      ∧ back.machine.store.frames = given.machine.store.frames
      ∧ back.machine.translate .narrow space 0x400000 = .ok (some 0x801000)
      ∧ deleteSpace .narrow 0 space back.machine = .ok () s'.machine := by
  obtain ⟨m₀, m, stock, kernel, h, hbuilt, houtside, hleft⟩ : ∃ m₀ m stock kernel,
      Answered .narrow mirrored (fun call => ¬ call.GivesBack) 0
        [(0, .initFrames mixedMap), (0, .init mixedMap [])] m stock ∧ _ :=
    exists_started_mixedMap (fun hgives => hgives) fun hgives => hgives
  have hstarted : m.spaces ≠ none := started_of_kernelSpace hbuilt.kernel
  have htables : tablesWanted .narrow mirrored 0x400000 0x801000 0x1000 ≤ 16000 := by decide +kernel
  have henough : tablesWanted .narrow mirrored 0x400000 0x801000 0x1000
      < m.store.frames.available .normal := by omega
  obtain ⟨space, made, there, given, back, s', hback, life, hthere, hgiven, hbytes, e⟩ :=
    h.reachable.exists_lifetime rfl hstarted houtside (by decide) (by decide) (by decide) henough
  have hshift : shifted 0x400000 0x801000 = 0x801000 := shifted_eq_iff.mpr (by decide)
  have hpage := hbytes 0 (by decide) (by decide)
  rw [hshift] at hpage
  exact ⟨space, _, made, there, given, back, s', h.reachable, hback, life, hthere, hgiven, hpage, e⟩

/-- The frames in use are accounted for, and deleting a space gives back what it took. -/
theorem frames_accounted (h : Audited format config poolPages accounts s) :
    (s.machine.store.frames.inUse.held
        = accounts.boot ∪ accounts.clients ∪ s.machine.store.arena.tableFrames
      ∧ accounts.boot ∩ accounts.clients = ∅
      ∧ (accounts.boot ∪ accounts.clients) ∩ s.machine.store.arena.tableFrames = ∅
      ∧ s.machine.tablePages = s.machine.store.arena.tableFrames.ncard)
    ∧ (∀ {cpu : CpuId} {space : AddressSpace} {m' : Machine},
        deleteSpace format cpu space s.machine = .ok () m' →
          m'.store.frames.freeSet
              = s.machine.store.frames.freeSet ∪ s.machine.ownFrames format space
            ∧ s.machine.store.frames.freeSet ∩ s.machine.ownFrames format space = ∅
            ∧ m'.store.frames.available .normal = s.machine.store.frames.available .normal
                + (s.machine.ownFrames format space).ncard)
    ∧ (∀ {cpu : CpuId} {space : AddressSpace} {failure : Failure} {m' : Machine},
        deleteSpace format cpu space s.machine = .error failure m' → m' = s.machine)
    ∧ ∀ {space : AddressSpace} {s' : System} {change : Int},
        Tally format config space s s' change →
        ¬ s.machine.HasTask space → ¬ s'.machine.HasTask space →
          (s'.machine.store.frames.available .normal : Int)
            = s.machine.store.frames.available .normal + change := by
  obtain ⟨hreachable, hb⟩ := h.balanced
  have hs := hreachable.sound
  have hledger := hs.machine.ledger
  refine ⟨⟨?_, hb.disjoint, ?_, ?_⟩, ?_, ?_, ?_⟩
  · rw [← hb.held]
    ext f
    constructor
    · rintro ⟨hlt, hused⟩
      exact hledger.covered hlt hused
    · rintro (hheld | htable)
      · exact hledger.client hheld
      · obtain ⟨hlt, hused, -⟩ := hledger.tableFrame htable
        exact ⟨hlt, hused⟩
  · rw [← hb.held]
    refine Set.eq_empty_of_forall_notMem fun f hf => ?_
    exact (hledger.tableFrame hf.2).2.2 hf.1
  · exact hledger.books.size_eq fun hf => (hledger.table hf).1
  · intro cpu space m' e
    obtain ⟨-, -, hfree, hcount⟩ := free_of_deleteSpace hs.machine hs.placed e
    exact ⟨hfree, free_disjoint_own hs.machine, hcount⟩
  · intro cpu space failure m' e
    have hrefused := (ends_deleteSpace hs.machine hs.placed).of_error e
    cases failure with
    | refused error => exact hrefused.1
    | fault fault => exact hrefused.elim
  · intro space s' change htally hbefore hafter
    obtain ⟨-, hcount⟩ := htally.available hs
    rw [ownFrames_of_not_task hbefore, ownFrames_of_not_task hafter, Set.ncard_empty] at hcount
    omega

/-- In particular, where kernel memory is mapped and a space is given a page: it has more frames then
than that of its root, all of them come back, and as many are free as before it was made. -/
theorem frames_accounted_lifetime :
    ∃ accounts space s made there given back s', Audited .narrow mirrored 0 accounts s
      ∧ Lifetime .narrow mirrored 0 ⟨space, 0x400000, 0x801000, 0x1000⟩ s made there given back s'
      ∧ back.machine.translate .narrow space 0x400000 = .ok (some 0x801000)
      ∧ s.machine.store.frames.inUse.held
          = accounts.boot ∪ accounts.clients ∪ s.machine.store.arena.tableFrames
      ∧ s.machine.tablePages = s.machine.store.arena.tableFrames.ncard
      ∧ 1 < (back.machine.ownFrames .narrow space).ncard
      ∧ s'.machine.store.frames.freeSet
          = back.machine.store.frames.freeSet ∪ back.machine.ownFrames .narrow space
      ∧ s'.machine.store.frames.available .normal = s.machine.store.frames.available .normal := by
  obtain ⟨space, s, made, there, given, back, s', h, hback, life, hthere, hgiven, hpage, e⟩ :=
    exists_lifetime
  obtain ⟨accounts, haudited⟩ := h.audited
  obtain ⟨accounts', haudited'⟩ := hback.audited
  obtain ⟨⟨hused, -, -, hcount⟩, -, -, htally⟩ := frames_accounted haudited
  obtain ⟨-, hdelete, -, -⟩ := frames_accounted haudited'
  obtain ⟨htask, -⟩ := free_of_deleteSpace hback.sound.machine hback.sound.placed e
  obtain ⟨kernel, -, hleave⟩ := life.leave
  have hsame := htally (.on (.off (.on (.off (.on .refl life.create ⟨life.before, life.hasTask⟩)
    life.go fun hon => hon) life.give rfl) hleave fun hon => hon) life.delete rfl) life.before life.after
  rw [hthere, hgiven] at hsame
  refine ⟨accounts, space, s, made, there, given, back, s', haudited, life, hpage, hused, hcount, ?_,
    (hdelete e).1, by omega⟩
  exact one_lt_ownFrames hback.sound.machine htask (by decide) hpage (by decide)

end

end KernelMemory
