/-
  KernelMemory.Proofs.Manager.UserAccess — what user code can reach.

  User mode goes through the tables in memory on its own and is only stopped by an entry without
  the user bit.  From the root of a task it gets to what is mapped for the task, all of it, and to
  nothing of the kernel; from the kernel root it gets nowhere.  Whatever calls were refused on the
  way, and whichever request made a table first.

  Main results:
    * `Effect.gated` — every action keeps tables for user code apart from the kernel's;
    * `user_access` — in every state of every run user code reaches what is its own.
-/

import KernelMemory.Proofs.Manager.Committed
import KernelMemory.Proofs.Paging.Gates

namespace KernelMemory

open Machine Manager

section

variable {format : Format} {config : Config} {stock stock' : Stock} {cpu : CpuId}
  {action : Action} {m m' : Machine} {request : MapRequest}

/-! ## Requests -/

theorem KernelRequest.proper {tree : KernelTree} {image : Option MemoryRegion}
    (h : KernelRequest format config tree image request) : request.Proper tree.root where
  tables := by simp [h.user.1, h.root]
  pages := by simp [h.user.2, h.root]

theorem UserRequest.proper {kernel root virt phys : Nat}
    (h : UserRequest format root virt phys request) (hne : root ≠ kernel) :
    request.Proper kernel where
  tables := by simp [h.user.1, h.root, hne]
  pages := by simp [h.user.2, h.root, hne]

/-! ## Actions -/

/-- Tables and pages for user code are in the lower halves of tasks, and nothing else is. -/
def Machine.Gated (format : Format) (m : Machine) : Prop :=
  ∀ {table : TableId} {kernel : AddressSpace} {tasks : List AddressSpace},
    m.census = some (table, kernel, tasks) → m.store.arena.Gated format table

theorem gated_of_unchanged (harena : m'.store.arena = m.store.arena) (hcensus : m'.census = m.census)
    (h : m.Gated format) : m'.Gated format := by
  intro table kernel tasks hc
  rw [harena]
  exact h (by rw [← hcensus]; exact hc)

theorem Machine.Quiet.gated (hq : Quiet m m') (h : m.Gated format) : m'.Gated format :=
  gated_of_unchanged hq.store.arena hq.census h

/-- Edits for requests that go where they should, written to memory. -/
theorem Machine.Remapped.gated {P : MapRequest → Prop} {spaces : Spaces} (hr : Remapped format P m m')
    (h : m.Gated format) (hs : m.Sound format stock) (hspaces : m.spaces = some spaces)
    (ready : AllReady format spaces.kernelTable P m.store)
    (proper : ∀ request, P request → request.Proper spaces.kernelTable) : m'.Gated format := by
  intro table kernel tasks hc
  have hcensus := hr.census
  rw [hc, census_of_some hspaces, Spaces.census] at hcensus
  injection hcensus with hcensus
  injection hcensus with htable _
  obtain ⟨mid, he, -, hmid⟩ := hr.edits
  have hold : m.store.arena.Gated format spaces.kernelTable := h (census_of_some hspaces)
  rw [htable]
  exact (he.gated ⟨hs.ledger, (hs.spaces hspaces).shaped⟩ ready proper hold).alike hmid.alike

theorem gated_of_mappedUser {space : AddressSpace} {virt phys : Nat}
    (hu : MappedUser format space virt phys m m') (h : m.Gated format)
    (hs : m.Sound format stock) : m'.Gated format := by
  rcases hu with hq | ⟨table, kernel, tasks, root, hcensus, -, hne, hl, -, hr⟩
  · exact hq.gated h
  · obtain ⟨spaces, hspaces, heq⟩ := exists_of_census hcensus
    simp only [Spaces.census, Prod.mk.injEq] at heq
    rw [← heq.1] at hne
    exact hr.gated h hs hspaces (allReady_user hl) fun r hreq => hreq.proper hne

theorem gated_of_mappedKernel (hk : MappedKernel format config m m') (h : m.Gated format)
    (hs : m.Sound format stock) : m'.Gated format := by
  rcases hk.tables with hq | ⟨spaces, hspaces, hr⟩
  · exact hq.gated h
  · exact hr.gated h hs hspaces
      (allReady_kernel ⟨spaces.kernelTable, true⟩ (hs.spaces hspaces).shaped.kernel_top)
      fun r hreq => hreq.proper

/-- The kernel tree is built by the kernel's requests alone. -/
theorem gated_of_started (hst : Started format config stock m m') : m'.Gated format := by
  intro table kernel tasks hc
  obtain ⟨frame, root, first, mid, hfirst, hroot, hledger, he, -, hmid, hcensus⟩ := hst.tree
  rw [hc] at hcensus
  injection hcensus with hcensus
  injection hcensus with htable _
  have hshaped : first.arena.Shaped format root := by
    rw [hfirst, hroot]
    exact Arena.shaped_first frame false
  have hgated : first.arena.Gated format root := by
    rw [hfirst]
    exact Arena.gated_first frame false
  rw [htable]
  exact (he.gated ⟨hledger, hshaped⟩ (allReady_kernel ⟨root, false⟩ hshaped.kernel_top)
    (fun r hreq => hreq.proper) hgated).alike hmid.alike

theorem gated_of_created {space : AddressSpace} (hc : Created format stock space m m')
    (h : m.Gated format) (hs : m.Sound format stock) : m'.Gated format := by
  intro table kernel tasks hcensus
  obtain ⟨spaces, root, hspaces, hrooted, -, hcensus'⟩ := hc.rooted
  rw [hcensus] at hcensus'
  injection hcensus' with hcensus'
  injection hcensus' with htable _
  rw [htable]
  exact hrooted.gated (hs.spaces hspaces).shaped (h (census_of_some hspaces))

theorem gated_of_deleted {space : AddressSpace} (hd : Deleted format stock space m m')
    (h : m.Gated format) (hs : m.Sound format stock) : m'.Gated format := by
  intro table kernel tasks hcensus
  obtain ⟨spaces, root, hspaces, -, -, hl, -, hpruned, hcensus'⟩ := hd.pruned
  rw [hcensus] at hcensus'
  injection hcensus' with hcensus'
  injection hcensus' with htable _
  rw [htable]
  exact hpruned.gated (h (census_of_some hspaces)) fun hp hslot =>
    Arena.not_private_child (hs.spaces hspaces).shaped hl hp hslot

/-- Every action keeps tables for user code apart from the kernel's. -/
theorem Manager.Effect.gated (e : Effect format config cpu stock m action stock' m')
    (h : m.Gated format) (hs : m.Sound format stock) : m'.Gated format := by
  cases e with
  | refrained hr _ => exact gated_of_unchanged hr.calm.arena hr.calm.census h
  | covered hc => exact gated_of_unchanged hc.calm.arena hc.calm.census h
  | started hi => exact gated_of_started hi.started
  | mappedKernel hk => exact gated_of_mappedKernel hk h hs
  | created hc _ => exact gated_of_created hc h hs
  | deleted hd _ _ => exact gated_of_deleted hd h hs
  | mappedUser hu => exact gated_of_mappedUser hu.tables h hs
  | mapped hu _ => exact gated_of_mappedUser hu h hs
  | moved _ hq _ _ => exact hq.gated h

theorem Reachable.gated {Rule : Call → Prop} {poolPages : Nat} {s : System}
    (h : Reachable format config Rule poolPages s) : s.machine.Gated format := by
  induction h with
  | start => intro table kernel tasks hc; cases hc
  | step before hstep ih => exact (hstep.effect before.sound).gated ih before.sound.machine

/-! ## The end of memory -/

/-- Memory ends at the physical end of the format, or before. -/
def Call.EndsWithin (format : Format) : Call → Prop
  | .initFrames map => map.stop ≤ format.physicalEnd
  | _ => True

/-- How much memory there is changes when the allocator starts, and only then. -/
theorem Manager.Effect.total (e : Effect format config cpu stock m action stock' m') :
    stock'.total = stock.total
      ∨ ∃ map, action.call? = some (.initFrames map) ∧ stock'.total = map.stop / frameSize := by
  cases e with
  | refrained _ htotal => exact .inl htotal
  | covered hc => exact .inr ⟨_, rfl, hc.total⟩
  | _ => exact .inl rfl

theorem Reachable.total_le {poolPages : Nat} {s : System}
    (h : Reachable format config (Call.EndsWithin format) poolPages s) :
    s.stock.total * frameSize ≤ format.physicalEnd := by
  induction h with
  | start =>
    rw [show (System.powerOn poolPages).stock.total = 0 from rfl, Nat.zero_mul]
    exact Nat.zero_le _
  | step before hstep ih =>
    rcases (hstep.effect before.sound).total with hsame | ⟨map, hcall, htotal⟩
    · rw [hsame]
      exact ih
    · have hstop : map.stop ≤ format.physicalEnd := hstep.rule before hcall
      rw [htotal]
      exact Nat.le_trans (Nat.div_mul_le_self _ _) hstop

/-- So entries can name the frames of all tables. -/
theorem frame_lt_of_total (hs : m.Sound format stock)
    (htotal : stock.total * frameSize ≤ format.physicalEnd) {id frame : Nat}
    (hframe : m.store.arena.frame? id = some frame) :
    frame % frameSize = 0 ∧ frame < format.physicalEnd := by
  obtain ⟨hmod, -, hlt, -⟩ := hs.ledger.table hframe
  rw [hs.ledger.total] at hlt
  exact ⟨hmod, Nat.lt_of_lt_of_le ((Nat.div_lt_iff_lt_mul (by decide)).mp hlt) htotal⟩

/-! ## User mode -/

/-- What user code reaches through the tables in memory. -/
structure Machine.UserAccess (format : Format) (m : Machine) (spaces : Spaces) : Prop where
  /-- From the root of a task, what is mapped in its lower half. -/
  task : ∀ {space : AddressSpace}, space ∈ spaces.tasks → ∀ {v : Nat},
    format.virtualInRange v = true →
      (m.memory.passesUser format space.root v = true
        ↔ v < format.userEnd ∧ ∃ phys, m.translate format space v = .ok (some phys))
  /-- From the kernel root, nothing. -/
  kernel : ∀ v : Nat, m.memory.passesUser format spaces.kernel.root v = false

theorem userAccess_of_gated (hs : m.Sound format stock)
    (htotal : stock.total * frameSize ≤ format.physicalEnd) (h : m.Gated format)
    {spaces : Spaces} (hspaces : m.spaces = some spaces) : m.UserAccess format spaces := by
  have hsound := hs.spaces hspaces
  have hgated : m.store.arena.Gated format spaces.kernelTable := h (census_of_some hspaces)
  refine ⟨fun {space} hmem {v} hv => ?_, fun v => ?_⟩
  · obtain ⟨root, hroot, hl, hf⟩ := rootTable_of_alive hs ⟨spaces, hspaces, .inr hmem⟩
    -- the task's root is not the kernel's, as its frame is another
    have hne : root ≠ spaces.kernelTable := by
      intro heq
      rw [heq, hsound.kernel] at hf
      exact hsound.task_root_ne hs.ledger.books hmem (Option.some.inj hf).symm
    rw [Arena.all_isUser_iff (frame_lt_of_total hs htotal) hsound.shaped hs.settled hgated hl hf v,
      Format.index_top_lt_iff hv, translate_eq_view hs hroot]
    constructor
    · intro hboth
      obtain ⟨found, hfound⟩ := Option.isSome_iff_exists.mp hboth.2
      exact ⟨hboth.1.2, found.1, by rw [hfound]; rfl⟩
    · intro hboth
      obtain ⟨hlow, phys, hphys⟩ := hboth
      injection hphys with hphys
      refine ⟨⟨hne, hlow⟩, ?_⟩
      rw [← Option.isSome_map, hphys]
      rfl
  · rw [← Bool.not_eq_true, Arena.all_isUser_iff (frame_lt_of_total hs htotal) hsound.shaped
      hs.settled hgated hsound.shaped.kernel_top hsound.kernel v]
    exact fun hboth => hboth.1.1 rfl

/-- In every state that processors reach, whatever they were refused on the way, all entries that
user mode meets let it pass exactly where a task has memory mapped for it. -/
theorem user_access {poolPages : Nat} {s : System}
    (h : Reachable format config (Call.EndsWithin format) poolPages s) {spaces : Spaces}
    (hspaces : s.machine.spaces = some spaces) : s.machine.UserAccess format spaces :=
  userAccess_of_gated h.sound.machine h.total_le h.gated hspaces

/-- In particular, where kernel memory and the memory of a task are mapped: a walk in user mode finds
the one, and not the other. -/
theorem user_access_of_task : ∃ s spaces space,
    Reachable .narrow mirrored (Call.EndsWithin .narrow) 0 s
      ∧ s.machine.Populated spaces space ∧ s.machine.UserAccess .narrow spaces
      ∧ (∃ walked, s.machine.memory.walk .narrow space.root 0x400004 = some walked
        ∧ walked.phys = 0x800004 ∧ walked.user = true)
      ∧ ∃ walked, s.machine.memory.walk .narrow space.root 0x80002004 = some walked
        ∧ walked.phys = 0x2004 ∧ walked.user = false := by
  obtain ⟨s, spaces, space, hs, hmapped⟩ := exists_populated_nameable
  have hwithin : Reachable .narrow mirrored (Call.EndsWithin .narrow) 0 s :=
    hs.mono fun call hcall => by
      cases call with
      | initFrames map => exact hcall.1
      | _ => trivial
  have haccess := user_access hwithin hmapped.known
  -- where an address is translated, the walk in memory ends
  have hwalk : ∀ {v a : Nat}, s.machine.translate .narrow space v = .ok (some a) →
      ∃ walked, s.machine.memory.walk .narrow space.root v = some walked ∧ walked.phys = a
        ∧ walked.user = s.machine.memory.passesUser .narrow space.root v := by
    intro v a hv
    have hcommitted := committedTo_of_sound hs.sound.machine (hs.confined aligned_mirrored)
      ⟨spaces, hmapped.known, .inr hmapped.task⟩ v
    rw [hcommitted.translation] at hv
    injection hv with hv
    obtain ⟨walked, hfound, hphys⟩ := Option.map_eq_some_iff.mp hv
    exact ⟨walked, hfound, hphys, Memory.user_walk hfound⟩
  refine ⟨s, spaces, space, hwithin, hmapped, haccess, ?_, ?_⟩
  · obtain ⟨walked, hfound, hphys, huser⟩ := hwalk hmapped.first
    refine ⟨walked, hfound, hphys, huser.trans ?_⟩
    exact (haccess.task hmapped.task (by decide)).mpr ⟨by decide, _, hmapped.first⟩
  · obtain ⟨walked, hfound, hphys, huser⟩ := hwalk hmapped.shared
    refine ⟨walked, hfound, hphys, huser.trans (Bool.eq_false_iff.mpr fun hpasses => ?_)⟩
    exact absurd ((haccess.task hmapped.task (by decide)).mp hpasses).1 (by decide)

end

end KernelMemory
