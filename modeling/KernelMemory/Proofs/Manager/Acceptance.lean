/-
  KernelMemory.Proofs.Manager.Acceptance — requests that the manager accepts.

  A request is refused for a reason, and where there is none, it is done: a space is made where a frame
  is free, a processor outside the kernel space goes to any space there is, and a task that has nothing
  mapped in its half is given what it asks for as long as there are frames for the tables.  The bytes
  of the range are then where the request has them, at the page offset of their virtual addresses.

  Main results:
    * `translated_of_mapUser` — where the bytes of an accepted range are;
    * `exists_createSpace`, `exists_switchTo`, `exists_mapUser` — requests that are done.
-/

import KernelMemory.Proofs.Manager.SameView

namespace KernelMemory

open Machine Manager Steps

variable {format : Format} {config : Config} {stock : Stock} {m m' : Machine} {cpu : CpuId}
  {space : AddressSpace} {virt phys size : Nat}

/-! ## Where bytes come to lie -/

/-- Where the bytes from a physical address on come to lie, if they are to have the page offset of
a virtual address. -/
def shifted (virt phys : Nat) : Nat := floorTo frameSize phys + virt % frameSize

theorem shifted_eq_iff : shifted virt phys = phys ↔ virt % frameSize = phys % frameSize := by
  unfold shifted floorTo
  have hsplit := Nat.div_add_mod' phys frameSize
  omega

/-- The pages of the request have each byte at the page offset of its virtual address. -/
theorem UserRequest.covers {root : TableId} {request : MapRequest}
    (hr : UserRequest format root virt phys request)
    (bounded : pageBounds request.virt request.phys request.size ≠ none) {i : Nat}
    (hi : i < request.size) (hnull : frameSize ≤ virt + i) :
    request.Covers (virt + i) (shifted virt phys + i) := by
  obtain ⟨⟨start, base, length⟩, hb⟩ := Option.ne_none_iff_exists'.mp bounded
  refine (MapRequest.covers_iff hb).mpr ⟨hnull, ?_⟩
  have hspec := pageBounds_spec hb
  rw [hr.start, hr.frame] at hspec
  unfold Part shifted floorTo
  simp only [frameSize] at *
  omega

/-- Each byte of a range that was mapped is where the request has it. -/
theorem Manager.MappedTask.translated {spaces : Spaces} {root : TableId} {s : TableStore}
    (h : MappedTask format config space virt phys size spaces root m m')
    (hm : m.Sound format stock)
    (hrange : RangeMapped format (userRequest config root virt phys size) m.store s)
    (hflushed : Flushed s m') {i : Nat} (hi : i < size) (hnull : frameSize ≤ virt + i) :
    m'.translate format space (virt + i) = .ok (some (shifted virt phys + i)) := by
  have hm' : m'.Sound format stock := h.mappedUser.sound hm
  have ready : AllReady format spaces.kernelTable
      (fun r => r = userRequest config root virt phys size) m.store :=
    allReady_of_ready ⟨h.request.fits, h.level⟩
  have horderly : m.store.Orderly format spaces.kernelTable stock :=
    ⟨hm.ledger, (hm.spaces h.known).shaped⟩
  have halike := hflushed.unmarked.alike
  -- the root of the space is the root of the request
  have hframe : m'.store.arena.frame? root = some space.root := by
    rw [halike.frame]
    exact (hrange.overlaid.edits.grows horderly ready).frame h.frame
  have halive : m'.Alive space :=
    (alive_of_census h.remapped.census).mpr ⟨spaces, h.known, .inr h.task⟩
  have hview := hrange.overlaid.inside (h.request.covers hrange.bounded hi hnull)
  rw [translate_eq_view hm' (rootTable_of_frame hm' halive hframe)]
  rw [Arena.view, Arena.lookup_alike halike]
  exact congrArg (fun found => Except.ok (Option.map Prod.fst found)) hview

theorem translated_of_mapTask (hm : m.Sound format stock)
    (e : mapTask format config cpu space virt phys size m = .ok () m') {i : Nat} (hi : i < size)
    (hnull : frameSize ≤ virt + i) :
    m'.translate format space (virt + i) = .ok (some (shifted virt phys + i)) := by
  rcases (ends_mapTask_mapped hm).of_ok e with ⟨rfl, -⟩ | ⟨spaces, root, hdone, s, hrange, hflushed⟩
  · exact absurd hi (Nat.not_lt_zero i)
  · exact hdone.translated hm hrange hflushed hi hnull

/-- A call that is done is the section that maps, in the kernel space, and the way there and back. -/
theorem exists_sections_of_mapUser (hm : m.Sound format stock) (hplaced : m.Placed)
    (e : mapUser format config cpu space virt phys size m = .ok () m') :
    ∃ m₁ m₂, Quiet m m₁ ∧ mapTask format config cpu space virt phys size m₁ = .ok () m₂
      ∧ Quiet m₂ m' ∧ m₁.Sound format stock ∧ m₂.Sound format stock ∧ savedRoot m' cpu = none := by
  obtain ⟨-, m₁, m₂, henter, hmap, hfinish⟩ := mapUser_eq_ok_iff.mp e
  obtain ⟨hq₁, spaces, hspaces, hthere⟩ := ends_enterKernel.of_ok henter
  have hm₁ : m₁.Sound format stock := hq₁.sound hm
  obtain ⟨htables, hsame⟩ := (ends_mapTask hm₁).of_ok hmap
  obtain ⟨hplaced₂, hsaved₂⟩ := back_of_mapped hplaced hq₁ hspaces hthere htables hsame
  obtain ⟨hq₂, hback⟩ := (ends_finishUser_result hplaced₂ hsaved₂).of_ok hfinish
  exact ⟨m₁, m₂, hq₁, hmap, hq₂, hm₁, htables.sound hm₁, savedRoot_of_moved hback.toMoved⟩

/-- On the way no byte is moved. -/
theorem translated_of_mapUser (hm : m.Sound format stock) (hplaced : m.Placed)
    (e : mapUser format config cpu space virt phys size m = .ok () m') {i : Nat} (hi : i < size)
    (hnull : frameSize ≤ virt + i) :
    m'.translate format space (virt + i) = .ok (some (shifted virt phys + i)) := by
  obtain ⟨m₁, m₂, -, hmap, hq, hm₁, hm₂, -⟩ := exists_sections_of_mapUser hm hplaced e
  have hback : SameAt format m₂ m' space (virt + i) := (hq.calm hm₂).sameAt
  rw [hback.translate]
  exact translated_of_mapTask hm₁ hmap hi hnull

/-! ## Spaces -/

/-- A space takes one frame, that of its root. -/
theorem free_of_created (hc : Created format stock space m m') (hm : m.Sound format stock) :
    ∃ f, space.root = f * frameSize ∧ f ∈ m.store.frames.freeSet
      ∧ m'.store.frames.freeSet = m.store.frames.freeSet \ {f} := by
  obtain ⟨spaces, root, -, hrooted, hframe, -⟩ := hc.rooted
  obtain ⟨hmod, -, -⟩ := hc.ledger.table hframe
  obtain ⟨f, hroot⟩ : ∃ f, space.root = f * frameSize :=
    ⟨_, (Nat.div_mul_cancel (Nat.dvd_of_mod_eq_zero hmod)).symm⟩
  rw [hroot] at hframe
  obtain ⟨hnew, htables⟩ := hrooted.tableFrames hc.ledger.books hframe
  obtain ⟨hlt, -, hheld⟩ := hc.ledger.tableFrame ⟨root, hframe⟩
  rw [hc.ledger.total] at hlt
  refine ⟨f, hroot, hm.ledger.mem_freeSet_iff.mpr ⟨hlt, hheld, hnew⟩, Set.ext fun g => ?_⟩
  rw [Set.mem_sdiff, hc.ledger.mem_freeSet_iff, hm.ledger.mem_freeSet_iff, htables,
    Set.mem_insert_iff, Set.mem_singleton_iff, not_or]
  constructor
  · rintro ⟨hword, hkept, hne, hother⟩
    exact ⟨⟨hword, hkept, hother⟩, hne⟩
  · rintro ⟨⟨hword, hkept, hother⟩, hne⟩
    exact ⟨hword, hkept, hne, hother⟩

theorem available_of_created (hc : Created format stock space m m') (hm : m.Sound format stock) :
    m.store.frames.available .normal = m'.store.frames.available .normal + 1 := by
  obtain ⟨f, -, hfree, hset⟩ := free_of_created hc hm
  rw [FrameAllocator.available_normal hm.ledger.allocator,
    FrameAllocator.available_normal hc.ledger.allocator, hset,
    Set.ncard_sdiff_singleton_add_one hfree (FrameAllocator.finite_freeSet _)]

/-- With a free frame a space is made. -/
theorem exists_createSpace (h : m.Sound format stock) (hstarted : m.spaces ≠ none) {f : Nat}
    (hfree : f ∈ m.store.frames.freeSet) : ∃ space m', createSpace format cpu m = .ok space m' := by
  obtain ⟨frame, frames, hframe⟩ := FrameAllocator.exists_allocatePage h.ledger.allocator hfree
  have hends : Ends (createSpace format cpu) m (fun _ _ => True) (fun _ _ => False) := by
    refine (ends_createSpace h).mono (fun _ _ _ => trivial) fun failure m' hf => ?_
    cases failure with
    | fault fault => exact hf
    | refused error =>
      rcases hf.2 with hnone | ⟨error, herror⟩
      · exact hstarted hnone
      · rw [hframe] at herror
        cases herror
  obtain ⟨space, m', e, -⟩ := exists_of_ends hends
  exact ⟨space, m', e⟩

/-- A task space that no processor uses is destroyed. -/
theorem exists_deleteSpace (h : m.Sound format stock) (hplaced : m.Placed) (htask : m.HasTask space)
    (hunused : ¬ m.Uses space.root) : ∃ m', deleteSpace format cpu space m = .ok () m' := by
  have hends : Ends (deleteSpace format cpu space) m (fun _ _ => True) (fun _ _ => False) := by
    refine (ends_deleteSpace h hplaced).mono (fun _ _ _ => trivial) fun failure m' hf => ?_
    cases failure with
    | fault fault => exact hf
    | refused error => exact hunused (hf.2 htask)
  obtain ⟨_, m', e, -⟩ := exists_of_ends hends
  exact ⟨m', e⟩

/-- Switching to a space that exists, outside the kernel space. -/
theorem exists_switchTo (hm : m.Sound format stock) (halive : m.Alive space)
    (hout : savedRoot m cpu = none) :
    ∃ m', switchTo cpu space m = .ok () m' ∧ Quiet m m' ∧ (m'.cpu cpu).root = space.root
      ∧ savedRoot m' cpu = none := by
  obtain ⟨root, hroot, -⟩ := rootTable_of_alive hm halive
  obtain ⟨⟨spaces, hspaces, -⟩, -⟩ := rootTable_eq_some hm hroot
  have hget : (get : MachineSteps Machine) m = .ok m m := rfl
  have hnot : ¬ spaces.inKernel cpu = true := by
    rw [savedRoot, roots?_of_some hspaces] at hout
    rw [Spaces.inKernel, Spaces.savedRoot, hout]
    exact Bool.false_ne_true
  have htable : spaces.anyTable m.store.arena space = some root := by
    rw [Machine.rootTable, hspaces] at hroot
    exact hroot
  have hsteps : ∀ m', switchTo cpu space m = .ok () m' → Quiet m m' := fun m' e =>
    ((ends_switchTo hm).of_ok e).1
  have hswitch : switchTo cpu space m = (do
      if (← activeRoot cpu) ≠ space.root then
        load cpu spaces space.root : MachineSteps Unit) m := by
    rw [switchTo_eq, Locked.switchTo, bind_of_ok (started_of_some hspaces), if_neg hnot, bind_of_ok hget, htable]
  have hactive : activeRoot cpu m = .ok (m.cpu cpu).root m := rfl
  rw [bind_of_ok hactive] at hswitch
  by_cases heq : (m.cpu cpu).root = space.root
  · rw [if_neg (not_not.mpr heq)] at hswitch
    exact ⟨m, hswitch, .refl m, heq, hout⟩
  · rw [if_pos heq] at hswitch
    refine ⟨_, hswitch, hsteps _ hswitch, (switched_load hspaces heq).root, ?_⟩
    rw [savedRoot_of_moved (switched_load hspaces heq).toMoved]
    rw [savedRoot, roots?_of_some hspaces] at hout
    exact hout

/-! ## User memory -/

/-- A range that is no larger than the halves it lies in passes all checks. -/
theorem mapTask_fitting {spaces : Spaces} {root : TableId} (hspaces : m.spaces = some spaces)
    (hroot : spaces.taskTable m.store.arena space = .ok root) (hpos : 0 < size)
    (hvirt : virt + (size - 1) < format.userEnd) (hphys : phys + (size - 1) < format.physicalEnd) :
    mapTask format config cpu space virt phys size m
      = mapAndCommit format (userRequest config root virt phys size) m := by
  have hget : (get : MachineSteps Machine) m = .ok m m := rfl
  have hlift : (ofResult (spaces.taskTable m.store.arena space) : MachineSteps TableId) m
      = .ok root m := by
    rw [hroot]
    rfl
  have hlast : Word.add? virt (size - 1) = some (virt + (size - 1)) :=
    Word.add?_eq_some_iff.mpr ⟨Format.lt_bound_of_inRange (Format.inRange_of_lt_userEnd hvirt), rfl⟩
  have hlastPhys : Word.add? phys (size - 1) = some (phys + (size - 1)) := by
    refine Word.add?_eq_some_iff.mpr ⟨?_, rfl⟩
    exact Nat.lt_trans hphys (Nat.lt_of_le_of_lt format.physicalEnd_le (by decide))
  have hin : format.physicalInRange (phys + (size - 1)) = true := decide_eq_true hphys
  rw [mapTask_eq, Locked.mapTask, bind_of_ok (started_of_some hspaces), bind_of_ok hget,
    bind_of_ok hlift, if_neg (Nat.ne_of_gt hpos), hlast]
  simp only
  rw [if_neg (Nat.not_le.mpr hvirt), hlastPhys]
  simp only
  rw [if_pos hin]
  rfl

/-- As many tables as mapping a range may need, in any space. -/
def tablesWanted (format : Format) (config : Config) (virt phys size : Nat) : Nat :=
  (userRequest config 0 virt phys size).tables format

theorem tables_userRequest (root : TableId) :
    (userRequest config root virt phys size).tables format
      = tablesWanted format config virt phys size := rfl

/-- A task that has nothing mapped in its half gets what it asks for, if there are frames for the
tables. -/
theorem exists_mapTask (hm : m.Sound format stock) (htask : m.HasTask space) (hpos : 0 < size)
    (hvirt : virt + (size - 1) < format.userEnd) (hphys : phys + (size - 1) < format.physicalEnd)
    (vacant : ∀ v, v < format.userEnd → m.translate format space v = .ok none)
    (enough : tablesWanted format config virt phys size ≤ m.store.frames.available .normal) :
    ∃ m', mapTask format config cpu space virt phys size m = .ok () m' := by
  obtain ⟨spaces, hspaces, hmem⟩ := htask
  have hsound := hm.spaces hspaces
  obtain ⟨root, hroot⟩ := hsound.taskTable_of_task hm.ledger.books hmem
  obtain ⟨-, -, hl, hf⟩ := hsound.taskTable_eq_ok hm.ledger.books hroot
  rw [mapTask_fitting hspaces hroot hpos hvirt hphys]
  have hrequest : UserRequest format root virt phys (userRequest config root virt phys size) :=
    ⟨rfl, rfl, rfl, hpos, hvirt, hphys, rfl, rfl⟩
  have ready : (userRequest config root virt phys size).Ready format spaces.kernelTable m.store :=
    ⟨hrequest.fits, hl⟩
  have hends : Ends (mapAndCommit format (userRequest config root virt phys size)) m
      (fun _ _ => True) (fun _ _ => False) := by
    refine (ends_mapAndCommit hm hspaces ready).mono (fun _ _ _ => trivial) fun f m' hrefused => ?_
    cases f with
    | fault fault => exact hrefused
    | refused error =>
      have hshort := hrefused.1.exhausted hrequest.bounded (fun hsealed => nomatch hsealed)
        fun w q hcovers mapping l hfound => ?_
      · rw [tables_userRequest] at hshort
        exact absurd enough (Nat.not_le.mpr hshort.1)
      · -- nothing was mapped in the half that the range is in
        exfalso
        have hlow : w < format.userEnd := by
          obtain ⟨-, v, p, length, hb, -, hlt, -⟩ := hcovers
          have hcover := userRange_cover hpos hvirt hphys hb
          omega
        have halive : m.Alive space := ⟨spaces, hspaces, .inr hmem⟩
        have hview : m.store.arena.view format root w = _ := Arena.view_of_lookup hfound
        have hnone := vacant w hlow
        rw [translate_eq_view hm (rootTable_of_frame hm halive hf), hview] at hnone
        cases hnone
  obtain ⟨_, m', e, -⟩ := exists_of_ends hends
  exact ⟨m', e⟩

/-- Coming back from a mapping that was accepted. -/
theorem exists_finishUser (hplaced : m.Placed) {saved : PhysAddr}
    (hsaved : savedRoot m cpu = some saved) (hfits : ¬ Overruns virt size) :
    ∃ m', finishUser cpu virt size (.ok ()) m = .ok () m' := by
  have hends : Ends (finishUser cpu virt size (.ok ())) m (fun _ _ => True) (fun _ _ => False) := by
    unfold finishUser
    rw [ends_bind]
    refine (ends_leaveKernel_of_saved hplaced hsaved).mono (fun _ m₁ _ => ?_) fun _ _ hf => hf
    rw [ends_bind]
    refine (ends_invalidate_fitting hfits).mono (fun _ m₂ _ => ?_) fun _ _ hf => hf
    trivial
  obtain ⟨_, m', e, -⟩ := exists_of_ends hends
  exact ⟨m', e⟩

/-- So does the whole call, on the processor that the task runs on. -/
theorem exists_mapUser (hm : m.Sound format stock) (hplaced : m.Placed) (htask : m.HasTask space)
    (hactive : (m.cpu cpu).root = space.root) (hout : savedRoot m cpu = none) (hpos : 0 < size)
    (hvirt : virt + (size - 1) < format.userEnd) (hphys : phys + (size - 1) < format.physicalEnd)
    (vacant : ∀ v, v < format.userEnd → m.translate format space v = .ok none)
    (enough : tablesWanted format config virt phys size ≤ m.store.frames.available .normal) :
    ∃ m', mapUser format config cpu space virt phys size m = .ok () m' := by
  obtain ⟨spaces, hspaces, -⟩ := id htask
  obtain ⟨m₁, henter⟩ := exists_enterKernel hspaces hout
  obtain ⟨hq₁, spaces', hspaces', hthere⟩ := ends_enterKernel.of_ok henter
  have hm₁ : m₁.Sound format stock := hq₁.sound hm
  have hvacant₁ : ∀ v, v < format.userEnd → m₁.translate format space v = .ok none := by
    intro v hv
    have hsame : SameAt format m m₁ space v := (hq₁.calm hm).sameAt
    rw [hsame.translate, vacant v hv]
  obtain ⟨m₂, hmap⟩ : ∃ m₂, mapTask format config cpu space virt phys size m₁ = .ok () m₂ :=
    exists_mapTask hm₁ ((hasTask_congr hq₁.census).mpr htask) hpos hvirt hphys hvacant₁
      (by rw [hq₁.store.frames]; exact enough)
  obtain ⟨htables, hsame⟩ := (ends_mapTask hm₁).of_ok hmap
  obtain ⟨hplaced₂, hsaved₂⟩ := back_of_mapped hplaced hq₁ hspaces' hthere htables hsame
  obtain ⟨m', hfinish⟩ : ∃ m', finishUser cpu virt size (.ok ()) m₂ = .ok () m' :=
    exists_finishUser hplaced₂ hsaved₂ (not_overruns_of_lt_userEnd hvirt (Nat.ne_of_gt hpos))
  exact ⟨m', mapUser_eq_ok_iff.mpr ⟨hactive.symm, m₁, m₂, henter, hmap, hfinish⟩⟩

/-! ## A task to run on -/

/-- A task was made, and a processor went to it. -/
structure OnTask (format : Format) (cpu : CpuId) (space : AddressSpace) (m m' : Machine) : Prop where
  fresh : ¬ m.Alive space
  census : ∃ spaces, m.spaces = some spaces
    ∧ m'.census = some (spaces.kernelTable, spaces.kernel, spaces.tasks.insert space)
  active : (m'.cpu cpu).root = space.root
  outside : savedRoot m' cpu = none
  /-- Nothing is mapped in its half. -/
  vacant : ∀ v, v < format.userEnd → m'.translate format space v = .ok none
  others : ∀ {other : AddressSpace} (v : Nat), m.Alive other → SameAt format m m' other v
  spent : m.store.frames.available .normal = m'.store.frames.available .normal + 1

theorem OnTask.hasTask (h : OnTask format cpu space m m') : m'.HasTask space := by
  obtain ⟨spaces, -, hcensus⟩ := h.census
  exact (hasTask_of_census hcensus).mpr List.mem_insert_self

/-- A processor outside the kernel space can make a task and go there. -/
theorem exists_onTask (hm : m.Sound format stock) (hstarted : m.spaces ≠ none)
    (houtside : savedRoot m cpu = none) (hfree : 0 < m.store.frames.available .normal) :
    ∃ space m₁ m₂, createSpace format cpu m = .ok space m₁ ∧ switchTo cpu space m₁ = .ok () m₂
      ∧ OnTask format cpu space m m₂ := by
  obtain ⟨f, hf⟩ := FrameAllocator.exists_isFree hm.ledger.allocator hfree
  obtain ⟨space, m₁, e₁⟩ : ∃ space m', createSpace format cpu m = .ok space m' :=
    exists_createSpace hm hstarted hf
  obtain ⟨hcreated, hsame⟩ := (ends_createSpace hm).of_ok e₁
  have hm₁ : m₁.Sound format stock := hcreated.sound hm
  obtain ⟨spaces₁, hspaces₁, hmem₁⟩ := hcreated.hasTask
  obtain ⟨m₂, e₂, hq, hroot, hout⟩ : ∃ m₂, switchTo cpu space m₁ = .ok () m₂ ∧ _ ∧ _ ∧ _ :=
    exists_switchTo hm₁ ⟨spaces₁, hspaces₁, .inr hmem₁⟩
      (by rw [savedRoot, hsame.noted]; exact houtside)
  obtain ⟨spaces, root, hspaces, -, -, hcensus⟩ := hcreated.rooted
  refine ⟨space, m₁, m₂, e₁, e₂, hcreated.not_alive hm,
    ⟨spaces, hspaces, hq.census.trans hcensus⟩, hroot, hout, fun v hv => ?_, fun v halive => ?_, ?_⟩
  · have hquiet : SameAt format m₁ m₂ space v := (hq.calm hm₁).sameAt
    rw [hquiet.translate]
    exact translate_of_created hcreated hm hv
  · exact (sameAt_of_created hcreated hm halive).trans (hq.calm hm₁).sameAt
  · rw [hq.store.frames]
    exact available_of_created hcreated hm

/-- There the task is given the range that it asks for. -/
theorem OnTask.exists_mapUser {before : Machine} (hon : OnTask format cpu space before m)
    (hm : m.Sound format stock) (hplaced : m.Placed) (hpos : 0 < size)
    (hvirt : virt + (size - 1) < format.userEnd) (hphys : phys + (size - 1) < format.physicalEnd)
    (enough : tablesWanted format config virt phys size ≤ m.store.frames.available .normal) :
    ∃ m', mapUser format config cpu space virt phys size m = .ok () m' ∧ m'.HasTask space
      ∧ savedRoot m' cpu = none ∧ ∀ {i : Nat}, i < size → frameSize ≤ virt + i →
        m'.translate format space (virt + i) = .ok (some (shifted virt phys + i)) := by
  obtain ⟨m', e⟩ : ∃ m', mapUser format config cpu space virt phys size m = .ok () m' :=
    KernelMemory.exists_mapUser hm hplaced hon.hasTask hon.active hon.outside hpos hvirt hphys
      hon.vacant enough
  have hmapped := ((ends_mapUser hm hplaced).of_ok e).tables
  obtain ⟨-, -, -, -, -, -, -, houtside⟩ := exists_sections_of_mapUser hm hplaced e
  exact ⟨m', e, (hasTask_congr hmapped.census).mpr hon.hasTask, houtside,
    translated_of_mapUser hm hplaced e⟩

section

variable {Rule : Call → Prop} {poolPages : Nat} {calls : List (CpuId × Call)}

/-- A run goes on so. -/
theorem Answered.onTask (h : Answered format config Rule poolPages calls m stock)
    (hstarted : m.spaces ≠ none) (houtside : savedRoot m cpu = none)
    (hfree : 0 < m.store.frames.available .normal) (ruleSpace : Rule .createSpace)
    (ruleSwitch : ∀ space, Rule (.switchTo space)) :
    ∃ m' stock' space, Answered format config Rule poolPages
        (calls ++ [(cpu, .createSpace), (cpu, .switchTo space)]) m' stock'
      ∧ OnTask format cpu space m m' := by
  obtain ⟨space, m₁, m₂, e₁, e₂, hon⟩ :=
    exists_onTask h.reachable.sound.machine hstarted houtside hfree
  have hpermitted : Call.createSpace.Permitted stock.held := trivial
  have h₁ : Answered format config Rule poolPages _ m₁ _ :=
    h.next hpermitted ruleSpace (perform_of_createSpace e₁)
  have hpermitted' : (Call.switchTo space).Permitted
      (Call.stockAfter stock m₁ .createSpace (.ok (.space space))).held := trivial
  have h₂ : Answered format config Rule poolPages _ m₂ _ :=
    h₁.next hpermitted' (ruleSwitch space) (perform_of_switchTo e₂)
  rw [List.append_assoc] at h₂
  exact ⟨m₂, _, space, h₂, hon⟩

/-- A run goes on to map the range. -/
theorem Answered.mapUser {before : Machine}
    (h : Answered format config Rule poolPages calls m stock) (hon : OnTask format cpu space before m)
    (hpos : 0 < size) (hvirt : virt + (size - 1) < format.userEnd)
    (hphys : phys + (size - 1) < format.physicalEnd)
    (enough : tablesWanted format config virt phys size ≤ m.store.frames.available .normal)
    (rule : Rule (.mapUser space virt phys size)) :
    ∃ m' stock', Answered format config Rule poolPages
        (calls ++ [(cpu, .mapUser space virt phys size)]) m' stock'
      ∧ mapUser format config cpu space virt phys size m = .ok () m' := by
  have hs := h.reachable.sound
  obtain ⟨m', e, -⟩ := hon.exists_mapUser hs.machine hs.placed hpos hvirt hphys enough
  have hpermitted : (Call.mapUser space virt phys size).Permitted stock.held := trivial
  exact ⟨m', _, h.next hpermitted rule (perform_of_mapUser e), e⟩

end

end KernelMemory
