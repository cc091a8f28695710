/-
  KernelMemory.Proofs.Manager.StaleHandles — handles on spaces that were destroyed.

  A handle is the address of a root and nothing else, and frames are given out again, the lowest
  first.  So a handle that outlived its space names a later space, once one is made on the same
  frame.  Until then it is dead: whatever is asked of it is refused and changes nothing, and it
  finds nothing.  That takes no account of frames: callers may have given back any of them.

  Main results:
    * `deleted_stays_dead` — a destroyed space's handle, along any calls that do not make it anew;
    * `createSpace_again` — a space that is made where one was just destroyed has its handle;
    * `handle_revived` — so the handle of a destroyed space destroys another.
-/

import KernelMemory.Proofs.Manager.Accounts
import KernelMemory.Proofs.Manager.Listing
import KernelMemory.Proofs.Manager.Populated

namespace KernelMemory

open Machine Manager Steps

/-- A handle that names no space. -/
structure Machine.Dead (format : Format) (config : Config) (space : AddressSpace) (m : Machine) :
    Prop where
  deleted : ∀ cpu : CpuId,
    deleteSpace format cpu space m = .error (.refused .unknownAddressSpace) m
  /-- A processor in the kernel space is turned away before the handle is looked at. -/
  switched : ∀ cpu : CpuId, switchTo cpu space m = .error (.refused
    (if (savedRoot m cpu).isSome then .nestedKernelEntry else .unknownAddressSpace)) m
  /-- A processor that was brought to a root, or any if the handle is not the root after power-on. -/
  mapped : ∀ {cpu : CpuId} (virt phys size : Nat),
    (m.cpu cpu).root ≠ Cpu.powerOn.root ∨ space.root ≠ Cpu.powerOn.root →
      mapUser format config cpu space virt phys size m = .error (.refused .notActive) m
  /-- Nothing is mapped on any processor. -/
  unmapped : ∀ {cpu : CpuId} {virt phys size : Nat} {m' : Machine},
    mapUser format config cpu space virt phys size m ≠ .ok () m'
  /-- Nor in a section that goes on after the space was destroyed. -/
  inside : ∀ (cpu : CpuId) (virt phys size : Nat),
    mapTask format config cpu space virt phys size m = .error (.refused .unknownAddressSpace) m
  translated : ∀ v : VirtAddr, m.translate format space v = .ok none
  entered : ∀ v : VirtAddr, m.getEntry format space v = .ok none

/-- Machines that calls, and sections of calls, lead to, of which none makes the space. -/
inductive Later (format : Format) (config : Config) (space : AddressSpace) (m : Machine) :
    Machine → Prop where
  | refl : Later format config space m m
  | turn {call : Call} {u u' : Machine} (before : Later format config space m u)
      (turn : Turn format config call u u')
      (other : ∀ cpu : CpuId, createSpace format cpu u ≠ .ok space u') :
      Later format config space m u'

section

variable {format : Format} {config : Config} {poolPages : Nat} {cpu : CpuId}
  {space : AddressSpace} {m m' t : Machine}

/-! ## Handles that name no space -/

theorem Machine.Lost.not_listed (h : m.Lost space) {spaces : Spaces}
    (hspaces : m.spaces = some spaces) : space ≠ spaces.kernel ∧ space ∉ spaces.tasks := by
  have hgone := h.gone
  rw [alive_of_some hspaces, not_or] at hgone
  exact hgone

theorem Machine.Lost.exists_spaces (h : m.Lost space) : ∃ spaces, m.spaces = some spaces :=
  Option.ne_none_iff_exists'.mp h.started

theorem Machine.Lost.taskTable (h : m.Lost space) {spaces : Spaces}
    (hspaces : m.spaces = some spaces) (arena : Arena) :
    spaces.taskTable arena space = .error .unknownAddressSpace := by
  obtain ⟨hkernel, htask⟩ := h.not_listed hspaces
  rw [Spaces.taskTable, if_neg hkernel, if_neg htask]

theorem Machine.Lost.mapTask (h : m.Lost space) (cpu : CpuId) (virt phys size : Nat) :
    mapTask format config cpu space virt phys size m = .error (.refused .unknownAddressSpace) m := by
  obtain ⟨spaces, hspaces⟩ := h.exists_spaces
  have hget : (get : MachineSteps Machine) m = .ok m m := rfl
  rw [mapTask_eq, Locked.mapTask, bind_of_ok (started_of_some hspaces), bind_of_ok hget,
    h.taskTable hspaces]
  rfl

/-- A processor is on a root that exists, or on the one after power-on. -/
theorem Machine.Lost.not_active (h : m.Lost space) (hm : m.Rostered)
    (hroot : (m.cpu cpu).root ≠ Cpu.powerOn.root ∨ space.root ≠ Cpu.powerOn.root) :
    space.root ≠ (m.cpu cpu).root := by
  intro heq
  have hne : (m.cpu cpu).root ≠ Cpu.powerOn.root := by
    rw [heq, or_self] at hroot
    exact hroot
  rcases hm.placed.legit cpu with hnull | halive
  · exact hne hnull
  · rw [← heq] at halive
    exact h.gone halive

/-- A processor that is on the root of no space can be let in, and finds no space to map in. -/
theorem Machine.Lost.unmapped (h : m.Lost space) (hm : m.Rostered) {virt phys size : Nat} :
    Ends (mapUser format config cpu space virt phys size) m (fun _ _ => False)
      (fun _ _ => True) := by
  rw [mapUser, Steps.ends_bind, ends_activeRoot]
  split
  · trivial
  · rw [Steps.ends_bind]
    refine (ends_enterKernel_relisted hm.placed).mono (fun _ m₁ h₁ => ?_) fun _ _ _ => trivial
    have hlost : m₁.Lost space := h₁.lost hm h
    show Ends (do
      let result ← attempt (Manager.mapTask format config cpu space virt phys size)
      finishUser cpu virt size result) m₁ _ _
    rw [Steps.ends_bind, ends_attempt, Ends, hlost.mapTask]
    exact ends_finishUser_refused

theorem Machine.Lost.dead (h : m.Lost space) (hm : m.Rostered) : m.Dead format config space where
  deleted := fun cpu => by
    obtain ⟨spaces, hspaces⟩ := h.exists_spaces
    have hget : (get : MachineSteps Machine) m = .ok m m := rfl
    rw [deleteSpace_eq, Locked.deleteSpace, bind_of_ok (started_of_some hspaces), bind_of_ok hget,
      h.taskTable hspaces]
    rfl
  switched := fun cpu => by
    obtain ⟨spaces, hspaces⟩ := h.exists_spaces
    obtain ⟨hkernel, htask⟩ := h.not_listed hspaces
    have hget : (get : MachineSteps Machine) m = .ok m m := rfl
    have hnone : spaces.anyTable m.store.arena space = none :=
      if_neg fun hlisted => hlisted.elim hkernel htask
    rw [switchTo_eq, Locked.switchTo, bind_of_ok (started_of_some hspaces), savedRoot,
      roots?_of_some hspaces]
    show (if (spaces.savedRoot cpu).isSome then _ else _ : MachineSteps Unit) m = _
    rw [Spaces.savedRoot]
    split
    · rfl
    · rw [bind_of_ok hget, hnone]
      rfl
  mapped := fun {cpu} virt phys size hroot => by
    have hactive : activeRoot cpu m = .ok (m.cpu cpu).root m := rfl
    rw [mapUser, bind_of_ok hactive, if_pos (h.not_active hm hroot)]
    rfl
  unmapped := fun e => (h.unmapped hm).of_ok e
  inside := h.mapTask
  translated := fun v => by rw [Machine.translate, rootTable_of_not_alive h.gone]
  entered := fun v => by rw [Machine.getEntry, rootTable_of_not_alive h.gone]

/-! ## What becomes of a handle -/

/-- A space that was destroyed does not exist. -/
theorem lost_of_deleteSpace (hm : m.Rostered) (e : deleteSpace format cpu space m = .ok () m') :
    m'.Lost space := by
  have hunlisted : Unlisted space m m' := ends_deleteSpace_unlisted.of_ok e
  obtain ⟨spaces, hspaces, -, -, -, hcensus⟩ := hunlisted.census
  refine ⟨fun hnone => ?_, fun halive => ((hunlisted.alive hm).mp halive).1 rfl⟩
  rw [census_eq_none.mpr hnone] at hcensus
  cases hcensus

/-- What does not make the space leaves it lost. -/
theorem Turn.lost {call : Call} (h : Turn format config call m m') (hm : m.Rostered)
    (hlost : m.Lost space) (other : ∀ cpu : CpuId, createSpace format cpu m ≠ .ok space m') :
    m'.Lost space := by
  rcases h.relisted hm with ⟨cpu, made, e, hlisted⟩ | hrelisted
  · -- another space was made
    have hne : space ≠ made := by
      rintro rfl
      exact other cpu e
    obtain ⟨spaces, -, hcensus⟩ := hlisted.census
    refine ⟨fun hnone => ?_, fun halive => ?_⟩
    · rw [census_eq_none.mpr hnone] at hcensus
      cases hcensus
    · rcases hlisted.alive.mp halive with heq | hbefore
      · exact hne heq
      · exact hlost.gone hbefore
  · exact lost_of_relistings hrelisted hm hlost

theorem Later.lost (h : Later format config space m t) (hm : m.Rostered) (hlost : m.Lost space) :
    t.Rostered ∧ t.Lost space := by
  induction h with
  | refl => exact ⟨hm, hlost⟩
  | turn before turn other ih =>
    obtain ⟨hu, hgone⟩ := ih
    exact ⟨turn.rostered hu, turn.lost hu hgone other⟩

/-- After a space was destroyed, its handle is dead until a space is made that has it. -/
theorem deleted_stays_dead (h : Driven format config AnyCall poolPages m)
    (hdelete : deleteSpace format cpu space m = .ok () m')
    (hlater : Later format config space m' t) : t.Dead format config space := by
  have hm : m.Rostered := h.rostered
  have hunlisted : Unlisted space m m' := ends_deleteSpace_unlisted.of_ok hdelete
  obtain ⟨hrostered, hlost⟩ := hlater.lost (hunlisted.rostered hm) (lost_of_deleteSpace hm hdelete)
  exact hlost.dead hrostered

/-! ## Handles that come back -/

section

variable {stock : Stock} {m₁ m₂ m₃ : Machine} {other : AddressSpace}

/-- The one frame of a new space is that of its root. -/
theorem mem_ownFrames_of_created (hc : Created format stock space m m') {f : Nat} :
    f ∈ m'.ownFrames format space ↔ space.root = f * frameSize := by
  obtain ⟨spaces, root, -, hrooted, hframe, -⟩ := hc.rooted
  rw [ownFrames_eq hc.ledger.books hc.hasTask hframe]
  constructor
  · rintro ⟨id, hid, hf⟩
    rw [hrooted.private_root] at hid
    rw [show id = root from hid, hframe] at hf
    exact Option.some.inj hf
  · intro heq
    refine ⟨root, ?_, by rw [hframe, heq]⟩
    rw [hrooted.private_root]
    rfl

/-- Making a space moves a frame from the free ones to it. -/
theorem free_of_createSpace (h : m.Sound format stock) (e : createSpace format cpu m = .ok space m') :
    m'.store.frames.freeSet ∪ m'.ownFrames format space = m.store.frames.freeSet := by
  obtain ⟨hcreated, -⟩ := (ends_createSpace h).of_ok e
  obtain ⟨f, hroot, hfree, hset⟩ := free_of_created hcreated h
  have hown : m'.ownFrames format space = {f} := by
    ext g
    rw [mem_ownFrames_of_created hcreated, hroot, Set.mem_singleton_iff,
      Nat.mul_left_inj (by decide), eq_comm]
  rw [hset, hown, Set.sdiff_union_of_subset (Set.singleton_subset_iff.mpr hfree)]

/-- It is made in the lowest free frame. -/
theorem createSpace_lowest (h : m.Sound format stock) (e : createSpace format cpu m = .ok space m') :
    ∃ f ∈ m.store.frames.freeSet, space.root = f * frameSize
      ∧ ∀ g ∈ m.store.frames.freeSet, f ≤ g := by
  obtain ⟨hcreated, -⟩ := (ends_createSpace h).of_ok e
  obtain ⟨spaces, root, -, hrooted, hframe, -⟩ := hcreated.rooted
  have hturn : Turn format {} .createSpace m m' :=
    .call (by rw [attempt, perform_of_createSpace e])
  have htidy : m.store.Tidy := ⟨h.ledger.books.names, h.ledger.allocator⟩
  rcases ((hturn.turned trivial) htidy).tables hframe with hold | ⟨f, heq, hfree, hlow⟩
  · -- the root table is new
    exfalso
    obtain ⟨t, ht, -⟩ := Option.map_eq_some_iff.mp hold
    have hlevel : m.store.arena.level? root = some t.level := by rw [Arena.level?, ht]; rfl
    exact hrooted.ne_root hlevel rfl
  · refine ⟨f, hfree, heq, fun g hg => ?_⟩
    -- a frame that was free is free still, or it is that of the root
    obtain ⟨r, hroot, -, hset⟩ := free_of_created hcreated h
    rw [heq] at hroot
    obtain rfl := Nat.eq_of_mul_eq_mul_right (by decide) hroot
    by_cases hne : g = f
    · exact Nat.le_of_eq hne.symm
    · have hleft : g ∈ m'.store.frames.freeSet := hset ▸ ⟨hg, hne⟩
      exact Nat.le_of_lt (hlow hleft)

/-- Once the space is destroyed, the frames are free that were. -/
theorem free_of_destroyed (h : m.Sound format stock) (hplaced : m.Placed)
    (hmake : createSpace format cpu m = .ok space m₁)
    (hdelete : deleteSpace format cpu space m₁ = .ok () m₂) :
    m₂.Sound format stock ∧ m₂.store.frames.freeSet = m.store.frames.freeSet := by
  obtain ⟨hcreated, hsame⟩ := (ends_createSpace h).of_ok hmake
  have h₁ : m₁.Sound format stock := hcreated.sound h
  have hplaced₁ : m₁.Placed := hplaced.keep hsame fun _ => hcreated.alive
  obtain ⟨hdeleted, -⟩ := (ends_deleteSpace h₁ hplaced₁).of_ok hdelete
  obtain ⟨-, -, hfree, -⟩ := free_of_deleteSpace h₁ hplaced₁ hdelete
  exact ⟨hdeleted.sound h₁, hfree.trans (free_of_createSpace h hmake)⟩

/-- A space that is made where one was made and destroyed has the handle of that. -/
theorem createSpace_again (h : m.Sound format stock) (hplaced : m.Placed)
    (hmake : createSpace format cpu m = .ok space m₁)
    (hdelete : deleteSpace format cpu space m₁ = .ok () m₂)
    (hagain : createSpace format cpu m₂ = .ok other m₃) : other = space := by
  obtain ⟨h₂, hfree⟩ := free_of_destroyed h hplaced hmake hdelete
  obtain ⟨f, hf, hroot, hlow⟩ := createSpace_lowest h hmake
  obtain ⟨g, hg, hroot', hlow'⟩ := createSpace_lowest h₂ hagain
  rw [hfree] at hg hlow'
  have heq : f = g := Nat.le_antisymm (hlow g hg) (hlow' f hf)
  rw [heq, ← hroot'] at hroot
  exact congrArg AddressSpace.mk hroot.symm

/-- A new space can be destroyed at once. -/
theorem exists_deleteSpace_of_createSpace (h : m.Sound format stock) (hplaced : m.Placed)
    (hmake : createSpace format cpu m = .ok space m₁) :
    ∃ m₂, deleteSpace format cpu space m₁ = .ok () m₂ := by
  obtain ⟨hcreated, hsame⟩ := (ends_createSpace h).of_ok hmake
  exact exists_deleteSpace (hcreated.sound h) (hplaced.keep hsame fun _ => hcreated.alive)
    hcreated.hasTask (not_uses_of_created h hplaced hcreated hsame)

/-- A space is made and destroyed when the manager has just started; it is on the third frame. -/
theorem exists_destroyed (hbase : config.kernelImageBase = none) :
    ∃ m₀ stock m₁ m₂, ∃ space : AddressSpace, space.root = 2 * frameSize
      ∧ Reachable format config AnyCall 0 ⟨m₀, stock, fun _ => .idle⟩ ∧ m₀.spaces ≠ none
      ∧ run format config (Machine.powerOn 0)
          [(0, .initFrames smallMap), (0, .init smallMap []), (0, .createSpace)] = .ok m₁
      ∧ createSpace format 0 m₀ = .ok space m₁ ∧ deleteSpace format 0 space m₁ = .ok () m₂ := by
  obtain ⟨m₀, stock, h₀, hframe, spaces, hspaces, -⟩ : ∃ m stock,
      Answered format config AnyCall 0 [(0, .initFrames smallMap), (0, .init smallMap [])] m stock
        ∧ _ ∧ _ := exists_started_smallMap hbase trivial trivial
  have hs := h₀.reachable.sound
  have hallocator : m₀.store.frames.WellFormed := hs.machine.ledger.allocator
  have hallocated : m₀.store.frames.allocatePage
      = (.ok (2 * frameSize), m₀.store.frames.allocatePage.2) := by rw [← hframe]
  obtain ⟨f, hf, hfree, -⟩ := FrameAllocator.allocatePage_ok hallocator hallocated
  have hstarted : m₀.spaces ≠ none := by
    rw [hspaces]
    exact Option.some_ne_none spaces
  obtain ⟨space, m₁, e₁⟩ := exists_createSpace hs.machine hstarted hfree
  obtain ⟨m₂, e₂⟩ : ∃ m₂, deleteSpace format 0 space m₁ = .ok () m₂ :=
    exists_deleteSpace_of_createSpace hs.machine hs.placed e₁
  have h₁ : Answered format config AnyCall 0
      ([(0, .initFrames smallMap), (0, .init smallMap [])] ++ [(0, .createSpace)]) m₁ _ :=
    h₀.next trivial trivial (perform_of_createSpace e₁)
  refine ⟨m₀, stock, m₁, m₂, space, ?_, h₀.reachable, hstarted, h₁.run, e₁, e₂⟩
  -- the third frame is the lowest one that is free
  obtain ⟨g, hg, hroot, hlow⟩ := createSpace_lowest hs.machine e₁
  have hle : 2 * frameSize ≤ g * frameSize :=
    FrameAllocator.allocatePage_le hallocator hallocated hg
  have hge : g * frameSize ≤ f * frameSize := Nat.mul_le_mul_right frameSize (hlow f hfree)
  rw [hroot]
  exact Nat.le_antisymm (by rw [hf]; exact hge) hle

/-- The lowest free frame is handed to a caller. -/
theorem exists_allocateLowest (h : m.Sound format stock) {f : Nat}
    (hfree : f ∈ m.store.frames.freeSet) (hlow : ∀ g ∈ m.store.frames.freeSet, f ≤ g) :
    ∃ m' stock', perform format config cpu .allocatePage m = .ok (.frame (.ok (f * frameSize))) m'
      ∧ m'.Sound format stock' ∧ m'.census = m.census
      ∧ m'.store.frames.freeSet = m.store.frames.freeSet \ {f} := by
  have hallocator := h.ledger.allocator
  obtain ⟨address, frames, hpage⟩ := FrameAllocator.exists_allocatePage hallocator hfree
  obtain ⟨g, rfl, hg, -, -, hview⟩ := FrameAllocator.allocatePage_ok hallocator hpage
  have hle : g * frameSize ≤ f * frameSize := FrameAllocator.allocatePage_le hallocator hpage hfree
  obtain rfl : f = g := Nat.le_antisymm (hlow g hg) (Nat.le_of_mul_le_mul_right hle (by decide))
  have hstore : Ends (onStore TableStore.allocatePage) m
      (fun result m' => m.store.frames.allocatePage = (result, m'.store.frames))
      (fun _ _ => False) := by
    rw [ends_onStore]
    exact TableStore.ends_allocatePage _ _ fun result s hframes _ => hframes
  have hends : Ends (onStore TableStore.allocatePage) m
      (fun result m' => m.store.frames.allocatePage = (result, m'.store.frames)
        ∧ Refrained (handedOut stock 0 result) m m') (fun _ _ => False) :=
    (hstore.and (ends_allocatePage h)).mono (fun _ _ hdone => hdone) fun _ _ hf => hf.1
  obtain ⟨result, m', e, hframes, hr⟩ := exists_of_ends hends
  rw [hpage] at hframes
  injection hframes with hresult hframes
  subst hresult
  refine ⟨m', _, ?_, hr.calm.sound h, hr.calm.census, Set.ext fun g => ?_⟩
  · rw [perform_allocatePage, bind_of_ok e]
    rfl
  · rw [← hframes]
    show frames.isFree g = true ↔ m.store.frames.isFree g = true ∧ g ≠ f
    rw [hview, Bool.and_eq_true, decide_eq_true_eq]

/-- A space is made and destroyed, its frame is handed to a caller, and the next space is made on
another. -/
theorem exists_replaced (h : m.Sound format stock) (hplaced : m.Placed) (hstarted : m.spaces ≠ none)
    (henough : 2 ≤ m.store.frames.available .normal) :
    ∃ space m₁ m₂ m₃ other t, createSpace format cpu m = .ok space m₁
      ∧ deleteSpace format cpu space m₁ = .ok () m₂
      ∧ perform format config cpu .allocatePage m₂ = .ok (.frame (.ok space.root)) m₃
      ∧ m₃.census = m₂.census ∧ createSpace format cpu m₃ = .ok other t
      ∧ Listed other m₃ t ∧ ¬ m₃.Alive other ∧ other.root ≠ space.root := by
  obtain ⟨f, hf⟩ := FrameAllocator.exists_isFree h.ledger.allocator (by omega)
  obtain ⟨space, m₁, hmake⟩ := exists_createSpace h hstarted hf
  obtain ⟨m₂, hdelete⟩ : ∃ m₂, deleteSpace format cpu space m₁ = .ok () m₂ :=
    exists_deleteSpace_of_createSpace h hplaced hmake
  obtain ⟨h₂, hback⟩ := free_of_destroyed h hplaced hmake hdelete
  obtain ⟨r, hr, hroot, hlow⟩ := createSpace_lowest h hmake
  rw [← hback] at hr hlow
  obtain ⟨m₃, stock₃, hallocate, h₃, hcensus, hleft⟩ : ∃ m' stock',
      perform format config cpu .allocatePage m₂ = .ok (.frame (.ok (r * frameSize))) m' ∧ _ :=
    exists_allocateLowest h₂ hr hlow
  rw [← hroot] at hallocate
  -- one of the two frames is left
  have hcount : m₃.store.frames.available .normal + 1 = m.store.frames.available .normal := by
    rw [FrameAllocator.available_normal h₃.ledger.allocator,
      FrameAllocator.available_normal h.ledger.allocator, ← hback, hleft]
    exact Set.ncard_sdiff_singleton_add_one hr (FrameAllocator.finite_freeSet _)
  obtain ⟨g, hg⟩ := FrameAllocator.exists_isFree h₃.ledger.allocator (by omega)
  have hstarted₃ : m₃.spaces ≠ none := by
    intro hnone
    have hunlisted : Unlisted space m₁ m₂ := ends_deleteSpace_unlisted.of_ok hdelete
    obtain ⟨spaces, -, -, -, -, hlisted⟩ := hunlisted.census
    rw [← hcensus, census_eq_none.mpr hnone] at hlisted
    cases hlisted
  obtain ⟨other, t, hnext⟩ := exists_createSpace h₃ hstarted₃ hg
  obtain ⟨g', hg', hroot', -⟩ := createSpace_lowest h₃ hnext
  rw [hleft] at hg'
  refine ⟨space, m₁, m₂, m₃, other, t, hmake, hdelete, hallocate, hcensus, hnext,
    ends_createSpace_listed.of_ok hnext, ((ends_createSpace h₃).of_ok hnext).1.not_alive h₃,
    fun heq => hg'.2 ?_⟩
  rw [hroot, hroot'] at heq
  exact Nat.eq_of_mul_eq_mul_right (by decide) heq

/-- In particular, where the frame of the space that was destroyed went to a caller, and another space
was made since on another frame. -/
theorem deleted_stays_dead_replaced :
    ∃ m space m' u other t, Driven .narrow mirrored AnyCall 0 m
      ∧ deleteSpace .narrow 0 space m = .ok () m'
      ∧ perform .narrow mirrored 0 .allocatePage m' = .ok (.frame (.ok space.root)) u
      ∧ createSpace .narrow 0 u = .ok other t ∧ other.root ≠ space.root
      ∧ ¬ u.Alive other ∧ t.Alive other ∧ t.Dead .narrow mirrored space := by
  obtain ⟨m₀, m, stock, kernel, h, hbuilt, -, henough⟩ : ∃ m₀ m stock kernel,
      Answered .narrow mirrored AnyCall 0 [(0, .initFrames mixedMap), (0, .init mixedMap [])] m stock
        ∧ _ := exists_started_mixedMap trivial trivial
  have hs := h.reachable.sound
  have hstarted : m.spaces ≠ none := started_of_kernelSpace hbuilt.kernel
  obtain ⟨space, m₁, m₂, m₃, other, t, hmake, hdelete, hallocate, hcensus, hnext, hlisted, hnew, hne⟩ :
      ∃ space m₁ m₂ m₃ other t, _ ∧ _ ∧ perform .narrow mirrored 0 .allocatePage m₂ = _ ∧ _ :=
    exists_replaced hs.machine hs.placed hstarted (Nat.le_trans (by decide) henough)
  have hmake' : Turn .narrow mirrored .createSpace m m₁ :=
    .call (by rw [attempt, perform_of_createSpace hmake])
  have hwords : Call.createSpace.Words := trivial
  have hdriven : Driven .narrow mirrored AnyCall 0 m₁ :=
    (h.reachable.driven fun _ => trivial).turn hwords trivial hmake'
  have hlost : m₂.Lost space := lost_of_deleteSpace hdriven.rostered hdelete
  have hgone : ¬ m₃.Alive space := fun halive => hlost.gone ((alive_of_census hcensus).mp halive)
  -- neither of the two calls made the space that was destroyed
  have hallocate' : Turn .narrow mirrored .allocatePage m₂ m₃ :=
    .call (by rw [attempt, hallocate])
  have hnext' : Turn .narrow mirrored .createSpace m₃ t :=
    .call (by rw [attempt, perform_of_createSpace hnext])
  have hthird : Later .narrow mirrored space m₂ m₃ := by
    refine .turn .refl hallocate' fun cpu e => hgone ?_
    have hmade : Listed space m₂ m₃ := ends_createSpace_listed.of_ok e
    exact hmade.alive.mpr (.inl rfl)
  have hlater : Later .narrow mirrored space m₂ t := by
    refine .turn hthird hnext' fun cpu e => ?_
    have hmade : Listed space m₃ t := ends_createSpace_listed.of_ok e
    rcases hlisted.alive.mp (hmade.alive.mpr (.inl rfl)) with heq | halive
    · exact hne (congrArg AddressSpace.root heq.symm)
    · exact hgone halive
  exact ⟨m₁, space, m₂, m₃, other, t, hdriven, hdelete, hallocate, hnext, hne, hnew,
    hlisted.alive.mpr (.inl rfl), deleted_stays_dead hdriven hdelete hlater⟩

/-- The handle of a space that was destroyed is made again, and destroys what was made. -/
theorem handle_revived :
    ∃ m₁ m₂ m₃ m₄, ∃ space : AddressSpace, space.root = 2 * frameSize
      ∧ run .wide {} (Machine.powerOn 0)
          [(0, .initFrames smallMap), (0, .init smallMap []), (0, .createSpace)] = .ok m₁
      ∧ deleteSpace .wide 0 space m₁ = .ok () m₂ ∧ createSpace .wide 0 m₂ = .ok space m₃
      ∧ m₃.Alive space ∧ deleteSpace .wide 0 space m₃ = .ok () m₄ := by
  obtain ⟨m₀, stock, m₁, m₂, space, hroot, h₀, hstarted, hrun, e₁, e₂⟩ : ∃ m₀ stock m₁ m₂, _ :=
    @exists_destroyed .wide {} rfl
  have hs := h₀.sound
  obtain ⟨h₂, hfree⟩ := free_of_destroyed hs.machine hs.placed e₁ e₂
  obtain ⟨f, hf, -⟩ := createSpace_lowest hs.machine e₁
  rw [← hfree] at hf
  have hlisted : Listed space m₀ m₁ := ends_createSpace_listed.of_ok e₁
  have hunlisted : Unlisted space m₁ m₂ := ends_deleteSpace_unlisted.of_ok e₂
  have hrostered : m₁.Rostered := hlisted.rostered (h₀.driven fun _ => trivial).rostered
  have hlost : m₂.Lost space := lost_of_deleteSpace hrostered e₂
  obtain ⟨other, m₃, e₃⟩ := exists_createSpace h₂ hlost.started hf
  obtain rfl := createSpace_again hs.machine hs.placed e₁ e₂ e₃
  obtain ⟨m₄, e₄⟩ : ∃ m₄, deleteSpace .wide 0 other m₃ = .ok () m₄ :=
    exists_deleteSpace_of_createSpace h₂ (hunlisted.rostered hrostered).placed e₃
  obtain ⟨hcreated, -⟩ := (ends_createSpace h₂).of_ok e₃
  obtain ⟨spaces, hspaces, hmem⟩ := hcreated.hasTask
  exact ⟨m₁, m₂, m₃, m₄, other, hroot, hrun, e₂, e₃, ⟨spaces, hspaces, .inr hmem⟩, e₄⟩

end

end

end KernelMemory
