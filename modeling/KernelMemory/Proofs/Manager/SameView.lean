/-
  KernelMemory.Proofs.Manager.SameView — what spaces see of the operations on memory.

  What a space sees of an address is told by its root and the lookup from there.  So it is enough to
  know what an operation does to the tables: steps that touch none are not seen, tables that only
  grow leave every translation, and what is put in place for one half is not looked up in the other.

  Main results:
    * `Machine.Calm.sameAt`, `Machine.Remapped.sameAt` — steps that are not seen;
    * `sameAt_of_mappedUser`, `sameAt_of_mappedKernel`, `sameAt_of_created`, `sameAt_of_deleted` — who
      sees nothing of an operation;
    * `translate_of_mappedUser`, `translate_of_mappedKernel` — what is mapped stays where it is.
-/

import KernelMemory.Proofs.Manager.System

namespace KernelMemory

open Machine Manager Steps

/-! ## What a space sees -/

/-- Two machines give the same answers on an address of a space: the translation, the leaf
entry, and the mapping that covers the address with all its attributes. -/
structure SameAt (format : Format) (m m' : Machine) (space : AddressSpace) (v : Nat) : Prop where
  translate : m'.translate format space v = m.translate format space v
  entry : m'.getEntry format space v = m.getEntry format space v
  covering : m'.covering format space v = m.covering format space v

section

variable {format : Format} {config : Config} {stock stock' : Stock} {m m' : Machine}
  {space : AddressSpace} {root v : Nat} {P : MapRequest → Prop}

/-- What a space sees is told by its root and the lookup from there. -/
theorem sameAt_of_lookup (h : m.Sound format stock) (h' : m'.Sound format stock')
    (hroot : m.rootTable space = some root) (hroot' : m'.rootTable space = some root)
    (heq : m'.store.arena.lookup format v format.levels root
      = m.store.arena.lookup format v format.levels root) : SameAt format m m' space v where
  translate := by
    rw [translate_eq_view h hroot, translate_eq_view h' hroot', Arena.view, heq, ← Arena.view]
  entry := by rw [getEntry_eq_lookup h hroot, getEntry_eq_lookup h' hroot', heq]
  covering := by rw [covering_eq_lookup h hroot, covering_eq_lookup h' hroot', heq]

theorem SameAt.trans {m'' : Machine} (h : SameAt format m m' space v)
    (h' : SameAt format m' m'' space v) : SameAt format m m'' space v where
  translate := h'.translate.trans h.translate
  entry := h'.entry.trans h.entry
  covering := h'.covering.trans h.covering

/-- A space that does not exist sees nothing. -/
theorem sameAt_of_none (h : m.rootTable space = none) (h' : m'.rootTable space = none) :
    SameAt format m m' space v where
  translate := by rw [Machine.translate, h', Machine.translate, h]
  entry := by rw [Machine.getEntry, h', Machine.getEntry, h]
  covering := by rw [Machine.covering, h', Machine.covering, h]

theorem rootTable_of_census (hcensus : m'.census = m.census)
    (harena : m'.store.arena = m.store.arena) (space : AddressSpace) :
    m'.rootTable space = m.rootTable space := by
  rw [Machine.rootTable, Machine.rootTable, harena]
  cases hspaces : m.spaces with
  | none =>
    rw [census_eq_none.mp (hcensus.trans (census_eq_none.mpr hspaces))]
  | some spaces =>
    obtain ⟨spaces', hspaces', heq⟩ := exists_of_census (hcensus.trans (census_of_some hspaces))
    simp only [Spaces.census, Prod.mk.injEq] at heq
    rw [hspaces']
    show spaces'.anyTable _ _ = spaces.anyTable _ _
    rw [Spaces.anyTable, Spaces.anyTable, heq.2.1, heq.2.2]

/-- The root of a space stays as tables grow. -/
theorem rootTable_of_grows (h : m.Sound format stock) (h' : m'.Sound format stock')
    (hcensus : m'.census = m.census) (hgrows : m.store.arena.Grows m'.store.arena)
    (space : AddressSpace) : m'.rootTable space = m.rootTable space := by
  by_cases halive : m.Alive space
  · obtain ⟨root, hroot, -, hf⟩ := rootTable_of_alive h halive
    rw [hroot]
    exact rootTable_of_frame h' ((alive_of_census hcensus).mpr halive) (hgrows.frame hf)
  · rw [rootTable_of_not_alive halive,
      rootTable_of_not_alive fun halive' => halive ((alive_of_census hcensus).mp halive')]

theorem Machine.Calm.sameAt (hcalm : Calm stock' m m') : SameAt format m m' space v := by
  have hroot := rootTable_of_census hcalm.census hcalm.arena space
  constructor
  · rw [Machine.translate, Machine.translate, hroot, hcalm.arena]
  · rw [Machine.getEntry, Machine.getEntry, hroot, hcalm.arena]
  · rw [Machine.covering, Machine.covering, hroot, hcalm.arena]

/-- What is in the upper half is translated in a task as in the kernel space. -/
theorem translate_upper (h : m.Sound format stock) {spaces : Spaces} (hspaces : m.spaces = some spaces)
    (htask : space ∈ spaces.tasks) (hrange : format.virtualInRange v = true)
    (hv : format.userEnd ≤ v) :
    m.translate format space v = m.translate format spaces.kernel v := by
  have hsound := h.spaces hspaces
  obtain ⟨root, hroot, hl, -⟩ := rootTable_of_alive h ⟨spaces, hspaces, .inr htask⟩
  have hkernel := rootTable_of_frame h ⟨spaces, hspaces, .inl rfl⟩ hsound.kernel
  have hindex : format.userSplit ≤ format.index v format.topLevel := by
    by_contra hlow
    exact absurd ((Format.index_top_lt_iff hrange).mp (by omega)) (Nat.not_lt.mpr hv)
  obtain ⟨x, hx⟩ := hsound.shaped.regular.exists_slot hl (format.index_lt v format.topLevel)
  obtain ⟨y, hy, hlike⟩ := hsound.upper hl hindex hx
  rw [translate_eq_view h hroot, translate_eq_view h hkernel, Arena.view_of_like hx hy hlike]

/-! ## Edited tables -/

section

variable {spaces : Spaces} (hr : Remapped format P m m') (h : m.Sound format stock)
  (hspaces : m.spaces = some spaces) (ready : AllReady format spaces.kernelTable P m.store)
include hr h hspaces ready

theorem Machine.Remapped.grows : m.store.arena.Grows m'.store.arena := by
  obtain ⟨mid, he, -, hmid⟩ := hr.edits
  exact (he.grows ⟨h.ledger, (h.spaces hspaces).shaped⟩ ready).trans hmid.alike.grows

theorem Machine.Remapped.lookup (hroot : m.store.arena.level? root = some format.topLevel)
    (hnot : ∀ r, P r → ¬ r.Touches format root v) :
    m'.store.arena.lookup format v format.levels root
      = m.store.arena.lookup format v format.levels root := by
  obtain ⟨mid, he, -, hmid⟩ := hr.edits
  rw [Arena.lookup_alike hmid.alike]
  exact he.lookup ⟨h.ledger, (h.spaces hspaces).shaped⟩ ready hroot hnot

/-- Who does not see the pages of the requests sees no change. -/
theorem Machine.Remapped.sameAt (h' : m'.Sound format stock')
    (hnot : ∀ root, m.rootTable space = some root → ∀ r, P r → ¬ r.Touches format root v) :
    SameAt format m m' space v := by
  have hsame := rootTable_of_grows h h' hr.census (hr.grows h hspaces ready) space
  cases hroot : m.rootTable space with
  | none => exact sameAt_of_none hroot (hsame.trans hroot)
  | some root =>
    exact sameAt_of_lookup h h' hroot (hsame.trans hroot)
      (hr.lookup h hspaces ready (rootTable_eq_some h hroot).2.1 (hnot root hroot))

end

/-- What was translated is translated alike, where tables only grew. -/
theorem translate_of_grows (h : m.Sound format stock) (h' : m'.Sound format stock')
    (hcensus : m'.census = m.census) (hgrows : m.store.arena.Grows m'.store.arena) {p : PhysAddr}
    (hp : m.translate format space v = .ok (some p)) :
    m'.translate format space v = .ok (some p) := by
  have hsame := rootTable_of_grows h h' hcensus hgrows space
  cases hroot : m.rootTable space with
  | none =>
    rw [Machine.translate, hroot] at hp
    cases hp
  | some root =>
    rw [translate_eq_view h hroot] at hp
    rw [translate_eq_view h' (hsame.trans hroot)]
    injection hp with hp
    obtain ⟨⟨p', flags⟩, hview, rfl⟩ := Option.map_eq_some_iff.mp hp
    obtain ⟨flags', hview'⟩ := Arena.view_grows hgrows hview
    rw [hview']
    rfl

/-! ## User memory -/

section

variable {a : AddressSpace} {virt phys : Nat} (hu : MappedUser format a virt phys m m')
  (h : m.Sound format stock)
include hu h

/-- User memory that is mapped is seen in the lower half of its space alone. -/
theorem sameAt_of_mappedUser (hrange : format.virtualInRange v = true)
    (hne : space ≠ a ∨ format.userEnd ≤ v) : SameAt format m m' space v := by
  have h' := hu.sound h
  rcases hu with hq | ⟨table, kernel, tasks, root, hcensus, -, hhome, hl, hf, hr⟩
  · exact (hq.calm h).sameAt
  · obtain ⟨spaces, hspaces, heq⟩ := exists_of_census hcensus
    simp only [Spaces.census, Prod.mk.injEq] at heq
    refine hr.sameAt h hspaces (allReady_user hl) h' fun root' hroot' r hreq => ?_
    have hfits : r.Fits format table := hreq.fits
    refine MapRequest.not_touches_other hfits (by rw [hreq.root]; exact hhome) hrange
      (hne.imp_left fun hspace heq' => hspace ?_)
    have hf' := (rootTable_eq_some h hroot').2.2
    rw [heq', hreq.root] at hf'
    exact AddressSpace.eq_of_frame hf' hf

theorem translate_of_mappedUser {p : PhysAddr} (hp : m.translate format space v = .ok (some p)) :
    m'.translate format space v = .ok (some p) := by
  have h' := hu.sound h
  have hcensus := hu.census
  rcases hu with hq | ⟨table, kernel, tasks, root, hc, -, -, hl, -, hr⟩
  · rw [(hq.calm h).sameAt.translate, hp]
  · obtain ⟨spaces, hspaces, -⟩ := exists_of_census hc
    exact translate_of_grows h h' hcensus (hr.grows h hspaces (allReady_user hl)) hp

end

/-! ## Kernel memory -/

section

variable (hk : MappedKernel format config m m') (h : m.Sound format stock)
include hk h

/-- Kernel memory that is mapped is not seen in the lower half of a task. -/
theorem sameAt_of_mappedKernel {spaces : Spaces} (hspaces : m.spaces = some spaces)
    (htask : space ∈ spaces.tasks) (hv : v < format.userEnd) : SameAt format m m' space v := by
  have h' := hk.sound h
  rcases hk.tables with hq | ⟨spaces', hspaces', hr⟩
  · exact (hq.calm h).sameAt
  · rw [hspaces] at hspaces'
    injection hspaces' with hspaces'
    subst hspaces'
    have hsound := h.spaces hspaces
    refine hr.sameAt h hspaces
      (allReady_kernel ⟨spaces.kernelTable, true⟩ hsound.shaped.kernel_top) h'
      fun root hroot r hreq => ?_
    refine MapRequest.not_touches_lower (Format.inRange_of_lt_userEnd hv) ?_ hv
    rw [hreq.root]
    rintro rfl
    have hf := (rootTable_eq_some h hroot).2.2
    rw [hsound.kernel] at hf
    injection hf with hf
    exact hsound.task_root_ne h.ledger.books htask hf.symm

theorem translate_of_mappedKernel {p : PhysAddr} (hp : m.translate format space v = .ok (some p)) :
    m'.translate format space v = .ok (some p) := by
  have h' := hk.sound h
  rcases hk.tables with hq | ⟨spaces, hspaces, hr⟩
  · rw [(hq.calm h).sameAt.translate, hp]
  · exact translate_of_grows h h' hr.census (hr.grows h hspaces
      (allReady_kernel ⟨spaces.kernelTable, true⟩ (h.spaces hspaces).shaped.kernel_top)) hp

end

/-! ## Spaces made and destroyed -/

/-- The spaces there were see nothing of a new one. -/
theorem sameAt_of_created {new : AddressSpace} (hc : Created format stock new m m')
    (h : m.Sound format stock) (halive : m.Alive space) : SameAt format m m' space v := by
  have h' := hc.sound h
  obtain ⟨root, hroot, hl, hf⟩ := rootTable_of_alive h halive
  obtain ⟨spaces, root', hspaces, hrooted, -, -⟩ := hc.rooted
  have hroot' := rootTable_of_frame h' (hc.alive halive)
    ((hrooted.frame (hrooted.ne_root hl)).trans hf)
  exact sameAt_of_lookup h h' hroot hroot' (hrooted.lookup (h.spaces hspaces).shaped hl)

/-- A new space has nothing mapped in its half. -/
theorem translate_of_created (hc : Created format stock space m m') (hm : m.Sound format stock)
    (hv : v < format.userEnd) : m'.translate format space v = .ok none := by
  have hm' : m'.Sound format stock := hc.sound hm
  obtain ⟨spaces, hspaces, hmem⟩ := hc.hasTask
  obtain ⟨_, root, -, hrooted, hframe, -⟩ := hc.rooted
  have hindex := (Format.index_top_lt_iff (Format.inRange_of_lt_userEnd hv)).mpr hv
  have hslot : m'.store.arena.slot? root (format.index v format.topLevel) = some .empty := by
    rw [hrooted.slot_root, if_neg (fun hup => absurd hup.1 (Nat.not_le.mpr hindex)),
      if_pos (format.index_lt v format.topLevel)]
  rw [translate_eq_view hm' (rootTable_of_frame hm' ⟨spaces, hspaces, .inr hmem⟩ hframe), Arena.view,
    Arena.lookup_of_empty hslot]
  rfl

/-- The spaces that are left see nothing of one that goes. -/
theorem sameAt_of_deleted {old : AddressSpace} (hd : Deleted format stock old m m')
    (h : m.Sound format stock) (halive : m.Alive space) (hleft : m'.Alive space) :
    SameAt format m m' space v := by
  have h' := hd.sound h
  obtain ⟨root, hroot, hl, hf⟩ := rootTable_of_alive h halive
  obtain ⟨spaces, root', hspaces, -, -, hl', hf', hpruned, -⟩ := hd.pruned
  have hsound := h.spaces hspaces
  have hne : root ≠ root' := by
    rintro rfl
    rw [AddressSpace.eq_of_frame hf hf'] at hleft
    exact hd.not_alive h hleft
  have hkept := Arena.not_private_of_top hsound.shaped hl hne
  have hroot' := rootTable_of_frame h' hleft ((hpruned.frame hkept).trans hf)
  exact sameAt_of_lookup h h' hroot hroot' (Arena.lookup_pruned hsound.shaped hl' hkept hpruned)

end

end KernelMemory
