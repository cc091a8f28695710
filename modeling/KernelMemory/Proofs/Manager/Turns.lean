/-
  KernelMemory.Proofs.Manager.Turns — what an operation does to the tables, in a few shapes.

  An operation leaves the tables as they are (`Quiet`, `Calm`), edits them (`Remapped`), makes
  the first root (`Started`), adds a root that shares the kernel's upper half (`Created`) or
  removes the private part of one (`Deleted`).  Each shape keeps the machine sound.

  Main results:
    * `Calm.sound`, `Remapped.sound`, `Started.sound`, `Created.sound`, `Deleted.sound`.
-/

import KernelMemory.Proofs.Manager.Requests
import KernelMemory.Proofs.Manager.Spaces

namespace KernelMemory

/-- The kernel root and the spaces, without what is noted of processors. -/
def Spaces.census (spaces : Spaces) : TableId × AddressSpace × List AddressSpace :=
  (spaces.kernelTable, spaces.kernel, spaces.tasks)

theorem Spaces.Sound.of_census {format : Format} {spaces spaces' : Spaces} {a : Arena}
    (h : spaces.Sound format a) (heq : spaces'.census = spaces.census) :
    spaces'.Sound format a := by
  simp only [census, Prod.mk.injEq] at heq
  exact h.congr heq.1 heq.2.1 heq.2.2

namespace Machine

variable {format : Format} {config : Config} {stock : Stock} {m m' m'' : Machine}

/-! ## The spaces of a machine -/

/-- The kernel root and the spaces, once there are any. -/
def census (m : Machine) : Option (TableId × AddressSpace × List AddressSpace) :=
  m.spaces.map Spaces.census

theorem census_of_some {spaces : Spaces} (h : m.spaces = some spaces) :
    m.census = some spaces.census := by rw [census, h]; rfl

theorem exists_of_census {c : TableId × AddressSpace × List AddressSpace}
    (h : m.census = some c) : ∃ spaces, m.spaces = some spaces ∧ spaces.census = c :=
  Option.map_eq_some_iff.mp h

theorem census_eq_none : m.census = none ↔ m.spaces = none := Option.map_eq_none_iff

theorem kernelSpace_of_some {spaces : Spaces} (h : m.spaces = some spaces) :
    m.kernelSpace = some spaces.kernel := by
  rw [kernelSpace, h]
  rfl

theorem started_of_kernelSpace {kernel : AddressSpace} (h : m.kernelSpace = some kernel) :
    m.spaces ≠ none := by
  intro hnone
  rw [kernelSpace, hnone] at h
  cases h

theorem alive_iff {space : AddressSpace} :
    m.Alive space ↔ ∃ table kernel tasks, m.census = some (table, kernel, tasks)
      ∧ (space = kernel ∨ space ∈ tasks) := by
  constructor
  · rintro ⟨spaces, hspaces, hs⟩
    exact ⟨_, _, _, census_of_some hspaces, hs⟩
  · rintro ⟨table, kernel, tasks, hcensus, hs⟩
    obtain ⟨spaces, hspaces, heq⟩ := exists_of_census hcensus
    simp only [Spaces.census, Prod.mk.injEq] at heq
    obtain ⟨-, rfl, rfl⟩ := heq
    exact ⟨spaces, hspaces, hs⟩

/-- Whether a space is that of a task. -/
def HasTask (m : Machine) (space : AddressSpace) : Prop :=
  ∃ spaces, m.spaces = some spaces ∧ space ∈ spaces.tasks

theorem hasTask_of_some {spaces : Spaces} (h : m.spaces = some spaces) {space : AddressSpace} :
    m.HasTask space ↔ space ∈ spaces.tasks := by
  constructor
  · intro htask
    obtain ⟨spaces', hspaces', hmem⟩ := htask
    rw [h] at hspaces'
    injection hspaces' with hspaces'
    rw [hspaces']
    exact hmem
  · exact fun hmem => ⟨spaces, h, hmem⟩

theorem hasTask_of_census {table : TableId} {kernel : AddressSpace} {tasks : List AddressSpace}
    (h : m.census = some (table, kernel, tasks)) {space : AddressSpace} :
    m.HasTask space ↔ space ∈ tasks := by
  obtain ⟨spaces, hspaces, heq⟩ := exists_of_census h
  simp only [Spaces.census, Prod.mk.injEq] at heq
  rw [hasTask_of_some hspaces, heq.2.2]

theorem hasTask_congr (h : m'.census = m.census) {space : AddressSpace} :
    m'.HasTask space ↔ m.HasTask space := by
  cases hspaces : m.spaces with
  | none =>
    have hnone := census_eq_none.mp (h.trans (census_eq_none.mpr hspaces))
    constructor
    · rintro ⟨spaces, hsome, -⟩
      rw [hnone] at hsome
      cases hsome
    · rintro ⟨spaces, hsome, -⟩
      rw [hspaces] at hsome
      cases hsome
  | some spaces =>
    have hcensus := census_of_some hspaces
    rw [hasTask_of_census hcensus, hasTask_of_census (h.trans hcensus)]

/-- Spaces are sound on the tables of another machine with the same spaces. -/
theorem sound_of_census {a : Arena}
    (hsound : ∀ {spaces}, m.spaces = some spaces → spaces.Sound format a)
    (heq : m'.census = m.census) {spaces' : Spaces} (hs : m'.spaces = some spaces') :
    spaces'.Sound format a := by
  rw [census_of_some hs] at heq
  obtain ⟨spaces, hspaces, hcensus⟩ := exists_of_census heq.symm
  exact (hsound hspaces).of_census hcensus.symm

/-! ## Tables left as they are -/

/-- Frames, tables, memory and spaces are as they were. -/
structure Quiet (m m' : Machine) : Prop where
  store : m.store.Same m'.store
  memory : m'.memory = m.memory
  census : m'.census = m.census
  image : m'.descriptor.kernelImage = m.descriptor.kernelImage

theorem Quiet.refl (m : Machine) : Quiet m m := ⟨⟨rfl, rfl⟩, rfl, rfl, rfl⟩

theorem Quiet.trans (h : Quiet m m') (h' : Quiet m' m'') : Quiet m m'' :=
  ⟨⟨h'.store.frames.trans h.store.frames, h'.store.arena.trans h.store.arena⟩,
    h'.memory.trans h.memory, h'.census.trans h.census, h'.image.trans h.image⟩

/-- Tables, memory and spaces are as they were, and the frames are in order. -/
structure Calm (stock : Stock) (m m' : Machine) : Prop where
  arena : m'.store.arena = m.store.arena
  ledger : Ledger stock m'.store.frames m'.store.arena
  memory : m'.memory = m.memory
  census : m'.census = m.census

theorem Quiet.calm (h : Quiet m m') (hs : m.Sound format stock) : Calm stock m m' where
  arena := h.store.arena
  ledger := by rw [h.store.frames, h.store.arena]; exact hs.ledger
  memory := h.memory
  census := h.census

theorem Calm.sound {stock' : Stock} (h : Calm stock' m m') (hs : m.Sound format stock) :
    m'.Sound format stock' where
  ledger := h.ledger
  settled := by rw [h.arena, h.memory]; exact hs.settled
  unstarted := fun hnone => by
    rw [h.arena]
    exact hs.unstarted (census_eq_none.mp (h.census ▸ census_eq_none.mpr hnone))
  spaces := fun hspaces => sound_of_census (by rw [h.arena]; exact hs.spaces) h.census hspaces

theorem Quiet.sound (h : Quiet m m') (hs : m.Sound format stock) : m'.Sound format stock :=
  (h.calm hs).sound hs

/-! ## Edited tables -/

/-- The tables were edited, and written to memory. -/
structure Remapped (format : Format) (P : MapRequest → Prop) (m m' : Machine) : Prop where
  edits : ∃ mid, Edits format P m.store mid ∧ m'.store.frames = mid.frames
    ∧ Arena.Unmarked mid.arena m'.store.arena
  settled : Arena.Settled format m'.store.arena m'.memory
  census : m'.census = m.census
  image : m'.descriptor.kernelImage = m.descriptor.kernelImage

theorem Remapped.before {P : MapRequest → Prop} (h : Remapped format P m' m'')
    (hq : Quiet m m') : Remapped format P m m'' where
  edits := by
    obtain ⟨mid, he, hmid⟩ := h.edits
    exact ⟨mid, (Edits.of_same hq.store.frames hq.store.arena).trans he, hmid⟩
  settled := h.settled
  census := h.census.trans hq.census
  image := h.image.trans hq.image

theorem Remapped.after {P : MapRequest → Prop} (h : Remapped format P m m')
    (hq : Quiet m' m'') : Remapped format P m m'' where
  edits := by
    obtain ⟨mid, he, hframes, hmid⟩ := h.edits
    refine ⟨mid, he, hq.store.frames.trans hframes, ?_⟩
    rw [hq.store.arena]
    exact hmid
  settled := by rw [hq.store.arena, hq.memory]; exact h.settled
  census := hq.census.trans h.census
  image := hq.image.trans h.image

theorem Remapped.mono {P Q : MapRequest → Prop} (h : Remapped format P m m')
    (hle : ∀ r, P r → Q r) : Remapped format Q m m' where
  edits := by
    obtain ⟨mid, he, hmid⟩ := h.edits
    exact ⟨mid, he.mono hle, hmid⟩
  settled := h.settled
  census := h.census
  image := h.image

/-- Where a request of a task or of the kernel goes. -/
def InTrees (spaces : Spaces) (P : MapRequest → Prop) : Prop :=
  (∀ r, P r → r.root = spaces.kernelTable ∧ r.rootSealed = true)
    ∨ ∃ root, root ≠ spaces.kernelTable ∧ ∀ r, P r → r.root = root

theorem Remapped.sound {P : MapRequest → Prop} (h : Remapped format P m m')
    (hs : m.Sound format stock) {spaces : Spaces} (hspaces : m.spaces = some spaces)
    (ready : AllReady format spaces.kernelTable P m.store) (trees : InTrees spaces P) :
    m'.Sound format stock := by
  obtain ⟨mid, he, hframes, hmid⟩ := h.edits
  have hsound := hs.spaces hspaces
  have orderly : m.store.Orderly format spaces.kernelTable stock := ⟨hs.ledger, hsound.shaped⟩
  -- the spaces are sound after the edits, and taking marks away changes nothing of that
  have hafter : spaces.Sound format mid.arena := by
    rcases trees with hkernel | ⟨root, hne, hroot⟩
    · exact hsound.edits_kernel he hs.ledger ready (fun r hr => (hkernel r hr).1)
        fun r hr => (hkernel r hr).2
    · exact hsound.edits_task he hs.ledger ready hroot hne
  have hledger := hmid.ledger (he.orderly orderly ready).ledger h.settled.clean
  refine ⟨by rw [hframes]; exact hledger, h.settled, fun hnone => ?_, fun {spaces'} hs' => ?_⟩
  · have hcensus := h.census
    rw [census_eq_none.mpr hnone, census_of_some hspaces] at hcensus
    cases hcensus
  · refine sound_of_census (fun {sp} hsp => ?_) h.census hs'
    rw [hspaces] at hsp
    injection hsp with hsp
    rw [← hsp]
    exact hafter.alike hmid.alike

/-! ## New and old roots -/

/-- The manager was started: a kernel tree was built on the first root. -/
structure Started (format : Format) (config : Config) (stock : Stock) (m m' : Machine) : Prop where
  unstarted : m.spaces = none
  tree : ∃ (frame : PhysAddr) (root : TableId) (first mid : TableStore),
    first.arena = (Arena.empty.add (.blank frame format.topLevel false format.entries)).2
      ∧ root = (Arena.empty.add (.blank frame format.topLevel false format.entries)).1
      ∧ Ledger stock first.frames first.arena
      ∧ Manager.KernelEdits format config ⟨root, false⟩ m.descriptor.kernelImage first mid
      ∧ m'.store.frames = mid.frames ∧ Arena.Unmarked mid.arena m'.store.arena
      ∧ m'.census = some (root, ⟨frame⟩, [])
  settled : Arena.Settled format m'.store.arena m'.memory
  image : m'.descriptor.kernelImage = m.descriptor.kernelImage

theorem Started.sound (h : Started format config stock m m') : m'.Sound format stock := by
  obtain ⟨frame, root, first, mid, hfirst, hroot, hledger, he, hframes, hmid, hcensus⟩ := h.tree
  obtain ⟨spaces, hspaces, heq⟩ := exists_of_census hcensus
  simp only [Spaces.census, Prod.mk.injEq] at heq
  obtain ⟨htable, hkernel, htasks⟩ := heq
  have hsound : spaces.Sound format first.arena := by
    rw [hfirst]
    exact .first frame false (htable.trans hroot) (by rw [hkernel]) htasks
  have ready : AllReady format spaces.kernelTable
      (KernelRequest format config ⟨root, false⟩ m.descriptor.kernelImage) first := by
    rw [htable]
    exact allReady_kernel ⟨root, false⟩ (by rw [← htable]; exact hsound.shaped.kernel_top)
  have orderly : first.Orderly format spaces.kernelTable stock := ⟨hledger, hsound.shaped⟩
  have hafter := hsound.edits_first he hledger ready htasks
  refine sound_of_spaces hspaces ?_ h.settled (hafter.alike hmid.alike)
  rw [hframes]
  exact hmid.ledger (he.orderly orderly ready).ledger h.settled.clean

/-- A task space was made. -/
structure Created (format : Format) (stock : Stock) (space : AddressSpace) (m m' : Machine) :
    Prop where
  rooted : ∃ spaces root, m.spaces = some spaces
    ∧ Arena.Rooted format spaces.kernelTable m.store.arena m'.store.arena root format.entries
    ∧ m'.store.arena.frame? root = some space.root
    ∧ m'.census = some (spaces.kernelTable, spaces.kernel, spaces.tasks.insert space)
  ledger : Ledger stock m'.store.frames m'.store.arena
  settled : Arena.Settled format m'.store.arena m'.memory
  image : m'.descriptor.kernelImage = m.descriptor.kernelImage

theorem Created.sound {space : AddressSpace} (h : Created format stock space m m')
    (hs : m.Sound format stock) : m'.Sound format stock := by
  obtain ⟨spaces, root, hspaces, hrooted, hframe, hcensus⟩ := h.rooted
  obtain ⟨spaces', hspaces', heq⟩ := exists_of_census hcensus
  simp only [Spaces.census, Prod.mk.injEq] at heq
  exact sound_of_spaces hspaces' h.ledger h.settled
    ((hs.spaces hspaces).rooted hrooted hframe heq.1 heq.2.1 heq.2.2)

/-- The spaces there were go on to exist. -/
theorem Created.alive {space other : AddressSpace} (h : Created format stock space m m')
    (halive : m.Alive other) : m'.Alive other := by
  obtain ⟨spaces, root, hspaces, -, -, hcensus⟩ := h.rooted
  have hs := (alive_of_some hspaces).mp halive
  exact alive_iff.mpr ⟨_, _, _, hcensus, hs.imp_right List.mem_insert_of_mem⟩

/-- The space that was made is another than those there were. -/
theorem Created.not_alive {space : AddressSpace} (h : Created format stock space m m')
    (hs : m.Sound format stock) : ¬ m.Alive space := by
  intro halive
  obtain ⟨spaces, root, hspaces, hrooted, hframe, -⟩ := h.rooted
  obtain ⟨id, hl, hf⟩ := (hs.spaces hspaces).exists_root ((alive_of_some hspaces).mp halive)
  have hne := hrooted.ne_root hl
  rw [← hrooted.frame hne] at hf
  exact hne (h.ledger.books.frame_inj hf hframe)

/-- It is the space of a task. -/
theorem Created.hasTask {space : AddressSpace} (h : Created format stock space m m') :
    m'.HasTask space := by
  obtain ⟨spaces, root, -, -, -, hcensus⟩ := h.rooted
  exact (hasTask_of_census hcensus).mpr List.mem_insert_self

/-- A task space was destroyed. -/
structure Deleted (format : Format) (stock : Stock) (space : AddressSpace) (m m' : Machine) :
    Prop where
  pruned : ∃ spaces root, m.spaces = some spaces ∧ space ∈ spaces.tasks
    ∧ root ≠ spaces.kernelTable ∧ m.store.arena.level? root = some format.topLevel
    ∧ m.store.arena.frame? root = some space.root
    ∧ Arena.Pruned m.store.arena (m.store.arena.Private format root) m'.store.arena
    ∧ m'.census = some (spaces.kernelTable, spaces.kernel, spaces.tasks.erase space)
  ledger : Ledger stock m'.store.frames m'.store.arena
  memory : m'.memory = m.memory
  image : m'.descriptor.kernelImage = m.descriptor.kernelImage

/-- The other spaces go on to exist. -/
theorem Deleted.alive {space other : AddressSpace} (h : Deleted format stock space m m')
    (halive : m.Alive other) (hne : other ≠ space) : m'.Alive other := by
  obtain ⟨spaces, root, hspaces, -, -, -, -, -, hcensus⟩ := h.pruned
  have hs := (alive_of_some hspaces).mp halive
  exact alive_iff.mpr ⟨_, _, _, hcensus, hs.imp_right (List.mem_erase_of_ne hne).mpr⟩

/-- The space that was destroyed does not. -/
theorem Deleted.not_alive {space : AddressSpace} (h : Deleted format stock space m m')
    (hs : m.Sound format stock) : ¬ m'.Alive space := by
  intro hleft
  obtain ⟨spaces, root, hspaces, hmem, -, -, -, -, hcensus⟩ := h.pruned
  have hsound := hs.spaces hspaces
  obtain ⟨table, kernel, tasks, hcensus', hin⟩ := alive_iff.mp hleft
  rw [hcensus] at hcensus'
  simp only [Option.some.injEq, Prod.mk.injEq] at hcensus'
  obtain ⟨-, rfl, rfl⟩ := hcensus'
  rcases hin with rfl | hin
  · exact hsound.task_root_ne hs.ledger.books hmem rfl
  · rw [hsound.nodup.mem_erase_iff] at hin
    exact hin.1 rfl

theorem Deleted.sound {space : AddressSpace} (h : Deleted format stock space m m')
    (hs : m.Sound format stock) : m'.Sound format stock := by
  obtain ⟨spaces, root, hspaces, hmem, hne, hl, hf, hpruned, hcensus⟩ := h.pruned
  obtain ⟨spaces', hspaces', heq⟩ := exists_of_census hcensus
  simp only [Spaces.census, Prod.mk.injEq] at heq
  have hsound := hs.spaces hspaces
  refine sound_of_spaces hspaces' h.ledger ⟨fun id hd => ?_, ?_⟩
    (hsound.pruned hs.ledger.books hpruned hmem hne hl hf heq.1 heq.2.1 heq.2.2)
  · -- no table that is left waits, as none did before
    by_cases hid : id ∈ m.store.arena.Private format root
    · rw [Arena.dirty?, hpruned.gone hid] at hd
      cases hd
    · rw [Arena.dirty?, hpruned.kept hid] at hd
      exact hs.settled.clean id hd
  · rw [h.memory]
    exact hs.settled.synced.pruned hpruned fun hp hslot =>
      Arena.not_private_child hsound.shaped hl hp hslot

end Machine

end KernelMemory
