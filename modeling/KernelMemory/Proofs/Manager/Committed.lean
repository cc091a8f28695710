/-
  KernelMemory.Proofs.Manager.Committed — the tables in memory say what the manager says.

  The manager keeps its tables as data and writes them to memory at the end of each section.
  A processor reads memory only.  As long as every frame has an address that entries can hold,
  what it finds from the root of a space is what the manager tells of that space.

  Main results:
    * `Effect.confined` — frames stay below the end of what entries can name;
    * `committed_walk` — a walk in memory is a translation, in every state of every run.
-/

import KernelMemory.Proofs.Manager.Populated
import KernelMemory.Proofs.Paging.Hardware

namespace KernelMemory

open Machine Manager Steps

/-! ## Requests and frames -/

/-- Second addresses of kernel memory have the page offset of the first. -/
def Config.Aligned (config : Config) : Prop :=
  ∀ offset : Nat, config.directMapOffset = some offset → offset % frameSize = 0

/-- The kernel image is linked to run at the page offset it is loaded at. -/
def Config.Places (config : Config) (image : Option MemoryRegion) : Prop :=
  ∀ (virt : Nat) (region : MemoryRegion), config.kernelImageBase = some virt →
    image = some region → virt % frameSize = region.base % frameSize

/-- What is asked of calls so that entries can name every frame: memory ends at the physical
end, the kernel image is placed well, and user memory is mapped at its page offset. -/
def Call.Nameable (format : Format) (config : Config) : Call → Prop
  | .initFrames map => map.stop ≤ format.physicalEnd ∧ config.Places map.image?
  | .mapUser _ virt phys _ => virt % frameSize = phys % frameSize
  | _ => True

/-- Every frame that tables map is below the physical end. -/
def Arena.MapsBelow (format : Format) (a : Arena) : Prop :=
  ∀ (p i : Nat) (s : Slot) (m : Mapping), a.slot? p i = some s → s.mapping? = some m →
    m.frame < format.physicalEnd

section

variable {format : Format} {config : Config} {stock stock' : Stock} {cpu : CpuId}
  {action : Action} {m m' : Machine} {kernel : TableId} {request : MapRequest}

/-- Both addresses of kernel memory have one page offset. -/
theorem KernelRequest.phys_lt {tree : KernelTree} {image : Option MemoryRegion}
    (h : KernelRequest format config tree image request) (aligned : config.Aligned)
    (placed : config.Places image) {target virt phys : Nat}
    (piece : request.Piece format target virt phys) : phys < format.physicalEnd := by
  refine piece.phys_lt fun hb => (checkRange_cover h.pos h.checked hb).2.2 ?_
  -- seen at its own address, at the configured offset, or as the kernel image
  rcases h.seen with heq | hsecond | ⟨region, himage, hbase, hphys⟩
  · rw [heq]
  · unfold secondView at hsecond
    split at hsecond
    · cases hsecond
    · rename_i offset hoffset
      split at hsecond
      · rename_i virt' hadd
        simp only [Except.ok.injEq, Option.some.injEq] at hsecond
        obtain ⟨-, hsum⟩ := Word.add?_eq_some_iff.mp hadd
        have hmod := aligned offset hoffset
        have hvirt : request.virt = request.phys + offset := by rw [← hsecond, hsum]
        rw [hvirt, Nat.add_mod, hmod, Nat.add_zero, Nat.mod_mod]
      · cases hsecond
  · rw [hphys]
    exact placed _ region hbase himage

theorem UserRequest.phys_lt {root virt phys : Nat}
    (h : UserRequest format root virt phys request) (hoffset : virt % frameSize = phys % frameSize)
    {target w p : Nat} (piece : request.Piece format target w p) : p < format.physicalEnd := by
  refine piece.phys_lt fun {v p length} hb => ?_
  rw [h.start, h.frame] at hb
  exact (userRange_cover h.pos h.last_virt h.last_phys hb).2.2 hoffset

/-- Edits that map frames below the physical end keep to it. -/
theorem Edits.mapsBelow {P : MapRequest → Prop} {s s' : TableStore} (e : Edits format P s s')
    (orderly : s.Orderly format kernel stock) (ready : AllReady format kernel P s)
    (below : ∀ {r target virt phys}, P r → r.Piece format target virt phys →
      phys < format.physicalEnd) (h : s.arena.MapsBelow format) : s'.arena.MapsBelow format := by
  intro p i x mapping hx hm
  rcases e.page orderly ready hx hm with hold | ⟨r, target, virt, phys, hr, piece, rfl⟩
  · exact h p i x mapping hold hm
  · rw [Walk.mapping?_pageSlot] at hm
    cases hm
    exact below hr piece

theorem Arena.Alike.mapsBelow {a b : Arena} (hab : a.Alike b) (h : a.MapsBelow format) :
    b.MapsBelow format := fun p i s mapping hs hm => by
  rw [hab.slot] at hs
  exact h p i s mapping hs hm

/-! ## Frames stay below the physical end -/

/-- Every frame has an address that entries can hold. -/
structure Machine.Confined (format : Format) (config : Config) (m : Machine) : Prop where
  total : m.store.frames.totalPages * frameSize ≤ format.physicalEnd
  mapped : m.store.arena.MapsBelow format
  image : config.Places m.descriptor.kernelImage

theorem confined_powerOn (format : Format) (config : Config) (poolPages : Nat) :
    (powerOn poolPages).Confined format config where
  total := by
    rw [show (powerOn poolPages).store.frames.totalPages = 0 from rfl, Nat.zero_mul]
    exact Nat.zero_le _
  mapped := fun p i s mapping hs => by simp [powerOn, TableStore.empty, Arena.slot?] at hs
  image := fun _ _ _ h => by cases h

theorem Machine.Confined.nameable (h : m.Confined format config) (hs : m.Sound format stock) :
    m.store.arena.Nameable format where
  mapped := h.mapped _ _ _ _
  tables := fun {id frame} hf => by
    obtain ⟨hmod, -, hlt, -, -⟩ := hs.ledger.table hf
    exact ⟨hmod, Nat.lt_of_lt_of_le ((Nat.div_lt_iff_lt_mul (by decide)).mp hlt) h.total⟩

/-- Edits written to memory keep frames below the physical end. -/
theorem Machine.Remapped.confined {P : MapRequest → Prop} {spaces : Spaces}
    (hr : Remapped format P m m') (h : m.Confined format config) (hs : m.Sound format stock)
    (hs' : m'.Sound format stock) (hspaces : m.spaces = some spaces)
    (ready : AllReady format spaces.kernelTable P m.store)
    (below : ∀ {r target virt phys}, P r → r.Piece format target virt phys →
      phys < format.physicalEnd) : m'.Confined format config where
  total := by rw [hs'.ledger.total, ← hs.ledger.total]; exact h.total
  mapped := by
    obtain ⟨mid, he, -, hmid⟩ := hr.edits
    exact hmid.alike.mapsBelow
      (he.mapsBelow ⟨hs.ledger, (hs.spaces hspaces).shaped⟩ ready below h.mapped)
  image := by rw [hr.image]; exact h.image

/-- So does what leaves the tables alone, unless the allocator starts. -/
theorem Machine.Quiet.confined (hq : Quiet m m') (h : m.Confined format config) :
    m'.Confined format config where
  total := by rw [hq.store.frames]; exact h.total
  mapped := by rw [hq.store.arena]; exact h.mapped
  image := by rw [hq.image]; exact h.image

theorem confined_of_mappedUser {space : AddressSpace} {virt phys : Nat}
    (hu : MappedUser format space virt phys m m') (h : m.Confined format config)
    (hs : m.Sound format stock) (hoffset : virt % frameSize = phys % frameSize) :
    m'.Confined format config := by
  have hs' := hu.sound hs
  rcases hu with hq | ⟨table, kernel, tasks, root, hcensus, -, -, hl, -, hr⟩
  · exact hq.confined h
  · obtain ⟨spaces, hspaces, -⟩ := exists_of_census hcensus
    exact hr.confined h hs hs' hspaces (allReady_user hl) fun hreq piece =>
      hreq.phys_lt hoffset piece

theorem confined_of_mappedKernel (hk : MappedKernel format config m m')
    (h : m.Confined format config) (hs : m.Sound format stock) (aligned : config.Aligned) :
    m'.Confined format config := by
  have hs' := hk.sound hs
  rcases hk.tables with hq | ⟨spaces, hspaces, hr⟩
  · exact hq.confined h
  · exact hr.confined h hs hs' hspaces
      (allReady_kernel ⟨spaces.kernelTable, true⟩ (hs.spaces hspaces).shaped.kernel_top)
      fun hreq piece => hreq.phys_lt aligned (fun _ _ _ h => by cases h) piece

/-- The kernel tree of a manager that just started. -/
theorem confined_of_started (hst : Started format config stock m m')
    (h : m.Confined format config) (hs : m.Sound format stock) (aligned : config.Aligned) :
    m'.Confined format config where
  total := by rw [hst.sound.ledger.total, ← hs.ledger.total]; exact h.total
  mapped := by
    obtain ⟨frame, root, first, mid, hfirst, hroot, hledger, he, -, hmid, -⟩ := hst.tree
    have hshaped : first.arena.Shaped format root := by
      rw [hfirst, hroot]
      exact Arena.shaped_first frame false
    refine hmid.alike.mapsBelow (he.mapsBelow ⟨hledger, hshaped⟩
      (allReady_kernel ⟨root, false⟩ hshaped.kernel_top)
      (fun hreq piece => hreq.phys_lt aligned h.image piece) fun p i s mapping hs hm => ?_)
    rw [hfirst] at hs
    rw [Arena.slot_first hs] at hm
    cases hm
  image := by rw [hst.image]; exact h.image

/-- A root that shares slots of the kernel root maps what that maps. -/
theorem confined_of_created {space : AddressSpace} (hc : Created format stock space m m')
    (h : m.Confined format config) (hs : m.Sound format stock) : m'.Confined format config where
  total := by rw [(hc.sound hs).ledger.total, ← hs.ledger.total]; exact h.total
  mapped := fun p i s mapping hslot hm => by
    obtain ⟨spaces, root, -, hrooted, -, -⟩ := hc.rooted
    obtain ⟨q, hq⟩ := hrooted.exists_slot hslot (by rintro rfl; cases hm)
    exact h.mapped q i s mapping hq hm
  image := by rw [hc.image]; exact h.image

theorem confined_of_deleted {space : AddressSpace} (hd : Deleted format stock space m m')
    (h : m.Confined format config) (hs : m.Sound format stock) : m'.Confined format config where
  total := by rw [(hd.sound hs).ledger.total, ← hs.ledger.total]; exact h.total
  mapped := fun p i s mapping hslot hm => by
    obtain ⟨spaces, root, -, -, -, -, -, hpruned, -⟩ := hd.pruned
    rw [hpruned.slot (hpruned.not_mem_of_slot hslot)] at hslot
    exact h.mapped p i s mapping hslot hm
  image := by rw [hd.image]; exact h.image

/-- Every action keeps frames below the physical end, where its call is as asked. -/
theorem Manager.Effect.confined (e : Effect format config cpu stock m action stock' m')
    (h : m.Confined format config) (hs : m.Sound format stock) (aligned : config.Aligned)
    (rule : ∀ call, action.call? = some call → call.Nameable format config) :
    m'.Confined format config := by
  cases e with
  | refrained hr htotal =>
    refine ⟨?_, by rw [hr.calm.arena]; exact h.mapped, by rw [hr.image]; exact h.image⟩
    rw [hr.calm.ledger.total, htotal, ← hs.ledger.total]
    exact h.total
  | @covered map m' hc =>
    obtain ⟨hstop, hplaces⟩ := rule (.initFrames map) rfl
    refine ⟨?_, by rw [hc.calm.arena]; exact h.mapped, ?_⟩
    · rw [hc.total]
      exact Nat.le_trans (Nat.div_mul_le_self _ _) hstop
    · intro virt region hbase hregion
      rw [hc.image] at hregion
      rcases Option.or_eq_some_iff.mp hregion with hold | ⟨-, hnew⟩
      · exact h.image virt region hbase hold
      · exact hplaces virt region hbase hnew
  | started hi => exact confined_of_started hi.started h hs aligned
  | mappedKernel hk => exact confined_of_mappedKernel hk h hs aligned
  | created hc _ => exact confined_of_created hc h hs
  | deleted hd _ _ => exact confined_of_deleted hd h hs
  | @mappedUser space virt phys size m' hu =>
    exact confined_of_mappedUser hu.tables h hs (rule (.mapUser space virt phys size) rfl)
  | @mapped range m' hu _ => exact confined_of_mappedUser hu h hs (rule range.call rfl)
  | moved _ hq _ _ => exact hq.confined h

theorem Reachable.confined {poolPages : Nat} {s : System} (aligned : config.Aligned)
    (h : Reachable format config (Call.Nameable format config) poolPages s) :
    s.machine.Confined format config := by
  induction h with
  | start => exact confined_powerOn format config poolPages
  | step before hstep ih =>
    have hs := before.sound
    exact (hstep.effect hs).confined ih hs.machine aligned fun _ => hstep.rule before

/-! ## Walks in memory -/

/-- What a processor finds in memory from the root of a space is what the manager tells. -/
structure CommittedTo (format : Format) (m : Machine) (space : AddressSpace) (v : Nat) : Prop where
  /-- The walk ends at a mapping where the address is translated, at the same physical address. -/
  translation : m.translate format space v
    = .ok ((m.memory.walk format space.root v).map Memory.Walked.phys)
  /-- It finds the attributes of the mapping that covers the address, as far as entries hold
  them. -/
  attributes : ∃ found, m.covering format space v = .ok found
    ∧ (m.memory.walk format space.root v).map Memory.Walked.flags
      = found.map fun (mapping, _) => mapping.flags.heldBy format

theorem committedTo_of_sound (h : m.Sound format stock) (hc : m.Confined format config)
    {space : AddressSpace} (halive : m.Alive space) (v : Nat) : CommittedTo format m space v := by
  obtain ⟨root, hroot, hl, hf⟩ := rootTable_of_alive h halive
  obtain ⟨⟨spaces, hspaces, -⟩, -, -⟩ := rootTable_eq_some h hroot
  have hwalk := Arena.walk_eq_view (h.spaces hspaces).shaped (hc.nameable h) h.settled hl hf v
  refine ⟨?_, _, covering_eq_lookup h hroot v, ?_⟩
  · rw [translate_eq_view h hroot]
    have hphys := congrArg (Option.map Prod.fst) hwalk
    simp only [Option.map_map] at hphys
    rw [show Memory.Walked.phys = Prod.fst ∘ Memory.Walked.reached from rfl, hphys]
    rfl
  · have hflags := congrArg (Option.map Prod.snd) hwalk
    simp only [Option.map_map, Arena.view] at hflags
    rw [show Memory.Walked.flags = Prod.snd ∘ Memory.Walked.reached from rfl, hflags]
    rfl

/-- In every state that processors reach, whatever they were refused on the way, a walk in
memory from the root of a space tells what the manager tells, for every address. -/
theorem committed_walk {poolPages : Nat} {s : System} (aligned : config.Aligned)
    (h : Reachable format config (Call.Nameable format config) poolPages s)
    {space : AddressSpace} (halive : s.machine.Alive space) (v : Nat) :
    CommittedTo format s.machine space v :=
  committedTo_of_sound h.sound.machine (h.confined aligned) halive v

theorem aligned_mirrored : mirrored.Aligned := fun offset hoffset => by
  injection hoffset with hoffset
  rw [← hoffset]
  decide

/-- The calls that map kernel memory and the memory of a task keep the rule. -/
theorem exists_populated_nameable : ∃ s spaces space,
    Reachable .narrow mirrored (Call.Nameable .narrow mirrored) 0 s
      ∧ s.machine.Populated spaces space := by
  have placed : mirrored.Places mixedMap.image? := fun _ _ hbase => by cases hbase
  have ruled : Call.Nameable .narrow mirrored (.initFrames mixedMap) := ⟨by decide, placed⟩
  exact exists_populated ruled trivial trivial (fun _ => trivial) fun _ => rfl

/-- In particular where kernel memory has a second view and a task has memory of its own. -/
theorem committed_walk_of_task : ∃ s spaces space,
    Reachable .narrow mirrored (Call.Nameable .narrow mirrored) 0 s
      ∧ s.machine.Populated spaces space
      ∧ ∀ v, CommittedTo .narrow s.machine space v ∧ CommittedTo .narrow s.machine spaces.kernel v := by
  obtain ⟨s, spaces, space, hs, hmapped⟩ := exists_populated_nameable
  exact ⟨s, spaces, space, hs, hmapped, fun v =>
    ⟨committed_walk aligned_mirrored hs ⟨spaces, hmapped.known, .inr hmapped.task⟩ v,
      committed_walk aligned_mirrored hs ⟨spaces, hmapped.known, .inl rfl⟩ v⟩⟩

end

end KernelMemory
