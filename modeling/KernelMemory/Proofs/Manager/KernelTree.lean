/-
  KernelMemory.Proofs.Manager.KernelTree — what the kernel space shows once the manager is
  started.

  The regions of a boot map are in address order and have no address in common, so building the
  kernel tree adds them to an empty root one after another.  What the tree shows in the end is
  kernel memory at its addresses and nothing else, and that is what the processor is brought to.

  Main results:
    * `ends_populate_vacant` — the tree that is built;
    * `ends_init_shown`, `init_maps_kernel_memory` — the kernel space after the start;
    * `init_maps_kernel_memory_mixed` — a start with regions of two policies in one large page.
-/

import KernelMemory.Proofs.Boot.Regions
import KernelMemory.Proofs.Manager.Extension
import KernelMemory.Proofs.Manager.System

namespace KernelMemory

open Machine Manager Steps

variable {format : Format} {config : Config}

/-! ## The kernel space -/

/-- Memory in reach that belongs to a region of the map which the kernel owns and keeps mapped. -/
structure BootMap.Owns (format : Format) (map : BootMap) (region : BootRegion) (address : Nat) :
    Prop where
  listed : region ∈ map.regions
  owned : region.kind.isKernelOwned = true
  mapped : region.flags.noMap = false
  holds : region.Holds format address

/-- Kernel memory of a map. -/
def BootMap.KernelOwned (format : Format) (map : BootMap) (address : Nat) : Prop :=
  ∃ region, map.Owns format region address

/-- The kernel space of a map, as it is after the start: who uses it, and what is seen in it with
which attributes. -/
structure KernelBuilt (format : Format) (config : Config) (cpu : CpuId) (map : BootMap)
    (space : AddressSpace) (m m' : Machine) : Prop where
  /-- The root is in a frame that was free. -/
  fresh : m.store.frames.allocatePage.1 = .ok space.root
  loaded : (m'.cpu cpu).root = space.root
  feed : m'.rootFeed = space.root
  kernel : m'.kernelSpace = some space
  /-- An address in range is translated exactly where it shows kernel memory. -/
  translated : ∀ v, format.virtualInRange v = true →
    ∃ result, m'.translate format space v = .ok result
      ∧ ∀ a, result = some a ↔ map.KernelOwned format a ∧ config.Shows v a
  /-- The region decides the policy; everything is for the kernel alone, and writable. -/
  attributes : ∀ v region a, map.Owns format region a → config.Shows v a →
    ∃ mapping level, m'.covering format space v = .ok (some (mapping, level))
      ∧ mapping.flags.user = false ∧ mapping.flags.writable = true
      ∧ mapping.flags.cachePolicy
        = if region.kind = .device ∨ region.flags.uncached = true then .uncached else .writeBack

/-- The regions of a map that the manager maps. -/
abbrev mappedRegions (map : BootMap) : List BootRegion := map.regions.filter BootRegion.isMapped

variable {map : BootMap} {stock : Stock} {cpu : CpuId} {m m' : Machine}

theorem owns_iff {region : BootRegion} {a : Nat} :
    map.Owns format region a ↔ region ∈ mappedRegions map ∧ region.Holds format a := by
  rw [List.mem_filter, BootRegion.isMapped, Bool.and_eq_true, Bool.not_eq_true']
  constructor
  · rintro ⟨hlisted, howned, hmapped, hholds⟩
    exact ⟨⟨hlisted, howned, hmapped⟩, hholds⟩
  · rintro ⟨⟨hlisted, howned, hmapped⟩, hholds⟩
    exact ⟨hlisted, howned, hmapped, hholds⟩

theorem nonempty_of_mapped : ∀ region ∈ mappedRegions map, region.base < region.stop :=
  fun _ hr => (BootMap.bounds_of_mem (List.mem_of_mem_filter hr)).1

theorem apart_of_mapped : (mappedRegions map).Pairwise fun r r' => r.stop ≤ r'.base :=
  map.regions_apart.sublist List.filter_sublist

theorem regionsFit_of_map (frames : ∀ record ∈ map.records, record.base % frameSize = 0) :
    RegionsFit format (map.KernelOwned format) (mappedRegions map) where
  frames := fun _ hr => BootMap.frames_of_mem frames (List.mem_of_mem_filter hr)
  nonempty := nonempty_of_mapped
  apart := apart_of_mapped
  memory := fun region hr _ ha => ⟨region, owns_iff.mpr ⟨hr, ha⟩⟩

/-- Building the kernel tree of a map in an empty root. -/
theorem ends_populate_vacant {tree : KernelTree} {s : TableStore}
    (frames : ∀ record ∈ map.records, record.base % frameSize = 0)
    (hbase : config.kernelImageBase = none)
    (fits : config.SecondViewFits format (map.KernelOwned format))
    (h : TreeReady format tree stock s) (unsealed : tree.rootSealed = false)
    (htotal : 0 < stock.total) (vacant : ∀ w, s.arena.view format tree.root w = none)
    (image : Option MemoryRegion) :
    Ends (populate format config tree map image []) s
      (fun _ s' => Extended format tree stock (regionTables format (mappedRegions map))
        (RegionsShown format config (mappedRegions map)) s s')
      (onRefusal fun e _ => Short (regionTables format (mappedRegions map)) s e) := by
  rw [ends_populate_regions hbase]
  exact ends_mapRegions_vacant unsealed htotal fits h (regionsFit_of_map frames)
    fun _ _ w _ _ _ => vacant w

/-- What the kernel tree shows is what is translated in the kernel space, and with these
attributes. -/
theorem kernelBuilt_of_installed {space : AddressSpace} {root : TableId} {s : TableStore}
    (fits : config.SecondViewFits format (map.KernelOwned format))
    (hfresh : m.store.frames.allocatePage.1 = .ok space.root) (hsound : m'.Sound format stock)
    (hinstalled : Installed format cpu root space.root s m m')
    (hshown : ∀ {w q : Nat} {flags : PageFlags}, format.virtualInRange w = true →
      (s.arena.view format root w = some (q, flags)
        ↔ RegionsShown format config (mappedRegions map) w q flags)) :
    KernelBuilt format config cpu map space m m' := by
  have hroot := hinstalled.rootTable hsound
  refine ⟨hfresh, hinstalled.moved.root, hinstalled.feed, hinstalled.kernelSpace, fun v hv => ?_,
    fun v region a howns hshows => ?_⟩
  · refine ⟨_, hinstalled.translate hsound v, fun a => ?_⟩
    rw [Option.map_eq_some_iff]
    constructor
    · rintro ⟨⟨_, flags⟩, hview, rfl⟩
      obtain ⟨region, hregion, ⟨hholds, hshows⟩, -⟩ := (hshown hv).mp hview
      exact ⟨⟨region, owns_iff.mpr ⟨hregion, hholds⟩⟩, hshows⟩
    · rintro ⟨⟨region, howns⟩, hshows⟩
      obtain ⟨hregion, hholds⟩ := owns_iff.mp howns
      exact ⟨(a, _), (hshown hv).mpr ⟨region, hregion, ⟨hholds, hshows⟩, rfl⟩, rfl⟩
  · obtain ⟨hregion, hholds⟩ := owns_iff.mp howns
    have hview := (hshown (hshows.inRange fits ⟨region, howns⟩ hholds.reach)).mpr
      ⟨region, hregion, ⟨hholds, hshows⟩, rfl⟩
    obtain ⟨⟨mapping, level⟩, hfound, heq⟩ := Option.map_eq_some_iff.mp hview
    obtain ⟨-, hflags⟩ := Prod.mk.injEq .. ▸ heq
    refine ⟨mapping, level, ?_, ?_⟩
    · rw [covering_eq_lookup hsound hroot, hinstalled.lookup, hfound]
    · rw [hflags, PageFlags.user_withCachePolicy, PageFlags.writable_withCachePolicy,
        PageFlags.cachePolicy_withCachePolicy]
      refine ⟨rfl, rfl, ?_⟩
      unfold regionPolicy BootRegion.isUncached
      simp only [Bool.or_eq_true, beq_iff_eq]

/-- Where the manager starts, its kernel space is that of the map, the processor did not enter it from
another, and frames went to tables and the root alone; where it does not, there were too few frames
for the tables. -/
theorem ends_init_shown (h : m.Sound format stock) (hspaces : m.spaces = none)
    (initialized : m.store.frames.isInitialized = true)
    (frames : ∀ record ∈ map.records, record.base % frameSize = 0)
    (hbase : config.kernelImageBase = none)
    (fits : config.SecondViewFits format (map.KernelOwned format)) :
    Ends (init format config cpu map []) m
      (fun space m' => KernelBuilt format config cpu map space m m' ∧ savedRoot m' cpu = none
        ∧ m.store.frames.available .normal
          ≤ m'.store.frames.available .normal + 1 + regionTables format (mappedRegions map))
      (onRefusal fun e _ => e = .outOfMemory
        ∧ m.store.frames.available .normal ≤ regionTables format (mappedRegions map)) := by
  have hwf := h.ledger.allocator
  refine (ends_init_of_populate h hspaces
    (fun root s => (∀ {w q : Nat} {flags : PageFlags}, format.virtualInRange w = true →
      (s.arena.view format root w = some (q, flags)
        ↔ RegionsShown format config (mappedRegions map) w q flags))
      ∧ m.store.frames.available .normal
        ≤ s.frames.available .normal + 1 + regionTables format (mappedRegions map))
    (fun e => e = .outOfMemory
      ∧ m.store.frames.available .normal ≤ regionTables format (mappedRegions map))
    fun {frame root s} hallocated hfirst => ?_).weaken (fun space m' hdone => ?_)
    fun e m' he => ?_
  · have hspent := FrameAllocator.available_of_allocatePage hwf hallocated
    have htotal : 0 < stock.total := by
      obtain ⟨taken, -, hfree, -⟩ := FrameAllocator.allocatePage_ok hwf hallocated
      rw [← h.ledger.total]
      exact Nat.zero_lt_of_lt (FrameAllocator.lt_totalPages hfree)
    refine (ends_populate_vacant frames hbase fits hfirst.ready rfl htotal hfirst.view_root _).weaken
      (fun _ s' h' => ⟨fun {w q flags} hw => ?_, ?_⟩) fun e _ he => ⟨he.1, ?_⟩
    · rw [h'.view hw, hfirst.view_root, or_iff_right (by simp)]
    · have htables := h'.spent
      omega
    · have hless := he.2
      omega
  · obtain ⟨hinit, hfresh, root, s, ⟨hshown, hspent⟩, hinstalled⟩ := hdone
    refine ⟨kernelBuilt_of_installed fits hfresh hinit.started.sound hinstalled hshown,
      savedRoot_of_moved hinstalled.moved, ?_⟩
    rw [hinstalled.frames]
    exact hspent
  · obtain ⟨-, hshort | ⟨error, herror, rfl⟩⟩ := he
    · exact hshort
    · obtain ⟨rfl, hnone⟩ := FrameAllocator.outOfMemory_of_allocatePage hwf initialized herror
      exact ⟨rfl, by omega⟩

/-- Before the manager was started, with an allocator that was: the manager starts, and its kernel
space shows kernel memory and nothing else, or there were too few frames for the tables. -/
theorem init_maps_kernel_memory (cpu : CpuId) (hwf : m.store.frames.WellFormed)
    (initialized : m.store.frames.isInitialized = true) (hspaces : m.spaces = none)
    (hempty : m.store.arena = Arena.empty)
    (frames : ∀ record ∈ map.records, record.base % frameSize = 0)
    (hbase : config.kernelImageBase = none)
    (fits : config.SecondViewFits format (map.KernelOwned format)) :
    (∃ space m', init format config cpu map [] m = .ok space m'
        ∧ KernelBuilt format config cpu map space m m')
      ∨ ∃ m', init format config cpu map [] m = .error (.refused .outOfMemory) m'
        ∧ m.store.frames.available .normal ≤ regionTables format (mappedRegions map) := by
  have hsound : m.Sound format m.store.frames.inUse := sound_unstarted hwf hspaces hempty
  have hends : Ends (init format config cpu map []) m _ _ :=
    ends_init_shown hsound hspaces initialized frames hbase fits
  cases hinit : init format config cpu map [] m with
  | ok space m' => exact .inl ⟨space, m', rfl, (hends.of_ok hinit).1⟩
  | error failure m' =>
    have hfailed := hends.of_error hinit
    cases failure with
    | fault fault => exact hfailed.elim
    | refused error =>
      obtain ⟨rfl, hshort⟩ := hfailed
      exact .inr ⟨m', rfl, hshort⟩

/-! ### Regions of two policies in one large page -/

/-- The kernel image, a device and a gap, and memory that is not mapped. -/
def mixedMap : BootMap :=
  ⟨[⟨0, .kernelImage, .none⟩, ⟨0x2000, .device, .none⟩, ⟨0x3000, .reserved, .none⟩,
    ⟨0x4000, .free, ⟨false, true⟩⟩, ⟨2 ^ 26, .endMarker, .none⟩], by decide⟩

/-- A second view in the upper half. -/
def mirrored : Config := { directMapOffset := some 0x80000000 }

theorem mappedRegions_mixedMap : mappedRegions mixedMap
    = [⟨⟨0, 0x2000⟩, .kernelImage, .none⟩, ⟨⟨0x2000, 0x1000⟩, .device, .none⟩] := by decide

theorem regionTables_mixedMap : regionTables .narrow (mappedRegions mixedMap) = 12 := by
  rw [mappedRegions_mixedMap]
  rfl

theorem kernelOwned_mixedMap {a : Nat} : mixedMap.KernelOwned .narrow a ↔ a < 0x3000 := by
  unfold BootMap.KernelOwned
  simp only [owns_iff, mappedRegions_mixedMap, List.mem_cons, List.mem_nil_iff, or_false,
    or_and_right, exists_or, exists_eq_left]
  constructor
  · rintro (h | h)
    · have hstop : a < 0x2000 := h.stop
      omega
    · exact h.stop
  · intro hlt
    have hreach : a < Format.narrow.reach := Nat.lt_trans hlt (by decide)
    by_cases hfirst : a < 0x2000
    · exact .inl ⟨Nat.zero_le a, hfirst, hreach⟩
    · exact .inr ⟨Nat.le_of_not_lt hfirst, hlt, hreach⟩

theorem mirrored_fits : mirrored.SecondViewFits .narrow (mixedMap.KernelOwned .narrow) where
  pages := by
    rintro _ ⟨⟩
    decide
  inRange := by
    rintro _ a ⟨⟩ ha
    have hlt := kernelOwned_mixedMap.mp ha
    exact Format.inRange_narrow.mpr (show 0x80000000 + a < 2 ^ 32 by omega)
  apart := by
    rintro _ a b ⟨⟩ - hb
    have hlt := kernelOwned_mixedMap.mp hb
    show 0x80000000 + a ≠ b
    omega

/-- The allocator starts with nearly all of the memory that is not mapped. -/
theorem exists_framed_mixedMap {Rule : Call → Prop} (rule : Rule (.initFrames mixedMap)) :
    ∃ m stock, Answered .narrow mirrored Rule 0 [(0, .initFrames mixedMap)] m stock
      ∧ m.store.frames.isInitialized = true ∧ m.spaces = none
      ∧ 16380 ≤ m.store.frames.available .normal := by
  obtain ⟨m, stock, h, hframes, hspaces⟩ : ∃ m stock,
      Answered .narrow mirrored Rule 0 [(0, .initFrames mixedMap)] m stock ∧ _ ∧ _ :=
    answered_initFrames (by decide) rule 0
  have hlisted : (⟨⟨0x4000, 2 ^ 26 - 0x4000⟩, .free, ⟨false, true⟩⟩ : BootRegion)
      ∈ mixedMap.regions := by decide
  have hstop : (16384 : Nat) = mixedMap.stop / frameSize := by decide
  refine ⟨m, stock, h, by rw [hframes]; rfl, hspaces, ?_⟩
  rw [hframes]
  refine FrameAllocator.le_available_init (by decide) (by decide) hlisted
    (show 0 < 4 by decide) (Nat.le_of_eq hstop) (fun frame hle hlt => ⟨rfl, ?_, ?_⟩) {}
  · show ¬ frame * 4096 < 0x4000
    omega
  · show ¬ 2 ^ 26 < (frame + 1) * 4096
    omega

theorem translate_mixedMap {cpu : CpuId} {space : AddressSpace} {m m' : Machine}
    (h : KernelBuilt .narrow mirrored cpu mixedMap space m m') {v a : Nat}
    (hv : Format.narrow.virtualInRange v = true) (ha : a < 0x3000) (hshows : mirrored.Shows v a) :
    m'.translate .narrow space v = .ok (some a) := by
  obtain ⟨result, htranslate, hresult⟩ := h.translated v hv
  rw [htranslate, (hresult a).mpr ⟨kernelOwned_mixedMap.mpr ha, hshows⟩]

/-- The three regions meet in the first large page.  The manager starts there, the gap and page 0
are left out, and the device is not cached. -/
theorem init_maps_kernel_memory_mixed : ∃ m space m',
    m.store.frames.isInitialized = true ∧ m.spaces = none
      ∧ init .narrow mirrored 0 mixedMap [] m = .ok space m'
      ∧ KernelBuilt .narrow mirrored 0 mixedMap space m m'
      ∧ m'.translate .narrow space 0x2004 = .ok (some 0x2004)
      ∧ m'.translate .narrow space 0x80000004 = .ok (some 4)
      ∧ m'.translate .narrow space 4 = .ok none
      ∧ m'.translate .narrow space 0x3004 = .ok none := by
  obtain ⟨m, stock, h, initialized, hspaces, henough⟩ : ∃ m stock,
      Answered .narrow mirrored AnyCall 0 [(0, .initFrames mixedMap)] m stock ∧ _ ∧ _ ∧ _ :=
    exists_framed_mixedMap trivial
  have hsound : m.Sound .narrow stock := h.reachable.sound.machine
  rcases init_maps_kernel_memory 0 hsound.ledger.allocator initialized hspaces
    (hsound.unstarted hspaces) (by decide) rfl mirrored_fits with ⟨space, m', hinit, hbuilt⟩ | ⟨_, -, hshort⟩
  · have hnone : ∀ {v : Nat}, Format.narrow.virtualInRange v = true →
        (∀ a, a < 0x3000 → ¬ mirrored.Shows v a) → m'.translate .narrow space v = .ok none := by
      intro v hv hshows
      obtain ⟨result, htranslate, hresult⟩ := hbuilt.translated v hv
      have hempty : result = none := by
        refine Option.eq_none_iff_forall_ne_some.mpr fun a ha => ?_
        obtain ⟨howned, hshown⟩ := (hresult a).mp ha
        exact hshows a (kernelOwned_mixedMap.mp howned) hshown
      rw [htranslate, hempty]
    refine ⟨m, space, m', initialized, hspaces, hinit, hbuilt, ?_, ?_, ?_, ?_⟩
    · exact translate_mixedMap hbuilt (by decide) (by decide) ⟨by decide, .inl rfl⟩
    · exact translate_mixedMap hbuilt (by decide) (by decide) ⟨by decide, .inr ⟨_, rfl, rfl⟩⟩
    · refine hnone (by decide) fun a _ hshows => ?_
      exact absurd hshows.1 (by decide)
    · refine hnone (by decide) fun a ha hshows => ?_
      obtain ⟨-, heq | ⟨_, ⟨⟩, heq⟩⟩ := hshows
      · omega
      · omega
  · rw [regionTables_mixedMap] at hshort
    omega

end KernelMemory
