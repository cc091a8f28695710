/-
  KernelMemory.Proofs.Manager.Policies — how boot regions are cached.

  A region gives its policy to all of every page that it is seen in, and records may start anywhere,
  so two regions may be seen in one page.  The later one decides then.  A device is therefore not
  cached, but for a page that it shares with a later region that is: there its registers are cached
  too.

  Main results:
    * `exists_regionSheet_iff` — the pages that a region is seen in;
    * `regionsSheet_last` — the last region that is seen in a page decides on it;
    * `uncached_unless_shared` — the policy of a device after the start;
    * `device_cached` — a device whose last page is cached.
-/

import KernelMemory.Proofs.Manager.Sheets

namespace KernelMemory

open Machine Manager Steps

variable {format : Format} {config : Config} {region : BootRegion} {virt phys size w : Nat}
  {flags : PageFlags}

/-! ## Pages that regions are seen in -/

/-- Some of a region's memory in reach is seen in a page. -/
def BootRegion.SeenIn (format : Format) (config : Config) (region : BootRegion) (page : Nat) : Prop :=
  ∃ a shift, region.Holds format a ∧ Shift config shift ∧ (a + shift) / frameSize = page

/-- A range shows the pages that it has a part in. -/
theorem exists_rangeSheet_iff (hpos : 0 < size) (hsize : size ≤ 2 ^ 52) (hw : frameSize ≤ w) :
    (∃ q, rangeSheet virt phys size flags w = some (q, flags))
      ↔ ∃ x, virt ≤ x ∧ x < virt + size ∧ x / frameSize = w / frameSize := by
  obtain ⟨v, p, length, hb⟩ : ∃ v p length : Nat, pageBounds virt phys size = some (v, p, length) :=
    exists_pageBounds virt phys hsize
  obtain ⟨hv, -, hl, hle, hlt, -, -, hend, hend'⟩ := pageBounds_spec hb
  have hsheet : rangeSheet virt phys size flags w
      = if frameSize ≤ w ∧ v ≤ w ∧ w < v + length then some (p + (w - v), flags) else none := by
    rw [rangeSheet, if_neg (Nat.ne_of_gt hpos), hb]
    rfl
  rw [hsheet]
  simp only [frameSize] at *
  constructor
  · rintro ⟨q, hq⟩
    split at hq
    · rename_i hin
      -- the address itself, or the first or last one of the range in its page
      rcases Nat.lt_or_ge w virt with hlow | hlow
      · exact ⟨virt, Nat.le_refl _, by omega, by omega⟩
      · rcases Nat.lt_or_ge w (virt + size) with hhigh | hhigh
        · exact ⟨w, hlow, hhigh, rfl⟩
        · exact ⟨virt + size - 1, by omega, by omega, by omega⟩
    · cases hq
  · rintro ⟨x, hxle, hxlt, hpage⟩
    refine ⟨p + (w - v), if_pos ⟨hw, by omega, by omega⟩⟩

theorem exists_viewsSheet_iff {views : List VirtAddr} :
    (∃ q, viewsSheet phys size flags views w = some (q, flags))
      ↔ ∃ virt ∈ views, ∃ q, rangeSheet virt phys size flags w = some (q, flags) := by
  induction views with
  | nil => simp [viewsSheet, Sheet.blank]
  | cons virt rest ih =>
    rw [viewsSheet, Sheet.onto, List.exists_mem_cons_iff, ← ih]
    cases hrest : viewsSheet phys size flags rest w with
    | none => simp
    | some found =>
      have hflags := viewsSheet_flags hrest
      simp only [Option.some_or, Option.some.injEq]
      exact ⟨fun h => .inr h, fun _ => ⟨found.1, by rw [← hflags]⟩⟩

/-- A region shows the pages that it is seen in, with its policy. -/
theorem exists_regionSheet_iff (nonempty : region.base < region.stop) (hw : frameSize ≤ w) :
    (∃ q, regionSheet format config region w = some (q, regionFlags region))
      ↔ region.SeenIn format config (w / frameSize) := by
  unfold BootRegion.SeenIn
  by_cases hin : region.base < format.reach
  · have hlow : region.base < min region.stop format.reach := Nat.lt_min.mpr ⟨nonempty, hin⟩
    have hsize : min region.stop format.reach - region.base ≤ 2 ^ 52 := by
      have hle := Nat.min_le_right region.stop format.reach
      have hreach := format.reach_le_physicalEnd
      have hend := format.physicalEnd_le
      omega
    have hclipped : Clipped format region region.base
        (min region.stop format.reach - region.base) :=
      ⟨rfl, Nat.sub_pos_of_lt hlow, Nat.add_sub_cancel' (Nat.le_of_lt hlow)⟩
    rw [regionSheet, if_pos hin, memorySheet, exists_viewsSheet_iff]
    simp only [mem_views_iff, exists_rangeSheet_iff (Nat.sub_pos_of_lt hlow) hsize hw,
      hclipped.holds_iff]
    constructor
    · rintro ⟨_, ⟨shift, hshift, rfl⟩, x, hle, hlt, hpage⟩
      exact ⟨x - shift, shift, ⟨by omega, by omega⟩, hshift, by
        rw [Nat.sub_add_cancel (by omega)]
        exact hpage⟩
    · rintro ⟨a, shift, ⟨hle, hlt⟩, hshift, hpage⟩
      exact ⟨_, ⟨shift, hshift, rfl⟩, a + shift, by omega, by omega, hpage⟩
  · rw [regionSheet, if_neg hin]
    constructor
    · rintro ⟨q, hq⟩
      cases hq
    · rintro ⟨a, -, hholds, -⟩
      exact absurd (Nat.lt_of_le_of_lt hholds.base hholds.reach) hin

theorem regionSheet_flags {found : Nat × PageFlags}
    (h : regionSheet format config region w = some found) : found.2 = regionFlags region := by
  unfold regionSheet at h
  split at h
  · exact viewsSheet_flags h
  · cases h

/-! ## The region that decides -/

theorem regionsSheet_unseen {regions : List BootRegion}
    (nonempty : ∀ region ∈ regions, region.base < region.stop) (hw : frameSize ≤ w)
    (hunseen : ∀ region ∈ regions, ¬ region.SeenIn format config (w / frameSize)) :
    regionsSheet format config regions w = none := by
  induction regions with
  | nil => rfl
  | cons first rest ih =>
    have hfirst : regionSheet format config first w = none := by
      refine Option.eq_none_iff_forall_ne_some.mpr fun found hfound => ?_
      refine hunseen first List.mem_cons_self
        ((exists_regionSheet_iff (nonempty first List.mem_cons_self) hw).mp ⟨found.1, ?_⟩)
      rw [hfound, ← regionSheet_flags hfound]
    rw [regionsSheet, Sheet.onto, hfirst, Option.or_none]
    exact ih (fun r hr => nonempty r (List.mem_cons_of_mem first hr))
      fun r hr => hunseen r (List.mem_cons_of_mem first hr)

/-- Of the regions that are seen in a page, this one comes last. -/
structure LastSeen (format : Format) (config : Config) (regions : List BootRegion) (page : Nat)
    (last : BootRegion) : Prop where
  mem : last ∈ regions
  seen : last.SeenIn format config page
  later : ∀ region ∈ regions, region.SeenIn format config page →
    region = last ∨ region.stop ≤ last.base

/-- Where a region is seen, the last one that is decides. -/
theorem regionsSheet_last {regions : List BootRegion}
    (nonempty : ∀ region ∈ regions, region.base < region.stop)
    (apart : regions.Pairwise fun r r' => r.stop ≤ r'.base) (hw : frameSize ≤ w)
    (hregion : region ∈ regions) (hseen : region.SeenIn format config (w / frameSize)) :
    ∃ q last, LastSeen format config regions (w / frameSize) last
      ∧ regionsSheet format config regions w = some (q, regionFlags last) := by
  -- from the last region to the first: one that is seen hides those before it
  induction regions generalizing region with
  | nil => cases hregion
  | cons first rest ih =>
    obtain ⟨hfirst, apart⟩ := List.pairwise_cons.mp apart
    have hrest : ∀ r ∈ rest, r.base < r.stop :=
      fun r hr => nonempty r (List.mem_cons_of_mem first hr)
    by_cases hhidden : ∃ r ∈ rest, r.SeenIn format config (w / frameSize)
    · obtain ⟨r, hr, hin⟩ := hhidden
      obtain ⟨q, last, hlast, hsheet⟩ := ih hrest apart hr hin
      refine ⟨q, last, ⟨List.mem_cons_of_mem first hlast.mem, hlast.seen, fun r' hr' hin' => ?_⟩, ?_⟩
      · cases List.mem_cons.mp hr' with
        | inl hsame => exact .inr (hsame ▸ hfirst last hlast.mem)
        | inr hr' => exact hlast.later r' hr' hin'
      · rw [regionsSheet, Sheet.onto, hsheet]
        rfl
    · have hunseen : ∀ r ∈ rest, ¬ r.SeenIn format config (w / frameSize) :=
        fun r hr hin => hhidden ⟨r, hr, hin⟩
      have hsame : region = first :=
        (List.mem_cons.mp hregion).resolve_right fun hr => hunseen region hr hseen
      subst hsame
      obtain ⟨q, hsheet⟩ :=
        (exists_regionSheet_iff (nonempty region List.mem_cons_self) hw).mpr hseen
      refine ⟨q, region, ⟨List.mem_cons_self, hseen, fun r' hr' hin' => ?_⟩, ?_⟩
      · exact .inl ((List.mem_cons.mp hr').resolve_right fun hr' => hunseen r' hr' hin')
      · rw [regionsSheet, Sheet.onto, regionsSheet_unseen hrest hw hunseen, hsheet]
        rfl

/-! ## After the start -/

variable {m m' : Machine} {stock : Stock} {cpu : CpuId} {map : BootMap} {space : AddressSpace}

/-- With nothing else to map, the kernel space shows the regions. -/
theorem ends_init_painted (h : m.Sound format stock) (hspaces : m.spaces = none)
    (hbase : config.kernelImageBase = none) :
    Ends (init format config cpu map []) m
      (fun space m' => ∀ {w q flags},
        regionsSheet format config (mappedRegions map) w = some (q, flags) →
        ∃ mapping level, m'.covering format space w = .ok (some (mapping, level))
          ∧ mapping.frame + w % format.span level = q ∧ mapping.flags = flags)
      (onRefusal fun _ _ => True) := by
  refine (ends_init_of_populate h hspaces
    (fun root s => ∀ {w q flags}, regionsSheet format config (mappedRegions map) w = some (q, flags) →
      s.arena.view format root w = some (q, flags)) (fun _ => True)
    fun {frame root s} _ hfirst => ?_).weaken (fun space m' hdone w q flags hsheet => ?_)
    fun _ _ _ => trivial
  · refine ((ends_populate hfirst.ready).and ((ends_populate_regions hbase).mpr
      (ends_mapRegions_painted nonempty_of_mapped hfirst.ready))).mono (fun _ s' hs => ?_) fun f _ hf => ?_
    · intro w q flags hsheet
      rw [hs.2.view (hs.2.inRange hsheet), Sheet.onto, hsheet]
      rfl
    · cases f with
      | refused error => trivial
      | fault fault => exact hf.1
  · obtain ⟨hinit, -, root, s, hshown, hinstalled⟩ := hdone
    have hsound := hinit.started.sound
    obtain ⟨⟨mapping, level⟩, hfound, heq⟩ := Option.map_eq_some_iff.mp (hshown hsheet)
    obtain ⟨hframe, hflags⟩ := Prod.mk.injEq .. ▸ heq
    refine ⟨mapping, level, ?_, hframe, hflags⟩
    rw [covering_eq_lookup hsound (hinstalled.rootTable hsound), hinstalled.lookup, hfound]

/-- After the start, a device and memory marked as uncached have the policy of the last region that is
seen in the same page, wherever they are seen.  So they are not cached, unless a later region that is
cached is seen in that page. -/
theorem uncached_unless_shared (hwf : m.store.frames.WellFormed) (hspaces : m.spaces = none)
    (hempty : m.store.arena = Arena.empty) (hbase : config.kernelImageBase = none)
    (e : init format config cpu map [] m = .ok space m') {a : Nat}
    (hregion : region ∈ mappedRegions map) (huncached : region.isUncached = true)
    (hholds : region.Holds format a) (hshows : config.Shows w a) :
    ∃ last mapping level, LastSeen format config (mappedRegions map) (w / frameSize) last
      ∧ (last = region ∨ region.stop ≤ last.base)
      ∧ m'.covering format space w = .ok (some (mapping, level))
      ∧ mapping.flags.cachePolicy = regionPolicy last
      ∧ ((∀ later ∈ mappedRegions map, region.stop ≤ later.base →
          later.SeenIn format config (w / frameSize) → later.isUncached = true) →
        mapping.flags.cachePolicy = .uncached) := by
  have hsound : m.Sound format m.store.frames.inUse := sound_unstarted hwf hspaces hempty
  obtain ⟨hnull, hview⟩ := hshows
  have hseen : region.SeenIn format config (w / frameSize) := by
    rcases hview with rfl | ⟨offset, hoffset, rfl⟩
    · exact ⟨w, 0, hholds, .inl rfl, rfl⟩
    · exact ⟨a, offset, hholds, .inr hoffset, by rw [Nat.add_comm]⟩
  obtain ⟨q, last, hlast, hsheet⟩ :=
    regionsSheet_last nonempty_of_mapped apart_of_mapped hnull hregion hseen
  obtain ⟨mapping, level, hcovering, -, hflags⟩ :=
    (ends_init_painted hsound hspaces hbase).of_ok e hsheet
  have hpolicy : mapping.flags.cachePolicy = regionPolicy last := by
    rw [hflags, PageFlags.cachePolicy_withCachePolicy]
  have horder : last = region ∨ region.stop ≤ last.base :=
    (hlast.later region hregion hseen).imp_left Eq.symm
  refine ⟨last, mapping, level, hlast, horder, hcovering, hpolicy, fun hlater => ?_⟩
  have hlast' : last.isUncached = true := by
    rcases horder with rfl | hafter
    · exact huncached
    · exact hlater last hlast.mem hafter hlast.seen
  rw [hpolicy, regionPolicy, if_pos hlast']

/-! ### A device that shares its last page -/

/-- With frames enough, and no two regions in each other's way, the manager starts. -/
theorem exists_init_unclashed (h : m.Sound format stock) (hspaces : m.spaces = none)
    (initialized : m.store.frames.isInitialized = true) (hbase : config.kernelImageBase = none)
    (fits : config.SecondViewFits format fun a => a < format.reach) (cpu : CpuId)
    (unclashed : ∀ region ∈ mappedRegions map, ∀ later ∈ mappedRegions map,
      ¬ Clash format region later)
    (enough : regionTables format ((mappedRegions map).map BootRegion.roundedOut)
      < m.store.frames.available .normal) :
    ∃ space m', init format config cpu map [] m = .ok space m' := by
  have hwf := h.ledger.allocator
  have hends : Ends (init format config cpu map []) m (fun _ _ => True) (fun _ _ => False) := by
    refine (ends_init_of_populate h hspaces (fun _ _ => True) (fun _ => False)
      fun {frame root s} hallocated hfirst => ?_).mono (fun _ _ _ => trivial) fun f m' hf => ?_
    · have hspent := FrameAllocator.available_of_allocatePage hwf hallocated
      refine (ends_populate_laid hbase fits hfirst _).weaken (fun _ _ _ => trivial) fun e _ he => ?_
      rcases he with hshort | ⟨-, -, region, hregion, later, hlater, hclash⟩
      · have hless := hshort.2
        omega
      · exact unclashed region hregion later hlater hclash
    · cases f with
      | fault fault => exact hf
      | refused error =>
        obtain ⟨-, hfalse | ⟨error', herror, -⟩⟩ := hf
        · exact hfalse
        · have hnone := (FrameAllocator.outOfMemory_of_allocatePage hwf initialized herror).2
          omega
  obtain ⟨space, m', e, -⟩ := exists_of_ends hends
  exact ⟨space, m', e⟩

/-- Free memory, a device, and the kernel image from the middle of the device's second page on. -/
def pairedMap : BootMap :=
  ⟨[⟨0, .free, ⟨false, true⟩⟩, ⟨0x40000, .device, .none⟩, ⟨0x41800, .kernelImage, .none⟩,
    ⟨0x42000, .endMarker, .none⟩], by decide⟩

theorem mappedRegions_pairedMap : mappedRegions pairedMap
    = [⟨⟨0x40000, 0x1800⟩, .device, .none⟩, ⟨⟨0x41800, 0x800⟩, .kernelImage, .none⟩] := by decide

/-- No large page is in the way of the start. -/
theorem exists_init_pairedMap : ∃ m stock space m',
    Answered .narrow {} AnyCall 0 [(0, .initFrames pairedMap)] m stock
      ∧ m.spaces = none ∧ init .narrow {} 0 pairedMap [] m = .ok space m' := by
  obtain ⟨m, stock, h, hframes, hspaces⟩ : ∃ m stock,
      Answered .narrow {} AnyCall 0 [(0, .initFrames pairedMap)] m stock ∧ _ ∧ _ :=
    answered_initFrames (by decide) trivial 0
  have initialized : m.store.frames.isInitialized = true := by
    rw [hframes]
    rfl
  have enough : regionTables .narrow ((mappedRegions pairedMap).map BootRegion.roundedOut)
      < m.store.frames.available .normal := by
    rw [hframes]
    decide +kernel
  have fits : ({} : Config).SecondViewFits .narrow fun a => a < Format.narrow.reach :=
    secondViewFits_of_upper (.inl rfl)
  have unclashed : ∀ region ∈ mappedRegions pairedMap, ∀ later ∈ mappedRegions pairedMap,
      ¬ Clash .narrow region later := by
    intro region hregion later _ hclash
    obtain ⟨block, -, hend⟩ := hclash.fills
    have hsmall : ceilTo frameSize region.stop ≤ 0x42000 := by
      rw [mappedRegions_pairedMap] at hregion
      rcases List.mem_pair.mp hregion with rfl | rfl
      · decide
      · decide
    have hspan : Format.narrow.span Format.largeLevel = 0x400000 := by decide
    omega
  obtain ⟨space, m', e⟩ := exists_init_unclashed h.reachable.sound.machine hspaces initialized rfl
    fits 0 unclashed enough
  exact ⟨m, stock, space, m', h, hspaces, e⟩

/-- The device's first page is its own, and is not cached. -/
theorem uncached_unless_shared_pairedMap : ∃ m space m' mapping level,
    m.store.frames.WellFormed ∧ m.spaces = none ∧ m.store.arena = Arena.empty
      ∧ init .narrow {} 0 pairedMap [] m = .ok space m'
      ∧ m'.covering .narrow space 0x40000 = .ok (some (mapping, level))
      ∧ mapping.flags.cachePolicy = .uncached := by
  obtain ⟨m, stock, space, m', h, hspaces, e⟩ := exists_init_pairedMap
  have hsound := h.reachable.sound.machine
  have hdevice : (⟨⟨0x40000, 0x1800⟩, .device, .none⟩ : BootRegion) ∈ mappedRegions pairedMap := by
    rw [mappedRegions_pairedMap]
    exact List.mem_cons_self
  have hholds : (⟨⟨0x40000, 0x1800⟩, .device, .none⟩ : BootRegion).Holds .narrow 0x40000 :=
    ⟨by decide, by decide, by decide⟩
  have hshows : ({} : Config).Shows 0x40000 0x40000 := ⟨by decide, .inl rfl⟩
  obtain ⟨last, mapping, level, hlast, -, hcovering, -, huncached⟩ :=
    uncached_unless_shared hsound.ledger.allocator hspaces (hsound.unstarted hspaces) rfl e hdevice
      rfl hholds hshows
  refine ⟨m, space, m', mapping, level, hsound.ledger.allocator, hspaces, hsound.unstarted hspaces,
    e, hcovering, huncached fun later hlater hafter hin => ?_⟩
  rw [mappedRegions_pairedMap] at hlater
  rcases List.mem_pair.mp hlater with rfl | rfl
  · rfl
  · -- the kernel image is not seen in that page
    obtain ⟨a, shift, hholds', hshift, hpage⟩ := hin
    have hbase : 0x41800 ≤ a := hholds'.base
    simp only [frameSize] at hpage
    omega

/-- The kernel image takes over the second page, and with it the device's last addresses. -/
theorem device_cached : ∃ m stock space m' mapping level region,
    Answered .narrow {} AnyCall 0 [(0, .initFrames pairedMap)] m stock ∧ m.spaces = none
      ∧ init .narrow {} 0 pairedMap [] m = .ok space m'
      ∧ region ∈ mappedRegions pairedMap ∧ region.kind = .device ∧ region.Holds .narrow 0x41000
      ∧ m'.covering .narrow space 0x41000 = .ok (some (mapping, level))
      ∧ mapping.flags.cachePolicy = .writeBack := by
  obtain ⟨m, stock, space, m', h, hspaces, e⟩ := exists_init_pairedMap
  have hsheet : regionsSheet .narrow {} (mappedRegions pairedMap) 0x41000
      = some (0x41000, PageFlags.kernelData.withCachePolicy .writeBack) := by
    rw [mappedRegions_pairedMap]
    decide +kernel
  obtain ⟨mapping, level, hcovering, -, hflags⟩ :=
    (ends_init_painted h.reachable.sound.machine hspaces rfl).of_ok e hsheet
  refine ⟨m, stock, space, m', mapping, level, ⟨⟨0x40000, 0x1800⟩, .device, .none⟩, h, hspaces, e, ?_,
    rfl, ⟨by decide, by decide, by decide⟩, hcovering, ?_⟩
  · rw [mappedRegions_pairedMap]
    exact List.mem_cons_self
  · rw [hflags, PageFlags.cachePolicy_withCachePolicy]

end KernelMemory
