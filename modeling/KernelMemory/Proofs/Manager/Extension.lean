/-
  KernelMemory.Proofs.Manager.Extension — mapping memory where nothing is mapped yet.

  Kernel memory is seen at its own address and, where the configuration says so, once more at an
  offset.  Regions that have no address in common, and whose second view lies apart from the
  first, are never in each other's way: each adds its addresses to what the kernel tree shows,
  with a policy of its own (`Extended`), also where several of them share a large page or a
  table.  Only frames for tables can be wanting (`Short`).

  Main results:
    * `ends_mapView_vacant`, `ends_mapViews_vacant` — a range of pages, in one view and in all;
    * `ends_mapRegions_vacant` — regions one after another, each clipped to what is in reach.
-/

import KernelMemory.Proofs.Manager.Requests

namespace KernelMemory

open Machine Manager Steps

/-! ## Memory within reach -/

/-- First address that a format cannot map at itself. -/
def Format.reach (format : Format) : Nat := min format.physicalEnd format.identityEnd

theorem Format.reach_mod (format : Format) : format.reach % frameSize = 0 := by
  cases format <;> decide

theorem Format.reach_le_physicalEnd (format : Format) : format.reach ≤ format.physicalEnd :=
  Nat.min_le_left _ _

theorem Format.inRange_of_lt_reach {format : Format} {v : Nat} (h : v < format.reach) :
    format.virtualInRange v = true := by
  have hlt : v < format.identityEnd := Nat.lt_of_lt_of_le h (Nat.min_le_right _ _)
  cases format with
  | narrow => exact inRange_narrow.mpr hlt
  | wide =>
    have hlt : v < 2 ^ 47 := hlt
    exact inRange_wide.mpr (by omega)

/-- A region has memory at an address that the format can map at itself. -/
structure BootRegion.Holds (format : Format) (region : BootRegion) (address : Nat) : Prop where
  base : address ≥ region.base
  stop : address < region.stop
  reach : address < format.reach

/-- Memory at an address is seen at a virtual one: at itself and at the configured offset, but
never in page 0. -/
def Config.Shows (config : Config) (virt address : Nat) : Prop :=
  frameSize ≤ virt
    ∧ (virt = address ∨ ∃ offset, config.directMapOffset = some offset ∧ virt = offset + address)

theorem Config.shows_of_none {config : Config} {w a : Nat} (h : config.directMapOffset = none) :
    config.Shows w a ↔ frameSize ≤ w ∧ w = a := by
  unfold Config.Shows
  rw [h]
  simp

theorem Config.shows_of_some {config : Config} {w a offset : Nat}
    (h : config.directMapOffset = some offset) :
    config.Shows w a ↔ frameSize ≤ w ∧ (w = a ∨ w = offset + a) := by
  unfold Config.Shows
  rw [h]
  simp

/-- The second view of memory, where one is configured, is made of whole pages in range and lies
apart from the first. -/
structure Config.SecondViewFits (format : Format) (config : Config) (memory : Nat → Prop) :
    Prop where
  pages : ∀ {offset}, config.directMapOffset = some offset → offset % frameSize = 0
  inRange : ∀ {offset a}, config.directMapOffset = some offset → memory a →
    format.virtualInRange (offset + a) = true
  apart : ∀ {offset a b}, config.directMapOffset = some offset → memory a → memory b →
    offset + a ≠ b

variable {format : Format} {config : Config} {memory : Nat → Prop}

/-- Then no two addresses of memory are seen at one. -/
theorem Config.Shows.unique {w a b : Nat} (fits : config.SecondViewFits format memory)
    (ha : memory a) (hb : memory b) (h : config.Shows w a) (h' : config.Shows w b) : a = b := by
  cases hoffset : config.directMapOffset with
  | none =>
    obtain ⟨-, heq⟩ := (Config.shows_of_none hoffset).mp h
    obtain ⟨-, heq'⟩ := (Config.shows_of_none hoffset).mp h'
    exact heq.symm.trans heq'
  | some offset =>
    obtain ⟨-, heq⟩ := (Config.shows_of_some hoffset).mp h
    obtain ⟨-, heq'⟩ := (Config.shows_of_some hoffset).mp h'
    have hne := fits.apart hoffset ha hb
    have hne' := fits.apart hoffset hb ha
    omega

theorem Config.Shows.inRange {w a : Nat} (fits : config.SecondViewFits format memory)
    (ha : memory a) (hreach : a < format.reach) (h : config.Shows w a) :
    format.virtualInRange w = true := by
  obtain ⟨-, rfl | ⟨offset, hoffset, rfl⟩⟩ := h
  · exact Format.inRange_of_lt_reach hreach
  · exact fits.inRange hoffset ha

/-- A range of whole pages, in range and with frames that can be named. -/
structure WholePages (format : Format) (virt phys size : Nat) : Prop where
  pos : 0 < size
  virt_mod : virt % frameSize = 0
  phys_mod : phys % frameSize = 0
  size_mod : size % frameSize = 0
  inRange : ∀ w, virt ≤ w → w < virt + size → format.virtualInRange w = true
  frames : phys + size ≤ format.physicalEnd

namespace WholePages

variable {virt phys size : Nat}

theorem checkRange_ok (h : WholePages format virt phys size) :
    checkRange format virt phys size = .ok () :=
  checkRange_of_inRange h.pos h.inRange h.frames

theorem pageBounds_eq (h : WholePages format virt phys size) :
    pageBounds virt phys size = some (virt, phys, size) := by
  refine pageBounds_of_pages h.virt_mod h.phys_mod h.size_mod ?_
  have hle := format.physicalEnd_le
  have hframes := h.frames
  exact Nat.lt_of_le_of_lt (show size ≤ 2 ^ 52 by omega) (by decide)

/-- The second view of a range that can be mapped at itself. -/
theorem second (h : WholePages format phys phys size) (fits : config.SecondViewFits format memory)
    (hmemory : ∀ a, phys ≤ a → a < phys + size → memory a) {offset : Nat}
    (hoffset : config.directMapOffset = some offset) :
    WholePages format (phys + offset) phys size where
  pos := h.pos
  virt_mod := by
    have hmod := fits.pages hoffset
    have hphys := h.phys_mod
    simp only [frameSize] at *
    omega
  phys_mod := h.phys_mod
  size_mod := h.size_mod
  inRange := fun w hle hlt => by
    have hrange := fits.inRange hoffset (hmemory (w - offset) (by omega) (by omega))
    rwa [Nat.add_sub_cancel' (by omega)] at hrange
  frames := h.frames

end WholePages

namespace Manager

variable {tree : KernelTree} {stock : Stock} {s s' s'' : TableStore} {cost cost' : Nat}
  {M M' N : Nat → Nat → PageFlags → Prop}

/-! ## What is added to a tree -/

theorem TreeReady.same (h : TreeReady format tree stock s) (same : s.Same s') :
    TreeReady format tree stock s' := by
  refine ⟨⟨?_, ?_⟩, ?_⟩
  · rw [same.frames, same.arena]
    exact h.orderly.ledger
  · rw [same.arena]
    exact h.orderly.shaped
  · rw [same.arena]
    exact h.root

/-- To what the kernel tree shows, the addresses were added that `M` says; `cost` is the number
of tables that may have been made. -/
structure Extended (format : Format) (tree : KernelTree) (stock : Stock) (cost : Nat)
    (M : Nat → Nat → PageFlags → Prop) (s s' : TableStore) : Prop where
  ready : TreeReady format tree stock s'
  view : ∀ {w q : Nat} {flags : PageFlags}, format.virtualInRange w = true →
    (s'.arena.view format tree.root w = some (q, flags)
      ↔ s.arena.view format tree.root w = some (q, flags) ∨ M w q flags)
  spent : s.frames.available .normal ≤ s'.frames.available .normal + cost

/-- There were too few frames for the tables that may be needed. -/
def Short (cost : Nat) (s : TableStore) (error : MemoryError) : Prop :=
  error = .outOfMemory ∧ s.frames.available .normal < cost

namespace Extended

/-- Nothing was added. -/
theorem of_same (h : TreeReady format tree stock s) (same : s.Same s')
    (hM : ∀ w q flags, ¬ M w q flags) : Extended format tree stock 0 M s s' where
  ready := h.same same
  view := fun {w q flags} _ => by rw [same.arena, or_iff_left (hM w q flags)]
  spent := by rw [same.frames]; exact Nat.le_refl _

/-- What is logged before and after does not matter. -/
theorem between {s₁ s₂ : TableStore} (h : Extended format tree stock cost M s₁ s₂)
    (before : s.Same s₁) (after : s₂.Same s') : Extended format tree stock cost M s s' where
  ready := h.ready.same after
  view := by rw [← before.arena, after.arena]; exact h.view
  spent := by rw [← before.frames, after.frames]; exact h.spent

theorem trans (h : Extended format tree stock cost M s s')
    (h' : Extended format tree stock cost' M' s' s'')
    (hN : ∀ w q flags, N w q flags ↔ M w q flags ∨ M' w q flags) :
    Extended format tree stock (cost + cost') N s s'' where
  ready := h'.ready
  view := fun {w q flags} hw => by rw [h'.view hw, h.view hw, hN, or_assoc]
  spent := by
    have hspent := h.spent
    have hspent' := h'.spent
    omega

theorem congr (h : Extended format tree stock cost M s s')
    (hN : ∀ w q flags, N w q flags ↔ M w q flags) : Extended format tree stock cost N s s' where
  ready := h.ready
  view := fun {w q flags} hw => by rw [h.view hw, hN]
  spent := h.spent

/-- More tables may have been made. -/
theorem mono (h : Extended format tree stock cost M s s') (hle : cost ≤ cost') :
    Extended format tree stock cost' M s s' where
  ready := h.ready
  view := h.view
  spent := Nat.le_trans h.spent (Nat.add_le_add_left hle _)

/-- An address at which nothing was seen, and nothing was added, shows nothing. -/
theorem vacant (h : Extended format tree stock cost M s s') {w : Nat}
    (hw : format.virtualInRange w = true) (hnone : s.arena.view format tree.root w = none)
    (hM : ∀ q flags, ¬ M w q flags) : s'.arena.view format tree.root w = none := by
  refine Option.eq_none_iff_forall_ne_some.mpr fun found hfound => ?_
  rcases (h.view hw).mp hfound with hbefore | hadded
  · rw [hnone] at hbefore
    cases hbefore
  · exact hM _ _ hadded

/-- What there are too few frames for later, there were too few for before. -/
theorem short (h : Extended format tree stock cost M s s') {error : MemoryError}
    (hshort : Short cost' s' error) : Short (cost + cost') s error := by
  have hspent := h.spent
  exact ⟨hshort.1, by have hlt := hshort.2; omega⟩

end Extended

theorem Short.mono {error : MemoryError} (h : Short cost s error) (hle : cost ≤ cost') :
    Short cost' s error := ⟨h.1, Nat.lt_of_lt_of_le h.2 hle⟩

theorem Short.of_same {error : MemoryError} (h : Short cost s' error) (same : s.Same s') :
    Short cost s error := ⟨h.1, by rw [← same.frames]; exact h.2⟩

/-! ## Ranges where nothing is mapped -/

/-- As many tables as a range of whole pages may need. -/
def pageTables (format : Format) (size : Nat) : Nat := 2 * format.topLevel * (size / frameSize)

/-- A range of pages at which nothing is seen is mapped, unless frames are wanting. -/
theorem ends_mapView_vacant {virt phys size : Nat} {flags : PageFlags}
    (h : TreeReady format tree stock s) (unsealed : tree.rootSealed = false)
    (htotal : 0 < stock.total) (pages : WholePages format virt phys size)
    (vacant : ∀ w, frameSize ≤ w → virt ≤ w → w < virt + size →
      s.arena.view format tree.root w = none) :
    Ends (mapView format config tree virt phys size flags) s
      (fun _ s' => Extended format tree stock (pageTables format size)
        (fun w q f => (frameSize ≤ w ∧ Part virt phys size w q) ∧ f = flags) s s')
      (onRefusal fun e _ => Short (pageTables format size) s e) := by
  have hpos := pages.pos
  have hcheck := pages.checkRange_ok
  have hbounds := pages.pageBounds_eq
  have hready : (viewRequest config tree virt phys size flags).Ready format tree.root s :=
    ⟨.of_checkRange rfl hpos hcheck, h.root⟩
  have hcovers : ∀ {w q : Nat}, (viewRequest config tree virt phys size flags).Covers w q
      ↔ frameSize ≤ w ∧ Part virt phys size w q := MapRequest.covers_iff hbounds
  have hvacant : ∀ w q, (viewRequest config tree virt phys size flags).Covers w q →
      s.arena.view format tree.root w = none := by
    intro w q hin
    obtain ⟨hnull, hle, hlt, -⟩ := hcovers.mp hin
    exact vacant w hnull hle hlt
  have htables : (viewRequest config tree virt phys size flags).tables format
      ≤ pageTables format size := by
    have hcount : (viewRequest config tree virt phys size flags).pageCount = size / frameSize :=
      MapRequest.pageCount_eq hbounds
    rw [MapRequest.tables, hcount, MapRequest.tablesPerPage]
    refine Nat.mul_le_mul_right _ ?_
    split <;> omega
  rw [mapView_eq (Nat.ne_of_gt hpos), ends_bind, ends_ofResult_ok hcheck]
  refine (Walk.ends_mapRange h.orderly hready).weaken (fun _ s' hs => ?_) fun e s' he => ?_
  · have hall := allReady_of_ready hready
    have hgrows := hs.overlaid.edits.grows h.orderly hall
    have hspent := hs.spent
    refine ⟨⟨hs.overlaid.edits.orderly h.orderly hall, hgrows.level h.root⟩, fun {w q f} hw => ?_,
      by omega⟩
    rw [← hcovers]
    exact hs.view_iff hvacant hw
  · -- no page is mapped to another frame, as none is mapped
    obtain ⟨hless, herror⟩ := he.2.exhausted (fun hnone => by cases hbounds.symm.trans hnone)
      (fun sealing => by cases unsealed.symm.trans sealing)
      (fun w q hin m l hfound => by
        have hview := Arena.view_of_lookup hfound
        cases (hvacant w q hin).symm.trans hview)
    exact ⟨herror.resolve_right (by omega), by omega⟩

theorem secondView_of_none (h : config.directMapOffset = none) (address : Nat) :
    secondView config address = .ok none := by
  unfold secondView
  rw [h]

theorem secondView_of_some {offset address : Nat} (h : config.directMapOffset = some offset)
    (hword : address + offset < Word.bound) :
    secondView config address = .ok (some (address + offset)) := by
  unfold secondView
  rw [h]
  simp only [Word.add?_eq_some_iff.mpr ⟨hword, rfl⟩]

/-- Memory whose views are all in range is mapped in one view, and then in the other if there is
one. -/
theorem ends_mapViews_views {base size : Nat} {policy : CachePolicy} {first done : TableStore → Prop}
    {failed : Failure → TableStore → Prop} (hpos : 0 < size)
    (hidentity : checkRange format base base size = .ok ())
    (hshifted : ∀ {offset}, config.directMapOffset = some offset →
      checkRange format (base + offset) base size = .ok ())
    (hfirst : Ends (mapView format config tree base base size
      (PageFlags.kernelData.withCachePolicy policy)) s (fun _ s' => first s') failed)
    (honly : config.directMapOffset = none → ∀ {s'}, first s' → done s')
    (hother : ∀ {offset s'}, config.directMapOffset = some offset → first s' →
      Ends (mapView format config tree (base + offset) base size
        (PageFlags.kernelData.withCachePolicy policy)) s' (fun _ s'' => done s'') failed) :
    Ends (mapViews format config tree base size policy) s (fun _ s' => done s') failed := by
  have hidentity : checkRange format (VirtAddr.identity base) base size = .ok () := hidentity
  unfold mapViews
  cases hoffset : config.directMapOffset with
  | none =>
    rw [ends_bind, ends_ofResult_ok (secondView_of_none hoffset base), ends_bind,
      ends_ofResult_ok hidentity]
    simp only
    rw [ends_bind]
    exact hfirst.mono (fun _ _ hs => honly hoffset hs) fun _ _ hf => hf
  | some offset =>
    have hword : base + offset < Word.bound := by
      have hlast := (checkRange_eq_ok hpos (hshifted hoffset)).1
      omega
    rw [ends_bind, ends_ofResult_ok (secondView_of_some hoffset hword), ends_bind,
      ends_ofResult_ok hidentity]
    simp only
    rw [ends_bind, ends_ofResult_ok (hshifted hoffset), ends_bind]
    refine hfirst.mono (fun _ s₁ h₁ => ?_) fun _ _ hf => hf
    rw [ends_bind]
    exact (hother hoffset h₁).mono (fun _ _ hs => hs) fun _ _ hf => hf

/-- Memory that is not seen yet is mapped in all its views, unless frames are wanting. -/
theorem ends_mapViews_vacant {base size : Nat} {policy : CachePolicy}
    (h : TreeReady format tree stock s) (unsealed : tree.rootSealed = false)
    (htotal : 0 < stock.total) (fits : config.SecondViewFits format memory)
    (hmemory : ∀ a, base ≤ a → a < base + size → memory a)
    (pages : WholePages format base base size)
    (vacant : ∀ w a, base ≤ a → a < base + size → config.Shows w a →
      s.arena.view format tree.root w = none) :
    Ends (mapViews format config tree base size policy) s
      (fun _ s' => Extended format tree stock (2 * pageTables format size)
        (fun w a f => ((base ≤ a ∧ a < base + size) ∧ config.Shows w a)
          ∧ f = PageFlags.kernelData.withCachePolicy policy) s s')
      (onRefusal fun e _ => Short (2 * pageTables format size) s e) := by
  have hself : ∀ w, frameSize ≤ w → base ≤ w → w < base + size →
      s.arena.view format tree.root w = none :=
    fun w hnull hle hlt => vacant w w hle hlt ⟨hnull, .inl rfl⟩
  refine ends_mapViews_views pages.pos pages.checkRange_ok
    (fun hoffset => (pages.second fits hmemory hoffset).checkRange_ok)
    ((ends_mapView_vacant h unsealed htotal pages hself).weaken (fun _ _ hs => hs)
      fun e _ he => he.mono (by omega)) (fun hoffset {s'} hs => ?_) fun {offset s₁} hoffset h₁ => ?_
  · refine (hs.mono (by omega)).congr fun w q f => and_congr_left' ?_
    rw [Config.shows_of_none hoffset]
    unfold Part
    omega
  · have pages' := pages.second fits hmemory hoffset
    -- the first view put nothing in the way of the second
    have vacant' : ∀ w, frameSize ≤ w → base + offset ≤ w → w < base + offset + size →
        s₁.arena.view format tree.root w = none := by
      intro w hnull hle hlt
      have hin : memory (w - offset) := hmemory _ (by omega) (by omega)
      refine h₁.vacant (pages'.inRange w hle hlt) ?_ ?_
      · exact vacant w (w - offset) (by omega) (by omega) ⟨hnull, .inr ⟨offset, hoffset, by omega⟩⟩
      · rintro q f ⟨⟨-, hle', hlt', -⟩, -⟩
        have hne := fits.apart hoffset hin (hmemory w hle' hlt')
        omega
    refine (ends_mapView_vacant h₁.ready unsealed htotal pages' vacant').weaken
      (fun _ s₂ h₂ => ?_) fun e _ he => (h₁.short he).mono (by omega)
    refine (h₁.trans h₂ fun w q f => ?_).mono (by omega)
    rw [← or_and_right]
    refine and_congr_left' ?_
    rw [Config.shows_of_some hoffset]
    unfold Part
    omega

/-! ## Regions one after another -/

/-- The part of a region that the format can map at itself. -/
structure Clipped (format : Format) (region : BootRegion) (base size : Nat) : Prop where
  start : base = region.base
  pos : 0 < size
  stop : base + size = min region.stop format.reach

theorem Clipped.holds_iff {region : BootRegion} {base size a : Nat}
    (h : Clipped format region base size) : region.Holds format a ↔ base ≤ a ∧ a < base + size := by
  have hbase := h.start
  have hstop := h.stop
  constructor
  · rintro ⟨hle, hlt, hreach⟩
    have hle : a ≥ region.base := hle
    exact ⟨by omega, by omega⟩
  · rintro ⟨hle, hlt⟩
    refine ⟨?_, by omega, by omega⟩
    show a ≥ region.base
    omega

theorem Clipped.pages {region : BootRegion} {base size : Nat}
    (h : Clipped format region base size) (hbase : region.base % frameSize = 0)
    (hstop : region.stop % frameSize = 0) : WholePages format base base size := by
  have hstart := h.start
  have hend := h.stop
  have hmod : base % frameSize = 0 := by rw [hstart]; exact hbase
  have hreach := format.reach_mod
  have hle := format.reach_le_physicalEnd
  refine ⟨h.pos, hmod, hmod, ?_, fun w _ hlt => ?_, by omega⟩
  · have hstop' : min region.stop format.reach % frameSize = 0 := by
      rcases Nat.le_total region.stop format.reach with hmin | hmin
      · rw [Nat.min_eq_left hmin]
        exact hstop
      · rw [Nat.min_eq_right hmin]
        exact hreach
    simp only [frameSize] at *
    omega
  · exact Format.inRange_of_lt_reach (by omega)

theorem Clipped.pageTables_le {region : BootRegion} {base size : Nat}
    (h : Clipped format region base size) :
    pageTables format size ≤ pageTables format region.size := by
  have hstart := h.start
  have hend := h.stop
  have hstop : region.stop = region.base + region.size := rfl
  have hle : size ≤ region.size := by omega
  exact Nat.mul_le_mul_left _ (Nat.div_le_div_right hle)

/-- A region is clipped to what is in reach, and passed over where nothing is. -/
theorem ends_reachable_clipped {region : BootRegion} (hlt : region.base < region.stop) :
    Ends (reachable format region) s
      (fun part s' => s.Same s' ∧ match part with
        | none => ∀ a, ¬ region.Holds format a
        | some part => Clipped format region part.base part.size)
      (fun _ _ => False) := by
  have hlimit : min format.physicalEnd format.identityEnd = format.reach := rfl
  unfold reachable
  simp only
  rw [hlimit]
  split
  · rename_i hle
    refine ⟨⟨rfl, rfl⟩, fun a ha => ?_⟩
    exact Nat.lt_irrefl _ (Nat.lt_of_le_of_lt (Nat.le_trans hle ha.base) ha.reach)
  · rename_i hin
    have hin : region.base < format.reach := Nat.lt_of_not_le hin
    split
    · rename_i hclipped
      refine ⟨⟨rfl, rfl⟩, rfl, Nat.sub_pos_of_lt hin, ?_⟩
      rw [Nat.min_eq_right (Nat.le_of_lt hclipped)]
      exact Nat.add_sub_cancel' (Nat.le_of_lt hin)
    · rename_i hwhole
      refine ⟨⟨rfl, rfl⟩, rfl, Nat.pos_of_lt_add_right hlt, ?_⟩
      rw [Nat.min_eq_left (Nat.le_of_not_lt hwhole)]
      rfl

/-- What regions show in a kernel tree: their memory, wherever it is seen, with the policy that
the map gives the region. -/
def RegionsShown (format : Format) (config : Config) (regions : List BootRegion) (w a : Nat)
    (flags : PageFlags) : Prop :=
  ∃ region ∈ regions, (region.Holds format a ∧ config.Shows w a)
    ∧ flags = PageFlags.kernelData.withCachePolicy (regionPolicy region)

/-- As many tables as regions may need. -/
def regionTables (format : Format) (regions : List BootRegion) : Nat :=
  (regions.map fun region => 2 * pageTables format region.size).sum

theorem regionTables_cons (format : Format) (region : BootRegion) (rest : List BootRegion) :
    regionTables format (region :: rest)
      = 2 * pageTables format region.size + regionTables format rest := by
  unfold regionTables
  rw [List.map_cons, List.sum_cons]

/-- Nothing is seen yet where regions will be. -/
def RegionsVacant (format : Format) (config : Config) (tree : KernelTree)
    (regions : List BootRegion) (s : TableStore) : Prop :=
  ∀ region ∈ regions, ∀ w a, region.Holds format a → config.Shows w a →
    s.arena.view format tree.root w = none

/-- Regions of whole frames, in address order, all of kernel memory. -/
structure RegionsFit (format : Format) (memory : Nat → Prop) (regions : List BootRegion) :
    Prop where
  frames : ∀ region ∈ regions, region.base % frameSize = 0 ∧ region.stop % frameSize = 0
  nonempty : ∀ region ∈ regions, region.base < region.stop
  apart : regions.Pairwise fun r r' => r.stop ≤ r'.base
  memory : ∀ region ∈ regions, ∀ a, region.Holds format a → memory a

theorem RegionsFit.tail {region : BootRegion} {rest : List BootRegion}
    (h : RegionsFit format memory (region :: rest)) : RegionsFit format memory rest where
  frames := fun r hr => h.frames r (List.mem_cons_of_mem region hr)
  nonempty := fun r hr => h.nonempty r (List.mem_cons_of_mem region hr)
  apart := (List.pairwise_cons.mp h.apart).2
  memory := fun r hr => h.memory r (List.mem_cons_of_mem region hr)

/-- Memory of the first region is in none of the others. -/
theorem RegionsFit.not_holds {region : BootRegion} {rest : List BootRegion}
    (h : RegionsFit format memory (region :: rest)) {r : BootRegion} (hr : r ∈ rest) {a : Nat}
    (ha : region.Holds format a) : ¬ r.Holds format a := by
  intro ha'
  have hle := (List.pairwise_cons.mp h.apart).1 r hr
  exact Nat.lt_irrefl _ (Nat.lt_of_lt_of_le ha.stop (Nat.le_trans hle ha'.base))

/-- So the places of the others are left as they were once the first is mapped. -/
theorem RegionsFit.vacant_tail {region : BootRegion} {rest : List BootRegion}
    (h : RegionsFit format memory (region :: rest)) (fits : config.SecondViewFits format memory)
    (vacant : RegionsVacant format config tree (region :: rest) s)
    (hfirst : Extended format tree stock cost (RegionsShown format config [region]) s s') :
    RegionsVacant format config tree rest s' := by
  intro r hr w a ha hshows
  have hmem : r ∈ region :: rest := List.mem_cons_of_mem region hr
  have hmemory : memory a := h.memory r hmem a ha
  refine hfirst.vacant (hshows.inRange fits hmemory ha.reach) (vacant r hmem w a ha hshows) ?_
  rintro b flags ⟨r', hr', ⟨hb, hshows'⟩, -⟩
  rw [List.mem_singleton.mp hr'] at hb
  have heq : b = a :=
    hshows'.unique fits (h.memory region List.mem_cons_self b hb) hmemory hshows
  rw [heq] at hb
  exact h.not_holds hr hb ha

/-- A region is passed over, or mapped as far as it is in reach, and then the others come. -/
theorem ends_mapRegions_cons {region : BootRegion} {rest : List BootRegion}
    {done : TableStore → Prop} {failed : Failure → TableStore → Prop}
    (nonempty : region.base < region.stop)
    (hbeyond : ∀ {s'}, s.Same s' → (∀ a, ¬ region.Holds format a) →
      Ends (mapRegions format config tree rest) s' (fun _ s'' => done s'') failed)
    (hwithin : ∀ {s' base size}, s.Same s' → Clipped format region base size →
      Ends (mapViews format config tree base size (regionPolicy region)) s'
        (fun _ s₁ => ∀ {s₂}, s₁.Same s₂ →
          Ends (mapRegions format config tree rest) s₂ (fun _ s'' => done s'') failed) failed) :
    Ends (mapRegions format config tree (region :: rest)) s (fun _ s' => done s') failed := by
  rw [mapRegions, ends_bind]
  refine (ends_reachable_clipped nonempty).mono (fun part s₁ h₁ => ?_) fun _ _ hf => hf.elim
  obtain ⟨same, hpart⟩ := h₁
  cases part with
  | none => exact hbeyond same hpart
  | some part =>
    simp only
    rw [ends_bind]
    refine (hwithin same hpart).mono (fun _ s₂ h₂ => ?_) fun _ _ hf => hf
    rw [ends_bind, TableStore.ends_write]
    exact h₂ ⟨rfl, rfl⟩

/-- Regions are mapped where nothing is seen yet, unless frames are wanting. -/
theorem ends_mapRegions_vacant (unsealed : tree.rootSealed = false) (htotal : 0 < stock.total)
    (fits : config.SecondViewFits format memory) : ∀ {regions : List BootRegion} {s : TableStore},
      TreeReady format tree stock s → RegionsFit format memory regions →
      RegionsVacant format config tree regions s →
      Ends (mapRegions format config tree regions) s
        (fun _ s' => Extended format tree stock (regionTables format regions)
          (RegionsShown format config regions) s s')
        (onRefusal fun e _ => Short (regionTables format regions) s e) := by
  -- induction on the regions; what is mapped leaves the places of those to come vacant
  intro regions
  induction regions with
  | nil =>
    intro s h _ _
    refine .of_same h ⟨rfl, rfl⟩ fun w a flags hshown => ?_
    obtain ⟨region, hregion, -⟩ := hshown
    cases hregion
  | cons region rest ih =>
    intro s h regionsFit vacant
    have hmem : region ∈ region :: rest := List.mem_cons_self
    obtain ⟨hbase, hstop⟩ := regionsFit.frames region hmem
    -- the other regions, once this one was mapped
    have hrest : ∀ {s₁}, Extended format tree stock (2 * pageTables format region.size)
          (RegionsShown format config [region]) s s₁ →
        Ends (mapRegions format config tree rest) s₁
          (fun _ s' => Extended format tree stock (regionTables format (region :: rest))
            (RegionsShown format config (region :: rest)) s s')
          (onRefusal fun e _ => Short (regionTables format (region :: rest)) s e) := by
      intro s₁ h₁
      rw [regionTables_cons]
      refine (ih h₁.ready regionsFit.tail (regionsFit.vacant_tail fits vacant h₁)).weaken
        (fun _ s' h' => h₁.trans h' fun w a flags => ?_) fun e _ he => h₁.short he
      unfold RegionsShown
      simp only [List.mem_cons, List.mem_nil_iff, or_false, exists_eq_or_imp, exists_eq_left]
    refine ends_mapRegions_cons (regionsFit.nonempty region hmem) (fun {s₁} same hbeyond => ?_)
      fun {s₁ base size} same hpart => ?_
    · refine hrest ((Extended.of_same h same fun w a flags hshown => ?_).mono (Nat.zero_le _))
      obtain ⟨r, hr, ⟨ha, -⟩, -⟩ := hshown
      rw [List.mem_singleton.mp hr] at ha
      exact hbeyond a ha
    · have hholds : ∀ {a : Nat}, region.Holds format a ↔ base ≤ a ∧ a < base + size :=
        hpart.holds_iff
      have hsize : 2 * pageTables format size ≤ 2 * pageTables format region.size :=
        Nat.mul_le_mul_left _ (hpart.pageTables_le)
      refine (ends_mapViews_vacant (h.same same) unsealed htotal fits
        (fun a hle hlt => regionsFit.memory region hmem a (hholds.mpr ⟨hle, hlt⟩))
        (hpart.pages hbase hstop) fun w a hle hlt hshows => ?_).weaken
        (fun _ s₂ h₂ => ?_) fun e _ he => ?_
      · rw [same.arena]
        exact vacant region hmem w a (hholds.mpr ⟨hle, hlt⟩) hshows
      · intro s₃ after
        refine hrest (((h₂.between same after).congr fun w a flags => ?_).mono hsize)
        unfold RegionsShown
        simp only [List.mem_singleton, exists_eq_left, hholds]
      · rw [regionTables_cons]
        exact (he.of_same same).mono (by omega)

end Manager

end KernelMemory
