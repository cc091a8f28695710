/-
  KernelMemory.Proofs.Manager.Neighbours — boot regions that meet inside a page.

  Records may start anywhere, so regions are rounded out to pages, and the last page of one may
  be the first of the next.  The next region then takes that page over, which only its attributes
  show.  This goes wrong in one case: where the page became part of a large page, it has no
  attributes of its own, and regions of different policies are in each other's way (`Clash`).
  Nothing else is in the way of boot regions: what is beyond reach is clipped, no address shows
  two frames, and the root gets all the slots that it needs.

  Main results:
    * `clash_of_fills` — what it takes for two regions to be in each other's way;
    * `ends_mapView_laid`, `ends_mapRegions_laid` — one view of a region, and all regions;
    * `init_unless_clash` — the start, for regions of any alignment;
    * `crampedMap_refused` — a map with two such regions.
-/

import KernelMemory.Proofs.Manager.KernelTree

namespace KernelMemory

open Machine Manager Steps

variable {format : Format} {config : Config} {tree : KernelTree} {stock : Stock}
  {region later : BootRegion} {base size shift : Nat}

/-! ## Regions rounded out to pages -/

/-- A region with all of every page that it has a part in. -/
def BootRegion.roundedOut (region : BootRegion) : BootRegion :=
  { region with
    region := ⟨floorTo frameSize region.base,
      ceilTo frameSize region.stop - floorTo frameSize region.base⟩ }

theorem BootRegion.stop_roundedOut (region : BootRegion) :
    region.roundedOut.stop = ceilTo frameSize region.stop := by
  have hstop : region.stop = region.base + region.size := rfl
  have hfloor := floorTo_le frameSize region.base
  have hceil : region.stop ≤ ceilTo frameSize region.stop := le_ceilTo (by decide) region.stop
  show floorTo frameSize region.base
    + (ceilTo frameSize region.stop - floorTo frameSize region.base) = _
  omega

theorem BootRegion.holds_roundedOut {a : Nat} : region.roundedOut.Holds format a
    ↔ floorTo frameSize region.base ≤ a ∧ a < ceilTo frameSize region.stop ∧ a < format.reach := by
  rw [← region.stop_roundedOut]
  constructor
  · intro h
    exact ⟨h.base, h.stop, h.reach⟩
  · intro h
    exact ⟨h.1, h.2.1, h.2.2⟩

/-- A block of the size of a large page lies in the pages of a region. -/
structure BootRegion.Fills (format : Format) (region : BootRegion) (block : Nat) : Prop where
  aligned : block % format.span Format.largeLevel = 0
  holds : ∀ a, block ≤ a → a < block + format.span Format.largeLevel →
    region.roundedOut.Holds format a

/-- A region ends inside the page that a later one starts in, and fills the large page that this
page is the end of; the later one is to have another policy. -/
structure Clash (format : Format) (region later : BootRegion) : Prop where
  policy : regionPolicy region ≠ regionPolicy later
  order : region.stop ≤ later.base
  inside : region.stop % frameSize ≠ 0
  page : region.stop / frameSize = later.base / frameSize
  reach : format.reach > later.base
  fills : ∃ block, region.Fills format block
    ∧ block + format.span Format.largeLevel = ceilTo frameSize region.stop

/-- Whole pages up to where something stops and from where something later starts: a page in common
is the last of the former, and both addresses are in it. -/
theorem meet_in_page {stop start limit : Nat} (order : stop ≤ start)
    (hlimit : limit % frameSize = 0) (hend : limit ≤ ceilTo frameSize stop)
    (hstart : floorTo frameSize start < limit) :
    stop % frameSize ≠ 0 ∧ stop / frameSize = start / frameSize
      ∧ limit = ceilTo frameSize stop := by
  unfold floorTo at hstart
  unfold ceilTo at hend ⊢
  simp only [frameSize] at *
  omega

/-- A block that a region fills has a page of a later region only where the two meet in the last
page of the block. -/
theorem clash_of_fills {block q : Nat} (order : region.stop ≤ later.base)
    (policy : regionPolicy region ≠ regionPolicy later) (hfills : region.Fills format block)
    (hle : block ≤ q) (hlt : q < block + format.span Format.largeLevel)
    (hq : later.roundedOut.Holds format q) : Clash format region later := by
  have hdvd := format.frameSize_dvd_span Format.largeLevel
  have hblock : (block + format.span Format.largeLevel) % frameSize = 0 :=
    Nat.mod_eq_zero_of_dvd (Nat.dvd_add
      (Nat.dvd_trans hdvd (Nat.dvd_of_mod_eq_zero hfills.aligned)) hdvd)
  have hlast : region.roundedOut.Holds format (block + format.span Format.largeLevel - 1) :=
    hfills.holds _ (by omega) (by omega)
  obtain ⟨-, hend, -⟩ := BootRegion.holds_roundedOut.mp hlast
  obtain ⟨hfirst, -, hreach⟩ := BootRegion.holds_roundedOut.mp hq
  obtain ⟨hinside, hpage, heq⟩ := meet_in_page order hblock (by omega) (by omega)
  refine ⟨policy, order, hinside, hpage, ?_, block, hfills, heq⟩
  -- reach ends with a page
  have hmod := format.reach_mod
  have hbelow : floorTo frameSize later.base < format.reach := by omega
  unfold floorTo at hbelow
  simp only [frameSize] at hmod hbelow
  omega

namespace Manager

/-! ## Views of a region -/

/-- Kernel memory is seen this much above its address. -/
def Shift (config : Config) (shift : Nat) : Prop :=
  shift = 0 ∨ config.directMapOffset = some shift

theorem Shift.mod (h : Shift config shift) {memory : Nat → Prop}
    (fits : config.SecondViewFits format memory) : shift % frameSize = 0 := by
  rcases h with rfl | hoffset
  · rfl
  · exact fits.pages hoffset

theorem Shift.shows (h : Shift config shift) {a : Nat} (hnull : frameSize ≤ a + shift) :
    config.Shows (a + shift) a := by
  refine ⟨hnull, ?_⟩
  rcases h with rfl | hoffset
  · exact .inl (Nat.add_zero a)
  · exact .inr ⟨shift, hoffset, Nat.add_comm a shift⟩

/-- The part of a region in reach is in range wherever it is seen. -/
theorem Shift.checkRange_ok (h : Shift config shift) (clipped : Clipped format region base size)
    (fits : config.SecondViewFits format fun a => a < format.reach) :
    checkRange format (base + shift) base size = .ok () := by
  have hend := clipped.stop
  have hreach := format.reach_le_physicalEnd
  refine checkRange_of_inRange clipped.pos (fun w hle hlt => ?_) (by omega)
  rcases h with rfl | hoffset
  · exact Format.inRange_of_lt_reach (by omega)
  · have hin : w - shift < format.reach := by omega
    have hrange := fits.inRange hoffset hin
    rwa [show shift + (w - shift) = w by omega] at hrange

/-- The request for a view of a region covers pages of the region. -/
theorem holds_of_covers {flags : PageFlags} {w q : Nat}
    (clipped : Clipped format region base size) (hshift : shift % frameSize = 0)
    (hcovers : (viewRequest config tree (base + shift) base size flags).Covers w q) :
    frameSize ≤ w ∧ w = q + shift ∧ region.roundedOut.Holds format q := by
  obtain ⟨hnull, v, p, length, hb, hle, hlt, hq⟩ := hcovers
  have hb : pageBounds (base + shift) base size = some (v, p, length) := hb
  obtain ⟨hv, hp, hl, hvle, hvlt, hple, hplt, hend, hend'⟩ := pageBounds_spec hb
  have hstart := clipped.start
  have hstop := clipped.stop
  have hmod := format.reach_mod
  rw [BootRegion.holds_roundedOut, ← hstart]
  unfold floorTo ceilTo
  simp only [frameSize] at *
  refine ⟨hnull, ?_, ?_, ?_, ?_⟩
  all_goals omega

/-- A large page of such a request fills a block of the region. -/
theorem fills_of_piece {flags : PageFlags} {virt phys : Nat}
    (clipped : Clipped format region base size) (hshift : shift % frameSize = 0)
    (piece : (viewRequest config tree (base + shift) base size flags).Piece format
      Format.largeLevel virt phys) : region.Fills format phys where
  aligned := piece.phys_mod
  holds := by
    intro a hle hlt
    have hpart : Part virt phys (format.span Format.largeLevel) (virt + (a - phys)) a := by
      unfold Part
      omega
    exact (holds_of_covers clipped hshift (piece.covers hpart)).2.2

/-- It needs at most as many tables as all pages of the region may. -/
theorem tables_viewRequest_le {flags : PageFlags} (clipped : Clipped format region base size)
    (hshift : shift % frameSize = 0) :
    (viewRequest config tree (base + shift) base size flags).tables format
      ≤ pageTables format region.roundedOut.size := by
  have hcount : (viewRequest config tree (base + shift) base size flags).pageCount
      ≤ region.roundedOut.size / frameSize := by
    unfold MapRequest.pageCount
    split
    · rename_i v p length hb
      have hb : pageBounds (base + shift) base size = some (v, p, length) := hb
      obtain ⟨hv, hp, hl, hvle, hvlt, hple, hplt, hend, hend'⟩ := pageBounds_spec hb
      have hstart := clipped.start
      have hstop := clipped.stop
      refine Nat.div_le_div_right ?_
      show length ≤ ceilTo frameSize region.stop - floorTo frameSize region.base
      rw [← hstart]
      unfold floorTo ceilTo
      simp only [frameSize] at *
      omega
    · exact Nat.zero_le _
  have hpage : (viewRequest config tree (base + shift) base size flags).tablesPerPage format
      ≤ 2 * format.topLevel := by
    unfold MapRequest.tablesPerPage
    split <;> omega
  exact Nat.mul_le_mul hpage hcount

/-! ## What boot regions leave in the tree -/

/-- What a region is mapped with. -/
abbrev regionFlags (region : BootRegion) : PageFlags :=
  PageFlags.kernelData.withCachePolicy (regionPolicy region)

/-- Only boot regions were mapped: every address shows what is seen there, and a large page lies in
the pages of one of the regions, with its flags. -/
structure Laid (format : Format) (config : Config) (tree : KernelTree) (stock : Stock)
    (regions : List BootRegion) (s : TableStore) : Prop where
  ready : TreeReady format tree stock s
  shown : ∀ {w q : Nat} {flags : PageFlags}, format.virtualInRange w = true →
    s.arena.view format tree.root w = some (q, flags) → q < format.reach ∧ config.Shows w q
  large : ∀ {id i : Nat} {m : Mapping}, s.arena.slot? id i = some (.large m) →
    ∃ region ∈ regions, region.Fills format m.frame ∧ m.flags = regionFlags region
  flat : config.largePages = false → s.arena.Flat format tree.root

variable {regions regions' : List BootRegion} {s s' : TableStore}

theorem Laid.mono (h : Laid format config tree stock regions s)
    (hsub : ∀ r ∈ regions, r ∈ regions') : Laid format config tree stock regions' s where
  ready := h.ready
  shown := h.shown
  large := by
    intro id i m hslot
    obtain ⟨r, hr, hfills, hflags⟩ := h.large hslot
    exact ⟨r, hsub r hr, hfills, hflags⟩
  flat := h.flat

/-- What is logged meanwhile does not matter. -/
theorem Laid.of_same (h : Laid format config tree stock regions s) (same : s.Same s') :
    Laid format config tree stock regions s' where
  ready := h.ready.same same
  shown := by
    rw [same.arena]
    exact h.shown
  large := by
    rw [same.arena]
    exact h.large
  flat := by
    rw [same.arena]
    exact h.flat

/-- A view of a region that was mapped is more of the same. -/
theorem Laid.mapped (h : Laid format config tree stock regions s)
    (fits : config.SecondViewFits format fun a => a < format.reach) (hregion : region ∈ regions)
    (clipped : Clipped format region base size) (hshift : Shift config shift)
    (hready : (viewRequest config tree (base + shift) base size (regionFlags region)).Ready format
      tree.root s)
    (hmapped : RangeMapped format
      (viewRequest config tree (base + shift) base size (regionFlags region)) s s') :
    Laid format config tree stock regions s' where
  ready := by
    have hall := allReady_of_ready hready
    have hgrows := hmapped.overlaid.edits.grows h.ready.orderly hall
    exact ⟨hmapped.overlaid.edits.orderly h.ready.orderly hall, hgrows.level h.ready.root⟩
  shown := by
    intro w q flags hw hview
    by_cases hin : ∃ p, (viewRequest config tree (base + shift) base size
        (regionFlags region)).Covers w p
    · obtain ⟨p, hp⟩ := hin
      obtain ⟨hnull, rfl, hholds⟩ := holds_of_covers clipped (hshift.mod fits) hp
      have hinside := hmapped.overlaid.inside hp
      cases hview.symm.trans hinside
      exact ⟨hholds.reach, hshift.shows hnull⟩
    · have hout : s'.arena.view format tree.root w = s.arena.view format tree.root w :=
        Arena.view_congr (hmapped.overlaid.outside hw fun p hp => hin ⟨p, hp⟩)
      rw [hout] at hview
      exact h.shown hw hview
  large := by
    intro id i m hslot
    rcases hmapped.overlaid.edits.page h.ready.orderly (allReady_of_ready hready) hslot rfl with
      hold | ⟨_, target, virt, phys, rfl, piece, hpage⟩
    · exact h.large hold
    · unfold Walk.pageSlot at hpage
      split at hpage
      · cases hpage
      · rename_i htarget
        cases hpage
        rcases piece.level with hzero | rfl
        · exact absurd hzero htarget
        · exact ⟨region, hregion, fills_of_piece clipped (hshift.mod fits) piece, rfl⟩
  flat := fun hsmall => hmapped.overlaid.flat hsmall (h.flat hsmall)

/-- What is in the way of a page of a region is a large page of an earlier one. -/
theorem Laid.clash (h : Laid format config tree stock regions s)
    (fits : config.SecondViewFits format fun a => a < format.reach) (hshift : Shift config shift)
    (order : ∀ r ∈ regions, r = region ∨ r.stop ≤ region.base) {q l : Nat} {m : Mapping}
    (hnull : frameSize ≤ q + shift) (hq : region.roundedOut.Holds format q)
    (found : s.arena.lookup format (q + shift) format.levels tree.root = some (m, l))
    (differs : q ≠ m.frame + (q + shift) % format.span l
      ∨ 0 < l ∧ m.flags ≠ regionFlags region) :
    config.largePages = true ∧ ∃ r ∈ regions, Clash format r region := by
  have hshows : config.Shows (q + shift) q := hshift.shows hnull
  have hrange := hshows.inRange fits hq.reach hq.reach
  have hview := Arena.view_of_lookup found
  obtain ⟨hreach, hshown⟩ := h.shown hrange hview
  have hframe : q = m.frame + (q + shift) % format.span l :=
    hshows.unique fits hq.reach hreach hshown
  obtain ⟨hpos, hflags⟩ := differs.resolve_left (not_not.mpr hframe)
  have hlarge : config.largePages = true := by
    by_contra hsmall
    have hzero := h.flat (Bool.eq_false_of_not_eq_true hsmall) found
    omega
  have htop := format.topLevel_add_one
  rw [← htop] at found
  obtain ⟨p, ⟨hzero, -⟩ | ⟨rfl, hslot⟩⟩ := h.ready.orderly.shaped.slot_of_lookup h.ready.root found
  · omega
  · obtain ⟨r, hr, hfills, heq⟩ := h.large hslot
    have policy : regionPolicy r ≠ regionPolicy region := by
      intro hsame
      rw [heq, regionFlags, hsame] at hflags
      exact hflags rfl
    have hstop : r.stop ≤ region.base := by
      refine (order r hr).resolve_left fun hsame => ?_
      rw [hsame] at policy
      exact policy rfl
    have hmod := Nat.mod_lt (q + shift) (format.span_pos Format.largeLevel)
    exact ⟨hlarge, r, hr, clash_of_fills hstop policy hfills (by omega) (by omega) hq⟩

/-! ## Mapping boot regions -/

/-- Why boot regions are not mapped: frames are wanting, or two regions clash. -/
def Unmapped (format : Format) (config : Config) (regions : List BootRegion) (cost : Nat)
    (s : TableStore) (error : MemoryError) : Prop :=
  Short cost s error
    ∨ error = .incompatible ∧ config.largePages = true
      ∧ ∃ region ∈ regions, ∃ later ∈ regions, Clash format region later

/-- The regions were laid out, for which a number of tables may have been made. -/
def LaidOut (format : Format) (config : Config) (tree : KernelTree) (stock : Stock)
    (regions : List BootRegion) (cost : Nat) (s s' : TableStore) : Prop :=
  Laid format config tree stock regions s'
    ∧ s.frames.available .normal ≤ s'.frames.available .normal + cost

theorem Unmapped.after {cost cost' : Nat} {error : MemoryError}
    (h : Unmapped format config regions cost' s' error)
    (hspent : s.frames.available .normal ≤ s'.frames.available .normal + cost) :
    Unmapped format config regions (cost + cost') s error := by
  rcases h with ⟨herror, hshort⟩ | hclash
  · exact .inl ⟨herror, by omega⟩
  · exact .inr hclash

theorem Unmapped.mono {cost cost' : Nat} {error : MemoryError}
    (h : Unmapped format config regions cost s error) (hle : cost ≤ cost') :
    Unmapped format config regions cost' s error := h.imp_left fun hshort => hshort.mono hle

theorem Unmapped.of_same {cost : Nat} {error : MemoryError}
    (h : Unmapped format config regions cost s' error) (same : s.Same s') :
    Unmapped format config regions cost s error := h.imp_left fun hshort => hshort.of_same same

/-- More regions may clash. -/
theorem Unmapped.grow {cost : Nat} {error : MemoryError}
    (h : Unmapped format config regions cost s error) (hsub : ∀ r ∈ regions, r ∈ regions') :
    Unmapped format config regions' cost s error := by
  refine h.imp_right fun hclash => ?_
  obtain ⟨herror, hlarge, r, hr, later, hlater, hrest⟩ := hclash
  exact ⟨herror, hlarge, r, hsub r hr, later, hsub later hlater, hrest⟩

/-- One view of a region. -/
theorem ends_mapView_laid (h : Laid format config tree stock regions s)
    (unsealed : tree.rootSealed = false)
    (fits : config.SecondViewFits format fun a => a < format.reach) (hregion : region ∈ regions)
    (order : ∀ r ∈ regions, r = region ∨ r.stop ≤ region.base)
    (clipped : Clipped format region base size) (hshift : Shift config shift) :
    Ends (mapView format config tree (base + shift) base size (regionFlags region)) s
      (fun _ s' => LaidOut format config tree stock regions
        (pageTables format region.roundedOut.size) s s')
      (onRefusal fun e _ => Unmapped format config regions
        (pageTables format region.roundedOut.size) s e) := by
  have hcheck := hshift.checkRange_ok clipped fits
  have hready : (viewRequest config tree (base + shift) base size (regionFlags region)).Ready
      format tree.root s := ⟨.of_checkRange rfl clipped.pos hcheck, h.ready.root⟩
  have htables : (viewRequest config tree (base + shift) base size (regionFlags region)).tables
      format ≤ pageTables format region.roundedOut.size :=
    tables_viewRequest_le clipped (hshift.mod fits)
  rw [mapView_eq (Nat.ne_of_gt clipped.pos), ends_bind, ends_ofResult_ok hcheck]
  refine (Walk.ends_mapRange h.ready.orderly hready).weaken (fun _ s' hs => ?_) fun e _ he => ?_
  · have hspent := hs.spent
    exact ⟨h.mapped fits hregion clipped hshift hready hs, by omega⟩
  · rcases he.2 with ⟨hnone, -⟩ | ⟨w, q, hcovers, hobstacle⟩
    · have hend := clipped.stop
      have hreach := format.reach_le_physicalEnd
      have hle := format.physicalEnd_le
      obtain ⟨v, p, length, hb⟩ :=
        exists_pageBounds (base + shift) base (show size ≤ 2 ^ 52 by omega)
      cases hnone.symm.trans hb
    · obtain ⟨hnull, rfl, hholds⟩ := holds_of_covers clipped (hshift.mod fits) hcovers
      cases hobstacle with
      | sealedRoot sealing slot refused => cases unsealed.symm.trans sealing
      | conflict found differs refused =>
        obtain ⟨hlarge, r, hr, hclash⟩ :=
          h.clash fits hshift order hnull hholds found differs
        exact .inr ⟨refused, hlarge, r, hr, region, hregion, hclash⟩
      | exhausted short refused =>
        exact .inl ⟨refused.resolve_right h.ready.total_ne_zero, by omega⟩

/-- All views of a region. -/
theorem ends_mapViews_laid (h : Laid format config tree stock regions s)
    (unsealed : tree.rootSealed = false)
    (fits : config.SecondViewFits format fun a => a < format.reach) (hregion : region ∈ regions)
    (order : ∀ r ∈ regions, r = region ∨ r.stop ≤ region.base)
    (clipped : Clipped format region base size) :
    Ends (mapViews format config tree base size (regionPolicy region)) s
      (fun _ s' => LaidOut format config tree stock regions
        (2 * pageTables format region.roundedOut.size) s s')
      (onRefusal fun e _ => Unmapped format config regions
        (2 * pageTables format region.roundedOut.size) s e) := by
  have hself : Shift config 0 := .inl rfl
  have hfirst := ends_mapView_laid h unsealed fits hregion order clipped hself
  rw [Nat.add_zero] at hfirst
  refine ends_mapViews_views clipped.pos (hself.checkRange_ok clipped fits)
    (fun hoffset => Shift.checkRange_ok (.inr hoffset) clipped fits)
    (hfirst.weaken (fun _ _ hs => hs) fun e _ he => he.mono (by omega)) (fun _ {s'} hs => ?_)
    fun {offset s₁} hoffset h₁ => ?_
  · have hspent := hs.2
    exact ⟨hs.1, by omega⟩
  · have hspent := h₁.2
    refine (ends_mapView_laid h₁.1 unsealed fits hregion order clipped (.inr hoffset)).weaken
      (fun _ s₂ h₂ => ?_) fun e _ he => (he.after hspent).mono (by omega)
    have hspent' := h₂.2
    exact ⟨h₂.1, by omega⟩

/-- In address order, what comes no later than a region is the region or ends before it. -/
theorem order_of_apart {done rest : List BootRegion}
    (apart : (done ++ region :: rest).Pairwise fun r r' => r.stop ≤ r'.base) :
    ∀ r ∈ done ++ [region], r = region ∨ r.stop ≤ region.base := by
  intro r hr
  cases List.mem_append.mp hr with
  | inl hbefore => exact .inr ((List.pairwise_append.mp apart).2.2 r hbefore _ List.mem_cons_self)
  | inr hlast => exact .inl (List.mem_singleton.mp hlast)

/-- Regions in address order, after some of them were mapped. -/
theorem ends_mapRegions_laid {all : List BootRegion} (unsealed : tree.rootSealed = false)
    (fits : config.SecondViewFits format fun a => a < format.reach)
    (apart : all.Pairwise fun r r' => r.stop ≤ r'.base)
    (nonempty : ∀ r ∈ all, r.base < r.stop) :
    ∀ {regions done : List BootRegion} {s : TableStore}, done ++ regions = all →
      Laid format config tree stock done s →
      Ends (mapRegions format config tree regions) s
        (fun _ s' => LaidOut format config tree stock all
          (regionTables format (regions.map BootRegion.roundedOut)) s s')
        (onRefusal fun e _ => Unmapped format config all
          (regionTables format (regions.map BootRegion.roundedOut)) s e) := by
  -- induction on the regions to come; large pages so far are those of regions before
  intro regions
  induction regions with
  | nil =>
    intro done s hall h
    rw [List.append_nil] at hall
    rw [← hall]
    exact ⟨h, Nat.le_add_right _ _⟩
  | cons region rest ih =>
    intro done s hall h
    have hall' : (done ++ [region]) ++ rest = all := by
      rw [← hall, List.append_assoc, List.singleton_append]
    have hsub : ∀ r ∈ done ++ [region], r ∈ all := by
      intro r hr
      rw [← hall']
      exact List.mem_append_left rest hr
    have hregion : region ∈ done ++ [region] := List.mem_append_right done List.mem_cons_self
    have order := order_of_apart (hall.symm ▸ apart)
    have h : Laid format config tree stock (done ++ [region]) s :=
      h.mono fun r hr => List.mem_append_left [region] hr
    -- the other regions, once this one was mapped or passed over
    have hrest : ∀ {s₁ : TableStore}, LaidOut format config tree stock (done ++ [region])
          (2 * pageTables format region.roundedOut.size) s s₁ →
        Ends (mapRegions format config tree rest) s₁
          (fun _ s' => LaidOut format config tree stock all
            (regionTables format ((region :: rest).map BootRegion.roundedOut)) s s')
          (onRefusal fun e _ => Unmapped format config all
            (regionTables format ((region :: rest).map BootRegion.roundedOut)) s e) := by
      intro s₁ h₁
      have hspent := h₁.2
      rw [List.map_cons, regionTables_cons]
      refine (ih hall' h₁.1).weaken (fun _ s' h' => ⟨h'.1, ?_⟩) fun e _ he => he.after hspent
      have hspent' := h'.2
      omega
    refine ends_mapRegions_cons (nonempty region (hsub region hregion)) (fun {s₁} same _ => ?_)
      fun {s₁ base size} same clipped => ?_
    · refine hrest ⟨h.of_same same, ?_⟩
      rw [same.frames]
      exact Nat.le_add_right _ _
    · refine (ends_mapViews_laid (h.of_same same) unsealed fits hregion order clipped).weaken
        (fun _ s₂ h₂ => ?_) fun e _ he => ?_
      · intro s₃ after
        refine hrest ⟨h₂.1.of_same after, ?_⟩
        rw [after.frames, ← same.frames]
        exact h₂.2
      · rw [List.map_cons, regionTables_cons]
        exact ((he.of_same same).grow hsub).mono (by omega)

/-! ## Starting the manager -/

variable {memory : Memory} {frame : PhysAddr} {root : TableId} {map : BootMap}

/-- Nothing was mapped on a first root. -/
theorem FirstRoot.laid (h : FirstRoot format stock memory frame root s) :
    Laid format config ⟨root, false⟩ stock [] s where
  ready := h.ready
  shown := by
    intro w q flags _ hview
    cases (h.view_root w).symm.trans hview
  large := by
    intro id i mapping hslot
    rw [h.arena, Arena.slot?_add Arena.names_empty] at hslot
    split at hslot
    · rw [Arena.slots_blank] at hslot
      split at hslot <;> cases hslot
    · rw [Arena.slot?, Arena.get?_empty] at hslot
      cases hslot
  flat := by
    intro _ w l mapping hfound
    have hview := Arena.view_of_lookup hfound
    cases (h.view_root w).symm.trans hview

/-- Building the kernel tree of a map on a first root. -/
theorem ends_populate_laid (hbase : config.kernelImageBase = none)
    (fits : config.SecondViewFits format fun a => a < format.reach)
    (h : FirstRoot format stock memory frame root s) (image : Option MemoryRegion) :
    Ends (populate format config ⟨root, false⟩ map image []) s
      (fun _ s' => LaidOut format config ⟨root, false⟩ stock (mappedRegions map)
        (regionTables format ((mappedRegions map).map BootRegion.roundedOut)) s s')
      (onRefusal fun e _ => Unmapped format config (mappedRegions map)
        (regionTables format ((mappedRegions map).map BootRegion.roundedOut)) s e) := by
  rw [ends_populate_regions hbase]
  exact ends_mapRegions_laid rfl fits apart_of_mapped nonempty_of_mapped (List.nil_append _) h.laid

end Manager

variable {m : Machine}

/-- A second view in the upper half of the address space is apart from all memory in reach. -/
theorem secondViewFits_of_upper (hoffset : config.directMapOffset = none
      ∨ format = .wide ∧ config.directMapOffset = some 0xFFFF800000000000) :
    config.SecondViewFits format fun a => a < format.reach := by
  have hreach : Format.wide.reach = 2 ^ 47 := by decide
  rcases hoffset with hnone | ⟨rfl, hsome⟩
  · constructor
    · intro offset h
      cases hnone.symm.trans h
    · intro offset a h
      cases hnone.symm.trans h
    · intro offset a b h
      cases hnone.symm.trans h
  · constructor
    · intro offset h
      cases hsome.symm.trans h
      decide
    · intro offset a h ha
      cases hsome.symm.trans h
      rw [hreach] at ha
      rw [Format.inRange_wide]
      omega
    · intro offset a b h ha hb
      cases hsome.symm.trans h
      rw [hreach] at hb
      omega

/-- With an allocator that was started, and nothing to map but the regions of a map, the manager
starts, or there were too few frames for the tables, or two regions of different policies meet
inside the last page of a large page that the first of them fills. -/
theorem init_unless_clash (cpu : CpuId) (map : BootMap) (hwf : m.store.frames.WellFormed)
    (initialized : m.store.frames.isInitialized = true) (hspaces : m.spaces = none)
    (hempty : m.store.arena = Arena.empty) (hbase : config.kernelImageBase = none)
    (hoffset : config.directMapOffset = none
      ∨ format = .wide ∧ config.directMapOffset = some 0xFFFF800000000000) :
    (∃ space m', init format config cpu map [] m = .ok space m')
      ∨ (∃ m', init format config cpu map [] m = .error (.refused .outOfMemory) m'
        ∧ m.store.frames.available .normal
          ≤ regionTables format ((mappedRegions map).map BootRegion.roundedOut))
      ∨ ∃ m', init format config cpu map [] m = .error (.refused .incompatible) m'
        ∧ config.largePages = true
        ∧ ∃ region ∈ mappedRegions map, ∃ later ∈ mappedRegions map,
          Clash format region later := by
  have hsound : m.Sound format m.store.frames.inUse := sound_unstarted hwf hspaces hempty
  have fits := secondViewFits_of_upper hoffset
  have hends : Ends (init format config cpu map []) m _ _ :=
    ends_init_of_populate hsound hspaces (fun _ _ => True)
    (fun e => Unmapped format config (mappedRegions map)
      (regionTables format ((mappedRegions map).map BootRegion.roundedOut) + 1) m.store e)
    fun {frame root s} hallocated hfirst => by
      have hspent := FrameAllocator.available_of_allocatePage hwf hallocated
      refine (ends_populate_laid hbase fits hfirst _).weaken (fun _ _ _ => trivial) fun e _ he => ?_
      exact (he.after (Nat.le_of_eq hspent)).mono (by omega)
  cases hinit : init format config cpu map [] m with
  | ok space m' => exact .inl ⟨space, m', rfl⟩
  | error failure m' =>
    have hfailed := hends.of_error hinit
    cases failure with
    | fault fault => exact hfailed.elim
    | refused error =>
      obtain ⟨-, (⟨rfl, hshort⟩ | ⟨rfl, hclash⟩) | ⟨error', herror, rfl⟩⟩ := hfailed
      · exact .inr (.inl ⟨m', rfl, by omega⟩)
      · exact .inr (.inr ⟨m', rfl, hclash⟩)
      · obtain ⟨rfl, hnone⟩ := FrameAllocator.outOfMemory_of_allocatePage hwf initialized herror
        exact .inr (.inl ⟨m', rfl, by omega⟩)

/-! ### Two maps -/

/-- The kernel image and a device that have a page in common, and memory that is not mapped. -/
def sharedPageMap : BootMap :=
  ⟨[⟨0, .kernelImage, .none⟩, ⟨0x1800, .device, .none⟩, ⟨0x3000, .reserved, .none⟩,
    ⟨0x4000, .free, ⟨false, true⟩⟩, ⟨2 ^ 26, .endMarker, .none⟩], by decide⟩

theorem mappedRegions_sharedPageMap : mappedRegions sharedPageMap
    = [⟨⟨0, 0x1800⟩, .kernelImage, .none⟩, ⟨⟨0x1800, 0x1800⟩, .device, .none⟩] := by decide

/-- A second view in the upper half. -/
def mirroredHigh : Config := { directMapOffset := some 0xFFFF800000000000 }

/-- The page in common is in no large page, and the manager starts. -/
theorem init_unless_clash_sharedPage : ∃ m space m',
    m.store.frames.WellFormed ∧ m.store.frames.isInitialized = true ∧ m.spaces = none
      ∧ m.store.arena = Arena.empty
      ∧ init .wide mirroredHigh 0 sharedPageMap [] m = .ok space m' := by
  obtain ⟨m, stock, h, hframes, hspaces⟩ : ∃ m stock,
      Answered .wide mirroredHigh AnyCall 0 [(0, .initFrames sharedPageMap)] m stock ∧ _ ∧ _ :=
    answered_initFrames (by decide) trivial 0
  have hsound : m.Sound .wide stock := h.reachable.sound.machine
  have hwf := hsound.ledger.allocator
  have hempty := hsound.unstarted hspaces
  have initialized : m.store.frames.isInitialized = true := by
    rw [hframes]
    rfl
  have hoffset : mirroredHigh.directMapOffset = none
      ∨ Format.wide = .wide ∧ mirroredHigh.directMapOffset = some 0xFFFF800000000000 :=
    .inr ⟨rfl, rfl⟩
  rcases init_unless_clash 0 sharedPageMap hwf initialized hspaces hempty rfl hoffset with
    ⟨space, m', hinit⟩ | ⟨_, -, hshort⟩ | ⟨_, -, -, region, hregion, _, -, hclash⟩
  · exact ⟨m, space, m', hwf, initialized, hspaces, hempty, hinit⟩
  · -- there are frames enough
    have henough : 16380 ≤ m.store.frames.available .normal := by
      have hlisted : (⟨⟨0x4000, 2 ^ 26 - 0x4000⟩, .free, ⟨false, true⟩⟩ : BootRegion)
          ∈ sharedPageMap.regions := by decide
      have hstop : (16384 : Nat) = sharedPageMap.stop / frameSize := by decide
      rw [hframes]
      refine FrameAllocator.le_available_init (by decide) (by decide) hlisted
        (show 0 < 4 by decide) (Nat.le_of_eq hstop) (fun frame hle hlt => ⟨rfl, ?_, ?_⟩) {}
      · show ¬ frame * 4096 < 0x4000
        omega
      · show ¬ 2 ^ 26 < (frame + 1) * 4096
        omega
    have htables : regionTables .wide ((mappedRegions sharedPageMap).map BootRegion.roundedOut)
        = 48 := by
      rw [mappedRegions_sharedPageMap]
      rfl
    omega
  · -- no region is as large as a large page
    obtain ⟨block, -, hend⟩ := hclash.fills
    have hsmall : ceilTo frameSize region.stop ≤ 0x3000 := by
      rw [mappedRegions_sharedPageMap] at hregion
      rcases List.mem_pair.mp hregion with rfl | rfl
      · decide
      · decide
    have hspan : Format.wide.span Format.largeLevel = 0x200000 := by decide
    omega

/-- Memory and a device that have the last page of a large page in common. -/
def crampedMap : BootMap :=
  ⟨[⟨0, .free, ⟨false, true⟩⟩, ⟨0x4000, .reserved, .none⟩, ⟨0x200000, .free, .none⟩,
    ⟨0x3ff800, .device, .none⟩, ⟨0x400000, .endMarker, .none⟩], by decide⟩

/-- There are plenty of frames, and the manager does not start. -/
theorem crampedMap_refused : ∃ m m', initFrames crampedMap (Machine.powerOn 0) = .ok true m
    ∧ m.store.frames.available .normal = 514
    ∧ init .wide {} 0 crampedMap [] m = .error (.refused .incompatible) m' := by
  have hends : Ends (initFrames crampedMap) (Machine.powerOn 0)
      (fun first m => first = true ∧ m.store.frames.available .normal = 514
        ∧ Ends (init .wide {} 0 crampedMap []) m (fun _ _ => False)
          fun failure _ => failure = .refused .incompatible)
      fun _ _ => False := by decide +kernel
  obtain ⟨first, m, hframes, rfl, havailable, hrefused⟩ := exists_of_ends hends
  obtain ⟨failure, m', hinit, rfl⟩ := exists_error_of_ends hrefused
  exact ⟨m, m', hframes, havailable, hinit⟩

end KernelMemory
