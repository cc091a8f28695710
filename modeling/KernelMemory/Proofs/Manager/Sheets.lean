/-
  KernelMemory.Proofs.Manager.Sheets — what the kernel tree shows, range over range.

  What a tree shows is a sheet: for each address, the one it is translated to and the attributes.
  A range that is mapped is laid over what was there, and where two ranges have a page in common
  the later one shows.  So what the manager builds out of ranges is told by their sheets alone
  (`Painted`), whatever tables they share.  A range that is refused is laid as far as the page that
  something was in the way of.

  Main results:
    * `ends_mapView_painted`, `ends_mapViews_painted` — a range, in one view and in all;
    * `ends_mapRegions_painted` — regions one after another.
-/

import KernelMemory.Proofs.Manager.Neighbours

namespace KernelMemory

open Machine Manager Steps

/-- What is seen at addresses: what each is translated to, and its attributes. -/
abbrev Sheet := Nat → Option (Nat × PageFlags)

namespace Sheet

/-- Nothing is seen anywhere. -/
def blank : Sheet := fun _ => none

/-- One sheet laid over another. -/
def onto (top below : Sheet) : Sheet := fun w => (top w).or (below w)

/-- The part of a sheet before an address. -/
def upTo (sheet : Sheet) (front : Nat) : Sheet := fun w => if w < front then sheet w else none

theorem onto_blank (sheet : Sheet) : sheet.onto blank = sheet :=
  funext fun _ => Option.or_none

theorem onto_assoc (top middle below : Sheet) :
    (top.onto middle).onto below = top.onto (middle.onto below) :=
  funext fun _ => Option.or_assoc

theorem onto_eq_some {top below : Sheet} {w : Nat} {found : Nat × PageFlags}
    (h : top.onto below w = some found) : top w = some found ∨ below w = some found := by
  rcases Option.or_eq_some_iff.mp h with h | h
  · exact .inl h
  · exact .inr h.2

theorem onto_eq_none {top below : Sheet} {w : Nat} :
    top.onto below w = none ↔ top w = none ∧ below w = none := Option.or_eq_none_iff

theorem upTo_eq_some {sheet : Sheet} {front w : Nat} {found : Nat × PageFlags} :
    sheet.upTo front w = some found ↔ w < front ∧ sheet w = some found := by
  rw [upTo]
  split
  · rename_i hlt
    exact (and_iff_right hlt).symm
  · rename_i hle
    exact ⟨nofun, fun h => absurd h.1 hle⟩

end Sheet

/-! ## The sheet of a range -/

/-- The pages of a range, without page 0; a range of no size has none. -/
def rangeSheet (virt phys size : Nat) (flags : PageFlags) : Sheet := fun w =>
  if size = 0 then none
  else (pageBounds virt phys size).bind fun ((v, p, length) : Nat × Nat × Nat) =>
    if frameSize ≤ w ∧ v ≤ w ∧ w < v + length then some (p + (w - v), flags) else none

variable {format : Format} {config : Config} {tree : KernelTree} {stock : Stock}
  {virt phys size base : Nat} {flags : PageFlags} {s s' s'' : TableStore} {error : MemoryError}

/-- It shows what a request for the range covers. -/
theorem rangeSheet_eq_some_iff {request : MapRequest} (hpos : 0 < request.size) {w q : Nat}
    {flags' : PageFlags} :
    rangeSheet request.virt request.phys request.size flags w = some (q, flags')
      ↔ request.Covers w q ∧ flags' = flags := by
  unfold rangeSheet MapRequest.Covers Part
  rw [if_neg (Nat.ne_of_gt hpos)]
  cases hb : pageBounds request.virt request.phys request.size with
  | none => simp
  | some bounds =>
    obtain ⟨v, p, length⟩ := bounds
    simp only [Option.bind_some, Option.ite_none_right_eq_some, Option.some.injEq, Prod.mk.injEq]
    constructor
    · rintro ⟨⟨hnull, hle, hlt⟩, rfl, rfl⟩
      refine ⟨⟨hnull, v, p, length, ⟨rfl, rfl, rfl⟩, hle, hlt, ?_⟩, rfl⟩
      rw [Nat.add_assoc, Nat.sub_add_cancel hle]
    · rintro ⟨⟨hnull, _, _, _, ⟨rfl, rfl, rfl⟩, hle, hlt, hq⟩, rfl⟩
      refine ⟨⟨hnull, hle, hlt⟩, ?_, rfl⟩
      rw [← Nat.add_sub_assoc hle, ← hq, Nat.add_sub_cancel]

theorem rangeSheet_flags {w : Nat} {found : Nat × PageFlags}
    (h : rangeSheet virt phys size flags w = some found) : found.2 = flags := by
  unfold rangeSheet at h
  split at h
  · cases h
  · obtain ⟨⟨v, p, length⟩, -, h⟩ := Option.bind_eq_some_iff.mp h
    simp only [Option.ite_none_right_eq_some, Option.some.injEq] at h
    rw [← h.2]

theorem rangeSheet_zero (virt phys : Nat) (flags : PageFlags) :
    rangeSheet virt phys 0 flags = .blank := funext fun _ => if_pos rfl

/-! ## The sheets of memory -/

/-- Where memory is seen: at its own address, and at the configured offset. -/
def Config.views (config : Config) (base : PhysAddr) : List VirtAddr :=
  base :: (config.directMapOffset.map fun offset => base + offset).toList

theorem Config.views_of_none {config : Config} (h : config.directMapOffset = none)
    (base : PhysAddr) : config.views base = [base] := by
  rw [Config.views, h]
  rfl

theorem Config.views_of_some {config : Config} {offset : Nat}
    (h : config.directMapOffset = some offset) (base : PhysAddr) :
    config.views base = [base, base + offset] := by
  rw [Config.views, h]
  rfl

theorem mem_views_iff {base : PhysAddr} {virt : VirtAddr} :
    virt ∈ config.views base ↔ ∃ shift, Shift config shift ∧ base + shift = virt := by
  unfold Config.views Shift
  cases config.directMapOffset with
  | none => simp [eq_comm]
  | some offset => simp [eq_comm]

/-- Memory is out of range in some view. -/
def Config.Beyond (format : Format) (config : Config) (base size : Nat) : Prop :=
  (∃ virt ∈ config.views base, checkRange format virt base size ≠ .ok ())
    ∨ ∃ offset, config.directMapOffset = some offset ∧ Word.bound ≤ base + offset

/-- Views of a range of memory, each over those before. -/
def viewsSheet (phys size : Nat) (flags : PageFlags) : List VirtAddr → Sheet
  | [] => .blank
  | virt :: rest => (viewsSheet phys size flags rest).onto (rangeSheet virt phys size flags)

theorem viewsSheet_append (phys size : Nat) (flags : PageFlags) (before after : List VirtAddr) :
    viewsSheet phys size flags (before ++ after)
      = (viewsSheet phys size flags after).onto (viewsSheet phys size flags before) := by
  induction before with
  | nil => exact (Sheet.onto_blank _).symm
  | cons virt before ih =>
    rw [List.cons_append, viewsSheet, ih, Sheet.onto_assoc]
    rfl

theorem viewsSheet_flags {views : List VirtAddr} {w : Nat} {found : Nat × PageFlags}
    (h : viewsSheet phys size flags views w = some found) : found.2 = flags := by
  induction views with
  | nil => cases h
  | cons virt rest ih => exact (Sheet.onto_eq_some h).elim ih rangeSheet_flags

/-- A range of memory in all its views. -/
def memorySheet (config : Config) (base size : Nat) (flags : PageFlags) : Sheet :=
  viewsSheet base size flags (config.views base)

/-- The part of a boot region that is in reach. -/
def regionSheet (format : Format) (config : Config) (region : BootRegion) : Sheet :=
  if region.base < format.reach then
    memorySheet config region.base (min region.stop format.reach - region.base) (regionFlags region)
  else .blank

/-- Boot regions, each over those before. -/
def regionsSheet (format : Format) (config : Config) : List BootRegion → Sheet
  | [] => .blank
  | region :: rest => (regionsSheet format config rest).onto (regionSheet format config region)

theorem memorySheet_of_clipped {region : BootRegion} (h : Clipped format region base size) :
    memorySheet config base size (regionFlags region) = regionSheet format config region := by
  obtain ⟨rfl, hpos, hstop⟩ := h
  have hin : region.base < format.reach :=
    Nat.lt_of_lt_of_le (Nat.lt_add_of_pos_right hpos) (hstop ▸ Nat.min_le_right _ _)
  rw [regionSheet, if_pos hin, ← hstop, Nat.add_sub_cancel_left]

theorem regionSheet_of_beyond {region : BootRegion} (nonempty : region.base < region.stop)
    (h : ∀ a, ¬ region.Holds format a) : regionSheet format config region = .blank :=
  if_neg fun hin => h region.base ⟨Nat.le_refl _, nonempty, hin⟩

namespace Manager

/-! ## One range over another -/

/-- A sheet was laid over what the kernel tree showed, and no address was given to another frame. -/
structure Painted (format : Format) (tree : KernelTree) (stock : Stock) (top : Sheet)
    (s s' : TableStore) : Prop where
  ready : TreeReady format tree stock s'
  inRange : ∀ {w found}, top w = some found → format.virtualInRange w = true
  view : ∀ {w}, format.virtualInRange w = true →
    s'.arena.view format tree.root w = top.onto (s.arena.view format tree.root) w
  keeps : ∀ {w q flags}, s.arena.view format tree.root w = some (q, flags) →
    ∃ flags', s'.arena.view format tree.root w = some (q, flags')

theorem Painted.of_same (h : TreeReady format tree stock s) (same : s.Same s') :
    Painted format tree stock .blank s s' where
  ready := h.same same
  inRange := nofun
  view := fun _ => by rw [same.arena]; rfl
  keeps := fun hview => ⟨_, by rw [same.arena]; exact hview⟩

theorem Painted.trans {top top' : Sheet} (h : Painted format tree stock top s s')
    (h' : Painted format tree stock top' s' s'') :
    Painted format tree stock (top'.onto top) s s'' where
  ready := h'.ready
  inRange := fun hsome => (Sheet.onto_eq_some hsome).elim h'.inRange h.inRange
  view := fun hw => by
    rw [h'.view hw, Sheet.onto_assoc, Sheet.onto, h.view hw]
    rfl
  keeps := fun hview => by
    obtain ⟨_, hview'⟩ := h.keeps hview
    exact h'.keeps hview'

/-- What is logged before and after does not matter. -/
theorem Painted.between {s₁ s₂ : TableStore} {top : Sheet} (h : Painted format tree stock top s₁ s₂)
    (before : s.Same s₁) (after : s₂.Same s') : Painted format tree stock top s s' where
  ready := h.ready.same after
  inRange := h.inRange
  view := by rw [← before.arena, after.arena]; exact h.view
  keeps := by rw [← before.arena, after.arena]; exact h.keeps

/-- A request is laid over what was there where its pages say, or the first of them. -/
theorem Painted.of_overlaid {request : MapRequest} {M : Nat → Nat → Prop} {top : Sheet}
    (h : TreeReady format tree stock s) (ready : request.Ready format tree.root s)
    (hroot : request.root = tree.root) (hoverlaid : Overlaid format request M s s')
    (hM : ∀ {w q}, M w q → request.Covers w q)
    (htop : ∀ {w q flags}, top w = some (q, flags) ↔ M w q ∧ flags = request.flags) :
    Painted format tree stock top s s' := by
  have hall := allReady_of_ready ready
  have hgrows := hoverlaid.edits.grows h.orderly hall
  refine ⟨⟨hoverlaid.edits.orderly h.orderly hall, hgrows.level h.root⟩, fun hsome => ?_,
    fun {w} hw => ?_, fun hview => Arena.view_grows hgrows hview⟩
  · exact (hM (htop.mp hsome).1).inRange ready.fits.within
  · rw [Sheet.onto, ← hroot]
    cases hsome : top w with
    | none =>
      refine Arena.view_congr (hoverlaid.outside hw fun q hm => ?_)
      have hfound := htop.mpr ⟨hm, rfl⟩
      rw [hsome] at hfound
      cases hfound
    | some found =>
      obtain ⟨q, flags⟩ := found
      obtain ⟨hm, rfl⟩ := htop.mp hsome
      exact hoverlaid.inside hm

/-- A range was laid up to a page, and why not that page: it shows something else. -/
structure RangeHalted (format : Format) (tree : KernelTree) (stock : Stock)
    (virt phys size : Nat) (flags : PageFlags) (front q : Nat) (s s' : TableStore)
    (error : MemoryError) : Prop where
  page : rangeSheet virt phys size flags front = some (q, flags)
  inRange : format.virtualInRange front = true
  mod : front % frameSize = 0
  painted : Painted format tree stock ((rangeSheet virt phys size flags).upTo front) s s'
  why : error = .outOfMemory ∨ (error = .bootstrapOnly ∧ tree.rootSealed = true)
    ∨ error = .incompatible ∧ ∃ p flags', s'.arena.view format tree.root front = some (p, flags')
      ∧ (p ≠ q ∨ flags' ≠ flags)

/-- A view that was checked is laid over what was there, or the part of it before a page that
something is in the way of. -/
theorem ends_mapView_painted (h : TreeReady format tree stock s)
    (hcheck : checkRange format virt phys size = .ok ()) :
    Ends (mapView format config tree virt phys size flags) s
      (fun _ s' => Painted format tree stock (rangeSheet virt phys size flags) s s')
      (onRefusal fun e s' => ∃ front q,
        RangeHalted format tree stock virt phys size flags front q s s' e) := by
  by_cases hsize : size = 0
  · subst hsize
    rw [mapView, if_pos rfl, ends_pure, rangeSheet_zero]
    exact .of_same h ⟨rfl, rfl⟩
  · have hpos : 0 < size := Nat.pos_of_ne_zero hsize
    have hready : (viewRequest config tree virt phys size flags).Ready format tree.root s :=
      ⟨.of_checkRange rfl hpos hcheck, h.root⟩
    have hsheet : ∀ {w q : Nat} {flags' : PageFlags},
        rangeSheet virt phys size flags w = some (q, flags')
          ↔ (viewRequest config tree virt phys size flags).Covers w q ∧ flags' = flags :=
      @rangeSheet_eq_some_iff flags (viewRequest config tree virt phys size flags) hpos
    rw [mapView_eq hsize, ends_bind, ends_ofResult_ok hcheck]
    refine (Walk.ends_mapRange_upTo h.orderly.walkable hready.fitted).weaken (fun _ s' hs => ?_)
      fun e s' he => ?_
    · exact .of_overlaid h hready rfl hs.overlaid id hsheet
    · cases he with
      | unbounded none same refused =>
        have hlast := (checkRange_eq_ok hpos hcheck).2.1
        have hle := format.physicalEnd_le
        obtain ⟨v, p, length, hb⟩ :=
          exists_pageBounds virt phys (show size ≤ 2 ^ 52 by omega)
        cases none.symm.trans hb
      | @stopped v p length front bounds lt mod covers overlaid blocked =>
        refine ⟨v + front, p + front, hsheet.mpr ⟨covers, rfl⟩, covers.inRange hready.fits.within, ?_,
          ?_, ?_⟩
        · rw [Nat.add_mod, (pageBounds_spec bounds).1, mod]
          rfl
        · refine .of_overlaid h hready rfl overlaid And.left fun {w q flags'} => ?_
          rw [Sheet.upTo_eq_some, hsheet]
          exact ⟨fun hboth => ⟨⟨hboth.2.1, hboth.1⟩, hboth.2.2⟩,
            fun hboth => ⟨hboth.1.2, hboth.1.1, hboth.2⟩⟩
        · cases blocked with
          | sealedRoot sealing slot refused => exact .inr (.inl ⟨refused, sealing⟩)
          | conflict found differs refused =>
            refine .inr (.inr ⟨refused, _, _, Arena.view_of_lookup found, ?_⟩)
            exact differs.imp Ne.symm And.right
          | exhausted none short refused =>
            have hstarted := h.orderly.ledger.initialized h.total_ne_zero
            exact .inl (refused.resolve_right (by simp [hstarted]))

/-! ## All views of memory -/

/-- Memory was turned away as out of range before anything was done; or some of its views were laid,
and of the next one the pages before one that shows something else. -/
inductive MemoryHalted (format : Format) (config : Config) (tree : KernelTree) (stock : Stock)
    (base size : Nat) (flags : PageFlags) (s s' : TableStore) (error : MemoryError) : Prop where
  | beyond (same : s' = s) (refused : error = .addressOutOfRange)
  | halted {before after : List VirtAddr} {virt : VirtAddr} {front q : Nat} {s₁ : TableStore}
      (views : config.views base = before ++ virt :: after)
      (painted : Painted format tree stock (viewsSheet base size flags before) s s₁)
      (range : RangeHalted format tree stock virt base size flags front q s₁ s' error)

theorem beyond_of_secondView (h : secondView config base = .error error) :
    config.Beyond format base size := by
  cases hoffset : config.directMapOffset with
  | none => cases (secondView_of_none hoffset base).symm.trans h
  | some offset =>
    refine .inr ⟨offset, hoffset, Nat.le_of_not_lt fun hword => ?_⟩
    cases (secondView_of_some hoffset hword).symm.trans h

theorem beyond_of_checkRange (hvirt : virt ∈ config.views base)
    (h : checkRange format virt base size = .error error) : config.Beyond format base size :=
  .inl ⟨virt, hvirt, fun hok => by cases h.symm.trans hok⟩

theorem not_beyond
    (hchecks : ∀ virt ∈ config.views base, checkRange format virt base size = .ok ())
    (hwords : ∀ {offset}, config.directMapOffset = some offset → base + offset < Word.bound) :
    ¬ config.Beyond format base size := by
  rintro (⟨virt, hvirt, hrefused⟩ | ⟨offset, hoffset, hbeyond⟩)
  · exact hrefused (hchecks virt hvirt)
  · exact Nat.not_lt_of_le hbeyond (hwords hoffset)

/-- Memory is out of range in some view, and nothing is done, or it is mapped in one view after
another, each of which is in range. -/
theorem ends_mapViews_each {policy : CachePolicy} (done : List VirtAddr → TableStore → Prop)
    {refused : MemoryError → TableStore → Prop}
    (beyond : config.Beyond format base size → refused .addressOutOfRange s) (start : done [] s)
    (each : ∀ {before after : List VirtAddr} {virt : VirtAddr} {s₁ : TableStore},
      config.views base = before ++ virt :: after → checkRange format virt base size = .ok () →
      done before s₁ →
      Ends (mapView format config tree virt base size (PageFlags.kernelData.withCachePolicy policy))
        s₁ (fun _ s' => done (before ++ [virt]) s') (onRefusal refused)) :
    Ends (mapViews format config tree base size policy) s
      (fun _ s' => ¬ config.Beyond format base size ∧ done (config.views base) s')
      (onRefusal refused) := by
  have hfirst : base ∈ config.views base := List.mem_cons_self
  rw [mapViews, ends_bind, ends_ofResult]
  refine ⟨fun second hsecond => ?_, fun e he => error_of_secondView he ▸
    beyond (beyond_of_secondView he)⟩
  rw [ends_bind, ends_ofResult]
  refine ⟨fun _ hidentity => ?_, fun e he => error_of_checkRange he ▸
    beyond (beyond_of_checkRange hfirst he)⟩
  cases hoffset : config.directMapOffset with
  | none =>
    have hviews := Config.views_of_none hoffset base
    have hwithin : ¬ config.Beyond format base size := by
      refine not_beyond (fun virt hvirt => ?_) fun hsome => by cases hoffset.symm.trans hsome
      rw [hviews] at hvirt
      obtain rfl := List.mem_singleton.mp hvirt
      exact hidentity
    rw [secondView_of_none hoffset] at hsecond
    cases hsecond
    simp only
    rw [ends_bind, hviews]
    exact (each hviews hidentity start).mono (fun _ _ h' => ⟨hwithin, h'⟩) fun _ _ hf => hf
  | some offset =>
    have hviews := Config.views_of_some hoffset base
    obtain ⟨hword, rfl⟩ : base + offset < Word.bound ∧ second = some (base + offset) := by
      rw [secondView, hoffset] at hsecond
      simp only at hsecond
      split at hsecond
      · rename_i virt hvirt
        obtain ⟨hword, rfl⟩ := Word.add?_eq_some_iff.mp hvirt
        cases hsecond
        exact ⟨hword, rfl⟩
      · cases hsecond
    simp only
    rw [ends_bind, ends_ofResult]
    refine ⟨fun _ hshifted => ?_, fun e he => error_of_checkRange he ▸
      beyond (beyond_of_checkRange (by simp [hviews]) he)⟩
    have hwithin : ¬ config.Beyond format base size := by
      refine not_beyond (fun virt hvirt => ?_) fun hsome => by
        cases hoffset.symm.trans hsome
        exact hword
      rw [hviews] at hvirt
      rcases List.mem_pair.mp hvirt with rfl | rfl
      · exact hidentity
      · exact hshifted
    rw [ends_bind, hviews]
    refine (each hviews hidentity start).mono (fun _ s₁ h₁ => ?_) fun _ _ hf => hf
    rw [ends_bind]
    exact (@each [base] [] _ _ hviews hshifted h₁).mono (fun _ _ h₂ => ⟨hwithin, h₂⟩) fun _ _ hf => hf

/-- Memory is laid over what was there, in all its views, or as far as something is in the way. -/
theorem ends_mapViews_painted {policy : CachePolicy} (h : TreeReady format tree stock s) :
    Ends (mapViews format config tree base size policy) s
      (fun _ s' => Painted format tree stock
        (memorySheet config base size (PageFlags.kernelData.withCachePolicy policy)) s s')
      (onRefusal fun e s' => MemoryHalted format config tree stock base size
        (PageFlags.kernelData.withCachePolicy policy) s s' e) := by
  refine (ends_mapViews_each (fun before s₁ => Painted format tree stock
    (viewsSheet base size (PageFlags.kernelData.withCachePolicy policy) before) s s₁)
    (fun _ => .beyond rfl rfl) (.of_same h ⟨rfl, rfl⟩) fun hviews hcheck hpainted => ?_).mono
      (fun _ _ h' => h'.2) fun _ _ hf => hf
  refine (ends_mapView_painted hpainted.ready hcheck).weaken (fun _ s' h' => ?_) fun e s' he => ?_
  · rw [viewsSheet_append]
    exact hpainted.trans h'
  · obtain ⟨front, q, hrange⟩ := he
    exact .halted hviews hpainted hrange

/-! ## Boot regions -/

/-- Boot regions are laid one over another, as far as they are in reach. -/
theorem ends_mapRegions_painted : ∀ {regions : List BootRegion} {s : TableStore},
    (∀ region ∈ regions, region.base < region.stop) → TreeReady format tree stock s →
    Ends (mapRegions format config tree regions) s
      (fun _ s' => Painted format tree stock (regionsSheet format config regions) s s')
      (fun _ _ => True) := by
  -- induction on the regions, which come one after another in the sheet too
  intro regions
  induction regions with
  | nil => exact fun _ h => .of_same h ⟨rfl, rfl⟩
  | cons region rest ih =>
    intro s nonempty h
    have hrest : ∀ {s₁}, Painted format tree stock (regionSheet format config region) s s₁ →
        Ends (mapRegions format config tree rest) s₁
          (fun _ s' => Painted format tree stock (regionsSheet format config (region :: rest)) s s')
          (fun _ _ => True) := by
      intro s₁ h₁
      exact (ih (fun r hr => nonempty r (List.mem_cons_of_mem region hr)) h₁.ready).mono
        (fun _ _ h' => h₁.trans h') fun _ _ _ => trivial
    have hregion : region.base < region.stop := nonempty region List.mem_cons_self
    refine ends_mapRegions_cons hregion (fun {s₁} same hbeyond => ?_)
      fun {s₁ base size} same clipped => ?_
    · refine hrest ?_
      rw [regionSheet_of_beyond hregion hbeyond]
      exact .of_same h same
    · refine (ends_mapViews_painted (h.same same)).mono (fun _ s₂ h₂ => ?_) fun _ _ _ => trivial
      intro s₃ after
      refine hrest ?_
      rw [← memorySheet_of_clipped clipped]
      exact h₂.between same after

end Manager

end KernelMemory
