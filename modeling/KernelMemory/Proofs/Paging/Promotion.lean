/-
  KernelMemory.Proofs.Paging.Promotion — large pages do not show in translations.

  Ranges are mapped one after another under an empty root, once with large pages where they
  fit and once without.  The two trees differ in shape, but mirror each other (`Mirrors`):
  they translate alike, and the same slots of their roots are filled.  That is all that
  decides about the next range.  In the tree of small pages a range is refused only where the
  other tree maps a page to another frame or lacks a slot, and then it was refused there too.

  Main results:
    * `Mirrors.mapped` — a range that is mapped in both trees keeps them mirrors;
    * `Mirrors.exists_mapRange` — a range that is mapped with large pages can be mapped with
      small ones;
    * `promotion_unseen` — the same for any list of ranges.
-/

import KernelMemory.Proofs.Paging.Mapping
import KernelMemory.Proofs.Paging.Sharing

namespace KernelMemory

/-! ## Ranges one after another -/

namespace MapRequest

/-- The request on another root, with large pages or without. -/
def on (request : MapRequest) (root : TableId) (large : Bool) : MapRequest :=
  { request with root := root, largePages := large }

theorem tables_on_large (format : Format) (request : MapRequest) (root : TableId) :
    (request.on root true).tables format = 2 * format.topLevel * request.pageCount := rfl

theorem tables_on_small (format : Format) (request : MapRequest) (root : TableId) :
    (request.on root false).tables format = format.topLevel * request.pageCount := rfl

/-- All pages of the request can be translated, and all their frames can be named. -/
structure InRange (format : Format) (request : MapRequest) : Prop where
  virt : ∀ {v p length : Nat},
    pageBounds request.virt request.phys request.size = some (v, p, length) →
      ∀ w, v ≤ w → w < v + length → format.virtualInRange w = true
  phys : ∀ {v p length : Nat},
    pageBounds request.virt request.phys request.size = some (v, p, length) →
      p + length ≤ format.physicalEnd + frameSize

/-- A range that the manager lets pass is in range. -/
theorem InRange.of_checkRange {format : Format} {request : MapRequest} (hsize : 0 < request.size)
    (h : Manager.checkRange format request.virt request.phys request.size = .ok ()) :
    request.InRange format where
  virt := fun hb => (Manager.checkRange_cover hsize h hb).1
  phys := fun hb => (Manager.checkRange_cover hsize h hb).2.1

theorem InRange.fits {format : Format} {request : MapRequest} (h : request.InRange format)
    (root : TableId) (large : Bool) : (request.on root large).Fits format root where
  inRange := h.virt
  frames := h.phys
  home := .inl rfl

end MapRequest

namespace Walk

/-- Maps ranges one after another under a root, with large pages or without. -/
def mapAll (format : Format) (root : TableId) (large : Bool) : List MapRequest → TableSteps Unit
  | [] => return ()
  | request :: rest => do
    let _ ← mapRange format (request.on root large)
    mapAll format root large rest

/-- As many tables as ranges may need without large pages. -/
def tablesFor (format : Format) (requests : List MapRequest) : Nat :=
  (requests.map fun request => format.topLevel * request.pageCount).sum

/-- The attributes that an address is mapped with. -/
def attributes (format : Format) (arena : Arena) (root : TableId) (virt : VirtAddr) :
    Except Fault (Option PageFlags) := do
  match ← cover format arena root virt with
  | none => return none
  | some (mapping, _) => return some mapping.flags

theorem attributes_eq_view {format : Format} {kernel root : TableId} {a : Arena}
    (h : a.Shaped format kernel) (hroot : a.level? root = some format.topLevel) (v : Nat) :
    attributes format a root v = .ok ((a.view format root v).map Prod.snd) := by
  rw [attributes, Arena.cover_eq_lookup h.regular hroot, Arena.view]
  cases a.lookup format v format.levels root with
  | none => rfl
  | some found => rfl

end Walk

/-! ## Trees that mirror each other -/

/-- A root without entries, in tables that are in order. -/
structure TableStore.BareRoot (format : Format) (stock : Stock) (root : TableId)
    (s : TableStore) : Prop where
  orderly : s.Orderly format root stock
  bare : ∀ i, i < format.entries → s.arena.slot? root i = some .empty

/-- Two trees translate alike and have the same slots of their roots filled; the second has
no large pages. -/
structure Mirrors (format : Format) (root root' : TableId) (s t : TableStore) : Prop where
  view : ∀ {w}, format.virtualInRange w = true →
    t.arena.view format root' w = s.arena.view format root w
  filled : ∀ {i}, t.arena.slot? root' i = some .empty ↔ s.arena.slot? root i = some .empty
  flat : t.arena.Flat format root'

variable {format : Format} {stock stock' : Stock} {root root' : TableId} {s s' t t' : TableStore}
  {request : MapRequest} {requests : List MapRequest}

/-- Under a root without entries nothing is found. -/
theorem TableStore.BareRoot.lookup (h : s.BareRoot format stock root) (w : Nat) :
    s.arena.lookup format w format.levels root = none :=
  Arena.lookup_of_empty (h.bare _ (format.index_lt w format.topLevel))

theorem TableStore.BareRoot.mirrors (h : s.BareRoot format stock root)
    (h' : t.BareRoot format stock' root') : Mirrors format root root' s t where
  view := fun {w} _ => by rw [Arena.view, Arena.view, h.lookup, h'.lookup]
  filled := fun {i} => by
    constructor
    · intro hempty
      exact h.bare i (h'.orderly.shaped.slot_lt hempty)
    · intro hempty
      exact h'.bare i (h.orderly.shaped.slot_lt hempty)
  flat := fun {w l m} hlookup => by
    rw [h'.lookup] at hlookup
    cases hlookup

/-- The first table of all is a root without entries. -/
theorem ends_addTable_bare (hwf : s.frames.WellFormed) (hempty : s.arena = Arena.empty)
    (user : Bool) :
    Steps.Ends (TableStore.addTable format format.topLevel user) s
      (fun root s' => s'.BareRoot format s.frames.inUse root
        ∧ s.frames.available .normal = s'.frames.available .normal + 1)
      (Steps.onRefusal fun _ _ => s.frames.available .normal = 0) := by
  have hledger : Ledger s.frames.inUse s.frames s.arena := by
    rw [hempty]
    exact .bare hwf
  refine TableStore.ends_addTable format.topLevel_lt_levels (fun frame s' hframes harena => ?_)
    fun error s' hframes _ => (FrameAllocator.available_of_allocatePage_error hwf hframes).1
  have hadded : Ledger s.frames.inUse s'.frames
      (s.arena.add (.blank frame format.topLevel user format.entries)).2 := hledger.add hframes
  rw [hempty] at harena hadded ⊢
  refine ⟨⟨⟨by rw [harena]; exact hadded, by rw [harena]; exact Arena.shaped_first frame user⟩,
    fun i hi => ?_⟩, FrameAllocator.available_of_allocatePage hwf hframes⟩
  rw [harena, Arena.slot?_add Arena.names_empty, if_pos rfl, Arena.slots_blank, if_pos hi]

theorem exists_bareRoot (format : Format) {frames : FrameAllocator} (hwf : frames.WellFormed)
    (hfree : 0 < frames.available .normal) :
    ∃ root : TableId, ∃ s : TableStore, s.BareRoot format frames.inUse root
      ∧ frames.available .normal = s.frames.available .normal + 1 := by
  have hadd : Steps.Ends (TableStore.addTable format format.topLevel false)
      (⟨frames, Arena.empty, #[]⟩ : TableStore) _ _ := ends_addTable_bare hwf rfl false
  obtain ⟨root, s, -, hbare⟩ := Steps.exists_of_ends (hadd.mono (fun _ _ h => h) fun f s' hf => by
    cases f with
    | fault fault => exact hf
    | refused error => exact Nat.ne_of_gt hfree hf)
  exact ⟨root, s, hbare⟩

namespace Mirrors

/-- Whether a page of a request lies at an address does not depend on the root and on large
pages, so neither does what mapping it shows. -/
theorem mapped (h : Mirrors format root root' s t) (hs : s.Orderly format root stock)
    (ht : t.Orderly format root' stock') (inRange : request.InRange format)
    (large : RangeMapped format (request.on root true) s s')
    (small : RangeMapped format (request.on root' false) t t') :
    Mirrors format root root' s' t' where
  view := fun {w} hw => by
    by_cases hcovers : ∃ q, request.Covers w q
    · obtain ⟨q, hq⟩ := hcovers
      have hlarge : s'.arena.view format root w = some (q, request.flags) :=
        large.overlaid.inside hq
      have hsmall : t'.arena.view format root' w = some (q, request.flags) :=
        small.overlaid.inside hq
      rw [hlarge, hsmall]
    · have hnone : ∀ q, ¬ request.Covers w q := fun q hq => hcovers ⟨q, hq⟩
      have hlarge : s'.arena.view format root w = s.arena.view format root w :=
        Arena.view_congr (large.overlaid.outside hw hnone)
      have hsmall : t'.arena.view format root' w = t.arena.view format root' w :=
        Arena.view_congr (small.overlaid.outside hw hnone)
      rw [hlarge, hsmall]
      exact h.view hw
  filled := fun {i} => by
    have hlarge : s'.arena.slot? root i = some .empty ↔ s.arena.slot? root i = some .empty
        ∧ ∀ w q, request.Covers w q → format.index w format.topLevel ≠ i :=
      large.slot_eq_empty_iff hs ⟨inRange.fits root true, hs.shaped.kernel_top⟩
    have hsmall : t'.arena.slot? root' i = some .empty ↔ t.arena.slot? root' i = some .empty
        ∧ ∀ w q, request.Covers w q → format.index w format.topLevel ≠ i :=
      small.slot_eq_empty_iff ht ⟨inRange.fits root' false, ht.shaped.kernel_top⟩
    rw [hlarge, hsmall, h.filled]
  flat := small.overlaid.flat rfl h.flat

/-- A range that is mapped with large pages can be mapped with small ones, if there are frames
for the tables. -/
theorem exists_mapRange (h : Mirrors format root root' s t) (hs : s.Orderly format root stock)
    (ht : t.Orderly format root' stock') (inRange : request.InRange format)
    (large : RangeMapped format (request.on root true) s s')
    (enough : format.topLevel * request.pageCount ≤ t.frames.available .normal) :
    ∃ summary t', Walk.mapRange format (request.on root' false) t = .ok summary t'
      ∧ RangeMapped format (request.on root' false) t t' := by
  have ready : (request.on root true).Ready format root s :=
    ⟨inRange.fits root true, hs.shaped.kernel_top⟩
  have ready' : (request.on root' false).Ready format root' t :=
    ⟨inRange.fits root' false, ht.shaped.kernel_top⟩
  -- what would be in the way here was in the way there
  refine Walk.exists_mapRange ht ready' large.bounded (fun sealing w q hcovers hempty => ?_)
    (fun w q hcovers m l hfound => ?_) enough
  · exact large.slot_ne_empty_of_sealed hs ready sealing hcovers (h.filled.mp hempty)
  · have hview := Arena.view_of_lookup hfound
    have hsame : s.arena.view format root w = some (m.frame + w % format.span l, m.flags) := by
      rw [← h.view (hcovers.inRange (inRange.fits root' false).within)]
      exact hview
    refine ⟨large.eq_of_view hs ready hcovers hsame, fun hpos => ?_⟩
    exact absurd (h.flat hfound) (Nat.ne_of_gt hpos)

/-- The same for ranges one after another; in the end the trees mirror each other. -/
theorem exists_mapAll : ∀ {requests : List MapRequest} {s t : TableStore},
    Mirrors format root root' s t → s.Orderly format root stock → t.Orderly format root' stock' →
      (∀ request ∈ requests, request.InRange format) →
      Walk.tablesFor format requests ≤ t.frames.available .normal →
      Walk.mapAll format root true requests s = .ok () s' →
        ∃ t', Walk.mapAll format root' false requests t = .ok () t'
          ∧ Mirrors format root root' s' t' ∧ s'.Orderly format root stock
          ∧ t'.Orderly format root' stock' := by
  intro requests
  induction requests with
  | nil =>
    intro s t h hs ht _ _ run
    have heq : s = s' := by
      injection run
    subst heq
    exact ⟨t, rfl, h, hs, ht⟩
  | cons request rest ih =>
    intro s t h hs ht inRange enough run
    have hrequest : request.InRange format := inRange request List.mem_cons_self
    have htables : Walk.tablesFor format (request :: rest)
        = format.topLevel * request.pageCount + Walk.tablesFor format rest := by
      rw [Walk.tablesFor, List.map_cons, List.sum_cons]
      rfl
    have ready : (request.on root true).Ready format root s :=
      ⟨hrequest.fits root true, hs.shaped.kernel_top⟩
    have ready' : (request.on root' false).Ready format root' t :=
      ⟨hrequest.fits root' false, ht.shaped.kernel_top⟩
    rw [Walk.mapAll, Steps.bind_eq_ok_iff] at run
    obtain ⟨_, s₁, hfirst, hrest⟩ := run
    have large : RangeMapped format (request.on root true) s s₁ :=
      (Walk.ends_mapRange hs ready).of_ok hfirst
    obtain ⟨_, t₁, hfirst', small⟩ := h.exists_mapRange hs ht hrequest large (by omega)
    have hs₁ := large.overlaid.edits.orderly hs (allReady_of_ready ready)
    have ht₁ := small.overlaid.edits.orderly ht (allReady_of_ready ready')
    -- the frames that are left are enough for the tables of the ranges that are left
    have hspent := small.spent
    rw [MapRequest.tables_on_small] at hspent
    obtain ⟨t', hrest', hdone⟩ := ih (h.mapped hs ht hrequest large small) hs₁ ht₁
      (fun r hr => inRange r (List.mem_cons_of_mem request hr)) (by omega) hrest
    refine ⟨t', ?_, hdone⟩
    rw [Walk.mapAll, Steps.bind_eq_ok_iff]
    exact ⟨_, t₁, hfirst', hrest'⟩

/-- Trees that translate the addresses in range alike translate all addresses alike. -/
theorem view_eq (h : Mirrors format root root' s t) (w : Nat) :
    t.arena.view format root' w = s.arena.view format root w := by
  obtain ⟨v, hv, hsame⟩ := format.exists_inRange_alias w
  rw [← Arena.view_congr_address hsame, ← Arena.view_congr_address hsame]
  exact h.view hv

end Mirrors

/-! ## Large pages -/

/-- Ranges that can be mapped one after another under an empty root with large pages can be
mapped there without, and no address is translated otherwise. -/
theorem promotion_unseen (bare : s.BareRoot format stock root)
    (bare' : t.BareRoot format stock' root') (inRange : ∀ request ∈ requests, request.InRange format)
    (enough : Walk.tablesFor format requests ≤ t.frames.available .normal)
    (run : Walk.mapAll format root true requests s = .ok () s') :
    ∃ t', Walk.mapAll format root' false requests t = .ok () t' ∧ ∀ w,
      Walk.resolve format t'.arena root' w = Walk.resolve format s'.arena root w
        ∧ Walk.attributes format t'.arena root' w = Walk.attributes format s'.arena root w := by
  obtain ⟨t', run', hmirrors, hs', ht'⟩ :=
    (bare.mirrors bare').exists_mapAll bare.orderly bare'.orderly inRange enough run
  refine ⟨t', run', fun w => ⟨?_, ?_⟩⟩
  · rw [Arena.resolve_eq_view hs'.shaped hs'.shaped.kernel_top,
      Arena.resolve_eq_view ht'.shaped ht'.shaped.kernel_top, hmirrors.view_eq]
  · rw [Walk.attributes_eq_view hs'.shaped hs'.shaped.kernel_top,
      Walk.attributes_eq_view ht'.shaped ht'.shaped.kernel_top, hmirrors.view_eq]

/-! ### A large page and two small ones inside it -/

/-- 64 MiB of free memory. -/
def roomyMap : BootMap := ⟨[⟨0, .free, .none⟩, ⟨2 ^ 26, .endMarker, .none⟩], by decide⟩

/-- The allocator of that memory. -/
def roomyFrames : FrameAllocator := (FrameAllocator.init ⟨0, none⟩ roomyMap {}).2.1

theorem roomyFrames_wellFormed : roomyFrames.WellFormed :=
  (FrameAllocator.init_wellFormed (FrameAllocator.wellFormed_unstarted 0) (by decide) {}).1

/-- All frames but the first are free. -/
theorem le_available_roomyFrames : 16383 ≤ roomyFrames.available .normal := by
  have hstop : (16384 : Nat) = roomyMap.stop / frameSize := by decide
  refine FrameAllocator.le_available_init (by decide) (by decide) (List.mem_singleton.mpr rfl)
    Nat.one_pos (Nat.le_of_eq hstop) (fun frame _ hlt => ⟨rfl, Nat.not_lt_zero _, ?_⟩) {}
  show ¬ 2 ^ 26 < (frame + 1) * 4096
  omega

/-- 4 MiB at a multiple of 4 MiB. -/
def largeRange : MapRequest :=
  ⟨0, 2 ^ 22, 2 ^ 22, 2 ^ 22, PageFlags.kernelData, false, false, true⟩

/-- Two pages of them, mapped again in a root that gets no new slots. -/
def smallRange : MapRequest :=
  ⟨0, 2 ^ 22 + 0x3000, 2 ^ 22 + 0x3000, 5000, PageFlags.kernelData, true, false, true⟩

/-- The two ranges one after the other, with a large page and without. -/
theorem promotion_unseen_inside : ∃ s s' t' root,
    Walk.mapAll .narrow root true [largeRange, smallRange] s = .ok () s'
      ∧ Walk.resolve .narrow s'.arena root (2 ^ 22) = .ok (some (2 ^ 22))
      ∧ Walk.mapAll .narrow root false [largeRange, smallRange] s = .ok () t'
      ∧ ∀ w, Walk.resolve .narrow t'.arena root w = Walk.resolve .narrow s'.arena root w
        ∧ Walk.attributes .narrow t'.arena root w = Walk.attributes .narrow s'.arena root w := by
  have havailable := le_available_roomyFrames
  have hwf := roomyFrames_wellFormed
  generalize roomyFrames = frames at havailable hwf
  obtain ⟨root, s, bare, hframes⟩ := exists_bareRoot .narrow hwf (by omega)
  have inLarge : largeRange.InRange .narrow := .of_checkRange (by decide) (by decide)
  have inSmall : smallRange.InRange .narrow := .of_checkRange (by decide) (by decide)
  have hlarge : pageBounds largeRange.virt largeRange.phys largeRange.size
      = some (2 ^ 22, 2 ^ 22, 2 ^ 22) := by decide
  have hsmall : pageBounds smallRange.virt smallRange.phys smallRange.size
      = some (2 ^ 22 + 0x3000, 2 ^ 22 + 0x3000, 0x2000) := by decide
  have ready : (largeRange.on root true).Ready .narrow root s :=
    ⟨inLarge.fits root true, bare.orderly.shaped.kernel_top⟩
  have htop : Format.narrow.topLevel = 1 := rfl
  have hpages : largeRange.pageCount = 1024 ∧ smallRange.pageCount = 2 := by decide
  -- nothing is mapped yet, so the first range is not in conflict with anything
  obtain ⟨_, s₁, hfirst, large⟩ := Walk.exists_mapRange bare.orderly ready
    (fun hnone => by cases hlarge.symm.trans hnone) (fun sealing => by cases sealing)
    (fun w q _ m l hfound => by
      have hnone := bare.lookup w
      rw [show (largeRange.on root true).root = root from rfl, hnone] at hfound
      cases hfound)
    (by rw [MapRequest.tables_on_large, htop, hpages.1]; omega)
  have hs₁ := large.overlaid.edits.orderly bare.orderly (allReady_of_ready ready)
  have ready₁ : (smallRange.on root true).Ready .narrow root s₁ :=
    ⟨inSmall.fits root true, hs₁.shaped.kernel_top⟩
  have hspent := large.spent
  rw [MapRequest.tables_on_large, htop, hpages.1] at hspent
  -- the second lies inside the first and asks for the same
  have hinside : ∀ {w q}, smallRange.Covers w q → largeRange.Covers w q := by
    intro w q hcovers
    obtain ⟨hnull, hle, hlt, hq⟩ := (MapRequest.covers_iff hsmall).mp hcovers
    exact (MapRequest.covers_iff hlarge).mpr ⟨hnull, by omega, by omega, by omega⟩
  obtain ⟨_, s₂, hsecond, small⟩ := Walk.exists_mapRange hs₁ ready₁
    (fun hnone => by cases hsmall.symm.trans hnone) (fun _ w q hcovers => large.slot_ne_empty (hinside hcovers))
    (fun w q hcovers m l hfound => by
      have hview : s₁.arena.view .narrow root w = some (q, PageFlags.kernelData) :=
        large.overlaid.inside (hinside hcovers)
      have hfound' : s₁.arena.lookup .narrow w Format.narrow.levels root = some (m, l) := hfound
      rw [Arena.view_of_lookup hfound'] at hview
      injection hview with hview
      injection hview with hframe hflags
      exact ⟨hframe.symm, fun _ => hflags⟩)
    (by rw [MapRequest.tables_on_large, htop, hpages.2]; omega)
  have run : Walk.mapAll .narrow root true [largeRange, smallRange] s = .ok () s₂ := by
    rw [Walk.mapAll, Steps.bind_eq_ok_iff]
    refine ⟨_, s₁, hfirst, ?_⟩
    rw [Walk.mapAll, Steps.bind_eq_ok_iff]
    exact ⟨_, s₂, hsecond, rfl⟩
  have htables : Walk.tablesFor .narrow [largeRange, smallRange] = 1026 := by decide
  obtain ⟨t', run', hsame⟩ := promotion_unseen bare bare
    (fun r hr => by
      rcases List.mem_cons.mp hr with rfl | hr
      · exact inLarge
      · rw [List.mem_singleton.mp hr]
        exact inSmall)
    (by omega) run
  -- the first address is in the first range alone
  have hview : s₂.arena.view .narrow root (2 ^ 22) = some (2 ^ 22, PageFlags.kernelData) := by
    have hfirst : s₁.arena.view .narrow root (2 ^ 22) = some (2 ^ 22, PageFlags.kernelData) :=
      large.overlaid.inside
        ((MapRequest.covers_iff hlarge).mpr ⟨by decide, by decide, by decide, rfl⟩)
    rw [← hfirst]
    refine Arena.view_congr (small.overlaid.outside (by decide) fun q hcovers => ?_)
    obtain ⟨-, hle, -⟩ := (MapRequest.covers_iff hsmall).mp hcovers
    exact absurd hle (by decide)
  have hs₂ := small.overlaid.edits.orderly hs₁ (allReady_of_ready ready₁)
  refine ⟨s, s₂, t', root, run, ?_, run', hsame⟩
  rw [Arena.resolve_eq_view hs₂.shaped hs₂.shaped.kernel_top, hview]
  rfl

end KernelMemory
