/-
  KernelMemory.Proofs.Paging.Ranges — what mapping a range does, seen by whoever looks
  addresses up afterwards.

  The range is rounded out to whole pages.  Then its pages are mapped one after another, and
  the first that cannot be mapped ends the walk.  So there is always an offset up to which the
  range is mapped as asked for, and from which on nothing has changed; where no page was in
  the way this is the length of the range.  Nothing is assumed of the tables but that walks go
  through them: roots may share whatever hangs from the same slots of them.

  Main results:
    * `Lays.of_overlaid` — from the tables to the addresses that are looked up;
    * `mapRange_lays_or_hindered` — the pages up to an offset, and what was in the way there.
-/

import KernelMemory.Proofs.Paging.Promotion

namespace KernelMemory

namespace Walk

open Steps

variable {format : Format} {Shares : Nat → Prop} {request : MapRequest} {s s' : TableStore}
  {v p length : Nat}

/-- A lookup from a root finds a leaf or a large page that maps an address to another one, with
these attributes. -/
def Finds (format : Format) (a : Arena) (root : TableId) (w q : Nat) (flags : PageFlags) : Prop :=
  ∃ m l, cover format a root w = .ok (some (m, l))
    ∧ m.frame + w % format.span l = q ∧ m.flags = flags

/-- The first `length` bytes from the page `v` on are mapped to those from the frame `p` on, and
all else is mapped as in `a`.  Page 0 is not mapped. -/
structure Lays (format : Format) (request : MapRequest) (v p length : Nat) (a b : Arena) : Prop where
  pages : ∀ w : Nat, v ≤ w → w < v + length → frameSize ≤ w →
    Finds format b request.root w (p + (w - v)) request.flags
  others : ∀ w : Nat, format.virtualInRange w = true → w < v ∨ v + length ≤ w ∨ w < frameSize →
    ∃ found, cover format a request.root w = .ok found
      ∧ cover format b request.root w = .ok found

/-- What is in the way of the page at `virt` and the frame at `phys`, by the error that it is
refused with. -/
inductive Hinders (format : Format) (request : MapRequest) (virt phys : Nat) (s : TableStore) :
    MemoryError → Prop where
  /-- The root gets no new slots, and that of the page is empty. -/
  | sealedRoot (sealing : request.rootSealed = true)
      (slot : s.arena.slot request.root (format.index virt format.topLevel) = .ok .empty) :
      Hinders format request virt phys s .bootstrapOnly
  /-- The page is mapped to another frame, or inside a large page with other attributes. -/
  | conflict {m : Mapping} {l : Nat}
      (found : cover format s.arena request.root virt = .ok (some (m, l)))
      (differs : m.frame + virt % format.span l ≠ phys ∨ 0 < l ∧ m.flags ≠ request.flags) :
      Hinders format request virt phys s .incompatible
  /-- No frame is free. -/
  | exhausted (none : ∀ frame : Nat, s.frames.isFree frame = false) :
      Hinders format request virt phys s .outOfMemory

theorem Finds.of_view {a : Arena} {root : TableId} {w q : Nat} {flags : PageFlags}
    (h : a.Regular format Shares) (hroot : a.level? root = some format.topLevel)
    (hview : a.view format root w = some (q, flags)) : Finds format a root w q flags := by
  rw [Arena.view, Option.map_eq_some_iff] at hview
  obtain ⟨⟨m, l⟩, hfound, heq⟩ := hview
  injection heq with hframe hflags
  exact ⟨m, l, by rw [Arena.cover_eq_lookup h hroot, hfound], hframe, hflags⟩

/-- A range of which the first `front` bytes lie over what was there. -/
theorem Lays.of_overlaid {M : Nat → Nat → Prop} {front : Nat} (h : s.arena.Regular format Shares)
    (h' : s'.arena.Regular format Shares) (hroot : s.arena.level? request.root = some format.topLevel)
    (hroot' : s'.arena.level? request.root = some format.topLevel)
    (overlaid : Overlaid format request M s s')
    (hM : ∀ w q, M w q ↔ frameSize ≤ w ∧ Part v p front w q) :
    Lays format request v p front s.arena s'.arena where
  pages := fun w hle hlt hnull =>
    .of_view h' hroot' (overlaid.inside ((hM _ _).mpr ⟨hnull, hle, hlt, by omega⟩))
  others := fun w hw haway => by
    have hsame := overlaid.outside hw fun q hq => by
      obtain ⟨hnull, hle, hlt, -⟩ := (hM _ _).mp hq
      omega
    refine ⟨_, Arena.cover_eq_lookup h hroot w, ?_⟩
    rw [Arena.cover_eq_lookup h' hroot', hsame]

theorem Hinders.of_blocked {virt phys cost : Nat} {error : MemoryError}
    (h' : s'.Walkable format Shares true)
    (hroot' : s'.arena.level? request.root = some format.topLevel)
    (blocked : Blocked format true request virt phys cost s s' error) :
    Hinders format request virt phys s' error := by
  cases blocked with
  | sealedRoot sealing slot refused =>
    rw [refused]
    exact .sealedRoot sealing (Arena.slot_eq_ok slot)
  | conflict found differs refused =>
    rw [refused]
    exact .conflict (by rw [Arena.cover_eq_lookup h'.regular hroot', found])
      (differs.imp_left Ne.symm)
  | exhausted none short refused =>
    rw [refused.resolve_right (by decide)]
    exact .exhausted ((FrameAllocator.available_eq_zero_iff h'.allocator).mp none)

/-- Mapping a range maps all its pages, or those up to an offset at which something is in the way.
Other addresses are mapped as before, and no contract is broken. -/
theorem mapRange_lays_or_hindered (h : s.Walkable format Shares true)
    (root : s.arena.level? request.root = some format.topLevel)
    (bounds : pageBounds request.virt request.phys request.size = some (v, p, length))
    (inRange : ∀ w : Nat, v ≤ w → w < v + length → format.virtualInRange w = true)
    (words : p + length < Word.bound) :
    Ends (mapRange format request) s
      (fun _ s' => s'.Walkable format Shares true
        ∧ Lays format request v p length s.arena s'.arena)
      (onRefusal fun error s' => s'.Walkable format Shares true
        ∧ ∃ offset, offset < length ∧ offset % frameSize = 0
          ∧ Lays format request v p offset s.arena s'.arena
          ∧ Hinders format request (v + offset) (p + offset) s' error) := by
  have hcases : ∀ {v' p' length' : Nat},
      pageBounds request.virt request.phys request.size = some (v', p', length') →
        v' = v ∧ p' = p ∧ length' = length := by
    intro v' p' length' hb
    rw [bounds] at hb
    injection hb with hb
    injection hb with hv hb
    injection hb with hp hl
    exact ⟨hv.symm, hp.symm, hl.symm⟩
  have fitted : request.Fitted format s := by
    refine ⟨⟨fun hb => ?_, fun hb => ?_⟩, root⟩
    · obtain ⟨rfl, rfl, rfl⟩ := hcases hb
      exact inRange
    · obtain ⟨rfl, rfl, rfl⟩ := hcases hb
      exact words
  have hedits : ∀ {s'}, EditsOf format request s s' →
      s'.Walkable format Shares true ∧ s'.arena.level? request.root = some format.topLevel := by
    intro s' edits
    obtain ⟨h', hgrows⟩ := edits.walkable_grows h (allFitted_of_fitted fitted)
    exact ⟨h', hgrows.level root⟩
  refine (ends_mapRange_upTo h fitted).weaken (fun _ s' hs => ?_) fun error s' he => ?_
  · obtain ⟨h', root'⟩ := hedits hs.overlaid.edits
    exact ⟨h', .of_overlaid h.regular h'.regular root root' hs.overlaid fun _ _ =>
      MapRequest.covers_iff bounds⟩
  · obtain ⟨h', root'⟩ := hedits he.edits
    cases he with
    | unbounded none same refused => exact absurd (bounds.symm.trans none) (by simp)
    | stopped hb lt mod covers overlaid blocked =>
      obtain ⟨rfl, rfl, rfl⟩ := hcases hb
      refine ⟨h', _, lt, mod, .of_overlaid h.regular h'.regular root root' overlaid fun w q => ?_,
        .of_blocked h' root' blocked⟩
      rw [MapRequest.covers_iff bounds]
      unfold Part
      omega

/-- 4 MiB are mapped under a root without entries, in 64 MiB of free memory. -/
theorem exists_mapRange_largeRange : ∃ (stock : Stock) (root : TableId) (s s' : TableStore)
    (summary : MapSummary), s.BareRoot .narrow stock root
      ∧ (largeRange.on root true).Ready .narrow root s
      ∧ mapRange .narrow (largeRange.on root true) s = .ok summary s' := by
  have havailable := le_available_roomyFrames
  have hwf := roomyFrames_wellFormed
  generalize roomyFrames = frames at havailable hwf
  obtain ⟨root, s, bare, hframes⟩ := exists_bareRoot .narrow hwf (by omega)
  have inLarge : largeRange.InRange .narrow := .of_checkRange (by decide) (by decide)
  have hlarge : pageBounds largeRange.virt largeRange.phys largeRange.size
      = some (0x400000, 0x400000, 0x400000) := by decide
  have ready : (largeRange.on root true).Ready .narrow root s :=
    ⟨inLarge.fits root true, bare.orderly.shaped.kernel_top⟩
  have hpages : largeRange.pageCount = 1024 := by decide
  obtain ⟨summary, s', run, -⟩ := exists_mapRange bare.orderly ready
    (fun hnone => by cases hlarge.symm.trans hnone) (fun sealing => by cases sealing)
    (fun w q _ m l hfound => by
      have hnone := bare.lookup w
      rw [show (largeRange.on root true).root = root from rfl, hnone] at hfound
      cases hfound)
    (by rw [MapRequest.tables_on_large, hpages, show Format.narrow.topLevel = 1 from rfl]; omega)
  exact ⟨_, root, s, s', summary, bare, ready, run⟩

/-- 4 MiB under a root without entries, in 64 MiB of free memory. -/
theorem mapRange_lays_largeRange : ∃ (s s' : TableStore) (root : TableId) (summary : MapSummary),
    mapRange .narrow (largeRange.on root true) s = .ok summary s'
      ∧ (∀ w, Walk.cover .narrow s.arena root w = .ok none)
      ∧ Lays .narrow (largeRange.on root true) 0x400000 0x400000 0x400000 s.arena s'.arena := by
  obtain ⟨_, root, s, s', summary, bare, ready, run⟩ := exists_mapRange_largeRange
  have inLarge : largeRange.InRange .narrow := .of_checkRange (by decide) (by decide)
  have hlarge : pageBounds largeRange.virt largeRange.phys largeRange.size
      = some (0x400000, 0x400000, 0x400000) := by decide
  have hcover : ∀ w, Walk.cover .narrow s.arena root w = .ok none := fun w => by
    rw [Arena.cover_eq_lookup bare.orderly.shaped.regular bare.orderly.shaped.kernel_top,
      bare.lookup w]
  -- an allocator that has frames was started
  have hstarted : s.frames.isInitialized = true := by
    obtain ⟨t, ht, -⟩ := Arena.exists_of_level? bare.orderly.shaped.kernel_top
    exact bare.orderly.ledger.initialized (bare.orderly.ledger.total_ne_zero
      (show s.arena.frame? root = some t.frame by rw [Arena.frame?, ht, Option.map_some]))
  have hwalkable : s.Walkable .narrow (fun i => Format.narrow.userSplit ≤ i) true :=
    hstarted ▸ bare.orderly.walkable
  have hrange : ∀ w : Nat, 0x400000 ≤ w → w < 0x400000 + 0x400000 →
      Format.narrow.virtualInRange w = true :=
    inLarge.virt hlarge
  have hwords : 0x400000 + 0x400000 < Word.bound := by decide
  refine ⟨s, s', root, summary, run, hcover, ?_⟩
  have hroot := ready.root
  have hbounds : pageBounds (largeRange.on root true).virt (largeRange.on root true).phys
      (largeRange.on root true).size = some (0x400000, 0x400000, 0x400000) := hlarge
  generalize largeRange.on root true = request at run hroot hbounds ⊢
  exact ((mapRange_lays_or_hindered hwalkable hroot hbounds hrange hwords).of_ok run).2

end Walk

end KernelMemory
