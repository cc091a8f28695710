/-
  KernelMemory.Proofs.Paging.Overlay — what mapping a range means to the addresses of its
  root.

  A range that is mapped lies over what was there: its own addresses are translated as the
  range says, all others as before (`Overlaid`).  Pages of either size have this effect, so
  it does not tell how the range was cut into pages.  A page that cannot be mapped has
  something in its way (`Obstacle`); pages mapped before it do not put it there.

  Main results:
    * `PageMapped.overlaid` — one page, of either size;
    * `Overlaid.trans` — one part of a range after another;
    * `Obstacle.of_later` — what is in the way was in the way from the start;
    * `RangeMapped.slot_eq_empty_iff` — the slots of the root that a range fills;
    * `RangeRefused.exhausted` — where nothing but frames can be wanting.
-/

import KernelMemory.Proofs.Paging.Edits

namespace KernelMemory

/-- The edits of one request. -/
abbrev EditsOf (format : Format) (request : MapRequest) : TableStore → TableStore → Prop :=
  Edits format fun r => r = request

/-- A request that can be mapped stays so while it is. -/
theorem allReady_of_ready {format : Format} {kernel : TableId} {request : MapRequest}
    {s : TableStore} (ready : request.Ready format kernel s) :
    AllReady format kernel (fun r => r = request) s := fun _ hr => hr ▸ ready

theorem allFitted_of_fitted {format : Format} {request : MapRequest} {s : TableStore}
    (fitted : request.Fitted format s) : ∀ r, r = request → r.Fitted format s :=
  fun _ hr => hr ▸ fitted

/-! ## Addresses of a request -/

/-- Whether a part of a range, `length` bytes from a virtual and a physical address on, maps
the first of two addresses to the second. -/
def Part (virt phys length w q : Nat) : Prop :=
  virt ≤ w ∧ w < virt + length ∧ q + virt = phys + w

namespace MapRequest

variable {format : Format} {kernel : TableId} {request : MapRequest} {target virt phys w q : Nat}

/-- Whether the pages of a request map the first of two addresses to the second. -/
def Covers (request : MapRequest) (w q : Nat) : Prop :=
  frameSize ≤ w ∧ ∃ v p length : Nat,
    pageBounds request.virt request.phys request.size = some (v, p, length)
      ∧ Part v p length w q

theorem Covers.unique {q' : Nat} (h : request.Covers w q) (h' : request.Covers w q') : q = q' := by
  obtain ⟨-, v, p, length, hb, -, -, hq⟩ := h
  obtain ⟨-, v', p', length', hb', -, -, hq'⟩ := h'
  rw [hb] at hb'
  obtain ⟨rfl, rfl, rfl⟩ := Prod.mk.injEq .. ▸ Option.some.inj hb'
  omega

theorem Covers.inRange (h : request.Covers w q) (within : request.Within format) :
    format.virtualInRange w = true := by
  obtain ⟨-, v, p, length, hb, hle, hlt, -⟩ := h
  exact within.inRange hb w hle hlt

theorem Piece.covers (piece : request.Piece format target virt phys)
    (h : Part virt phys (format.span target) w q) : request.Covers w q := by
  obtain ⟨v, p, length, hb, hv, hend, hphys⟩ := piece.bounds
  have hnull := piece.not_null
  obtain ⟨hle, hlt, hq⟩ := h
  exact ⟨by omega, v, p, length, hb, by omega, by omega, by omega⟩

theorem covers_iff {v p length : Nat}
    (hb : pageBounds request.virt request.phys request.size = some (v, p, length)) :
    request.Covers w q ↔ frameSize ≤ w ∧ Part v p length w q := by
  constructor
  · rintro ⟨hnull, v', p', length', hb', hpart⟩
    rw [hb] at hb'
    obtain ⟨rfl, rfl, rfl⟩ := Prod.mk.injEq .. ▸ Option.some.inj hb'
    exact ⟨hnull, hpart⟩
  · exact fun ⟨hnull, hpart⟩ => ⟨hnull, v, p, length, hb, hpart⟩

/-- As many tables as one page of the request may need.  Where a large page gives way to small
ones, the way down is gone twice. -/
def tablesPerPage (format : Format) (request : MapRequest) : Nat :=
  if request.largePages then 2 * format.topLevel else format.topLevel

/-- How many frames the request covers, the one behind page 0 included. -/
def pageCount (request : MapRequest) : Nat :=
  match pageBounds request.virt request.phys request.size with
  | some (_, _, length) => length / frameSize
  | none => 0

theorem pageCount_eq {v p length : Nat}
    (hb : pageBounds request.virt request.phys request.size = some (v, p, length)) :
    request.pageCount = length / frameSize := by
  rw [pageCount, hb]

/-- As many tables as the request may need. -/
def tables (format : Format) (request : MapRequest) : Nat :=
  request.tablesPerPage format * request.pageCount

end MapRequest

/-! ## What was mapped -/

namespace Arena

variable {format : Format} {a b : Arena} {root : TableId}

/-- Only leaf tables map something under the root. -/
def Flat (format : Format) (a : Arena) (root : TableId) : Prop :=
  ∀ {w l : Nat} {m : Mapping}, a.lookup format w format.levels root = some (m, l) → l = 0

theorem view_of_lookup {w l : Nat} {m : Mapping}
    (h : a.lookup format w format.levels root = some (m, l)) :
    a.view format root w = some (m.frame + w % format.span l, m.flags) := by
  rw [view, h, Option.map_some]

theorem view_congr {w : Nat}
    (h : b.lookup format w format.levels root = a.lookup format w format.levels root) :
    b.view format root w = a.view format root w := by
  rw [view, view, h]

end Arena

/-- A request was mapped where `M` says, and nowhere else. -/
structure Overlaid (format : Format) (request : MapRequest) (M : Nat → Nat → Prop)
    (s s' : TableStore) : Prop where
  edits : EditsOf format request s s'
  inside : ∀ {w q}, M w q → s'.arena.view format request.root w = some (q, request.flags)
  outside : ∀ {w}, format.virtualInRange w = true → (∀ q, ¬ M w q) →
    s'.arena.lookup format w format.levels request.root
      = s.arena.lookup format w format.levels request.root
  flat : request.largePages = false →
    s.arena.Flat format request.root → s'.arena.Flat format request.root

namespace Overlaid

variable {format : Format} {request : MapRequest} {M M' N : Nat → Nat → Prop}
  {s s' s'' : TableStore}

/-- Edits that no address of the root sees. -/
theorem unseen (edits : EditsOf format request s s')
    (hlookup : ∀ w, s'.arena.lookup format w format.levels request.root
      = s.arena.lookup format w format.levels request.root) :
    Overlaid format request (fun _ _ => False) s s' :=
  ⟨edits, False.elim, fun {w} _ _ => hlookup w, fun _ hflat {w _ _} hfound =>
    hflat (hlookup w ▸ hfound)⟩

theorem refl (h : ∀ w q, ¬ M w q) (s : TableStore) : Overlaid format request M s s :=
  ⟨.refl s, fun hm => absurd hm (h _ _), fun _ _ => rfl, fun _ => id⟩

/-- Two parts that have no address in common, one after the other. -/
theorem trans (h : Overlaid format request M s s') (h' : Overlaid format request M' s' s'')
    (hrange : ∀ {w q}, M w q → format.virtualInRange w = true)
    (hdisjoint : ∀ {w q}, M w q → ∀ q', ¬ M' w q') (hN : ∀ w q, N w q ↔ M w q ∨ M' w q) :
    Overlaid format request N s s'' where
  edits := h.edits.trans h'.edits
  inside := fun {w q} hm => by
    rcases (hN w q).mp hm with hm | hm
    · rw [Arena.view_congr (h'.outside (hrange hm) (hdisjoint hm))]
      exact h.inside hm
    · exact h'.inside hm
  outside := fun {w} hw hnone => by
    rw [h'.outside hw fun q hm => hnone q ((hN w q).mpr (.inr hm)),
      h.outside hw fun q hm => hnone q ((hN w q).mpr (.inl hm))]
  flat := fun hlarge hflat => h'.flat hlarge (h.flat hlarge hflat)

/-- What was mapped after edits that nobody sees. -/
theorem after (h : Overlaid format request (fun _ _ => False) s s')
    (h' : Overlaid format request M s' s'') : Overlaid format request M s s'' :=
  h.trans h' False.elim False.elim fun _ _ => (or_iff_right id).symm

theorem congr (h : Overlaid format request M s s') (hN : ∀ w q, N w q ↔ M w q) :
    Overlaid format request N s s' where
  edits := h.edits
  inside := fun hm => h.inside ((hN _ _).mp hm)
  outside := fun hw hnone => h.outside hw fun q hm => hnone q ((hN _ q).mpr hm)
  flat := h.flat

end Overlaid

/-- What mapping a page of level `target` did; no step means that a table was in its place. -/
structure PageMapped (format : Format) (request : MapRequest) (target virt phys : Nat)
    (step : Option MapStep) (s s' : TableStore) : Prop where
  edits : EditsOf format request s s'
  leaf : target = 0 → step ≠ none
  /-- The page has a mapping, the one made now or one that was there. -/
  mapped : step ≠ none → ∃ m l,
    s'.arena.lookup format virt format.levels request.root = some (m, l)
      ∧ target ≤ l ∧ phys = m.frame + virt % format.span l ∧ m.flags = request.flags
      ∧ (target < l → s.arena.lookup format virt format.levels request.root = some (m, l))
  others : ∀ w, s'.arena.lookup format w format.levels request.root
      = s.arena.lookup format w format.levels request.root
    ∨ step ≠ none ∧ format.Together target virt w

namespace PageMapped

variable {format : Format} {kernel : TableId} {request : MapRequest} {target virt phys : Nat}
  {step : Option MapStep} {s s' : TableStore}

/-- The addresses of the page have the mapping that its first one has. -/
theorem lookup_of_together (h : PageMapped format request target virt phys step s s')
    (hstep : step ≠ none) {w : Nat} (together : format.Together target virt w) :
    ∃ m l, s'.arena.lookup format w format.levels request.root = some (m, l)
      ∧ target ≤ l ∧ phys = m.frame + virt % format.span l ∧ m.flags = request.flags
      ∧ (target < l → s.arena.lookup format virt format.levels request.root = some (m, l)) := by
  obtain ⟨m, l, hlookup, hle, hphys, hflags, hwas⟩ := h.mapped hstep
  have htop := format.topLevel_add_one
  refine ⟨m, l, Arena.lookup_together (fun k hk hlt => ?_) hlookup, hle, hphys, hflags, hwas⟩
  exact together k (Nat.le_trans hle hk) (by omega)

theorem overlaid (h : PageMapped format request target virt phys step s s')
    (hstep : step ≠ none) (piece : request.Piece format target virt phys)
    (within : request.Within format) (hsmall : request.largePages = false → target = 0) :
    Overlaid format request (Part virt phys (format.span target)) s s' where
  edits := h.edits
  inside := fun {w q} hpart => by
    obtain ⟨hle, hlt, hq⟩ := hpart
    have together : format.Together target virt w :=
      (Format.together_iff_mem piece.target_le piece.virt_mod (piece.virt_inRange within)
        (piece.inRange within hle hlt)).mpr ⟨hle, hlt⟩
    obtain ⟨m, l, hlookup, htarget, hphys, hflags, -⟩ := h.lookup_of_together hstep together
    have hmod := Format.mod_span_of_mem htarget piece.virt_mod hle hlt
    have hframe : q = m.frame + w % format.span l := by omega
    rw [Arena.view_of_lookup hlookup, hframe, hflags]
  outside := fun {w} hw hnone => by
    refine (h.others w).resolve_right fun htogether => ?_
    obtain ⟨hle, hlt⟩ := (Format.together_iff_mem piece.target_le piece.virt_mod
      (piece.virt_inRange within) hw).mp htogether.2
    exact hnone (phys + (w - virt)) ⟨hle, hlt, by omega⟩
  flat := fun hlarge hflat {w l m} hlookup => by
    rcases h.others w with heq | ⟨-, together⟩
    · exact hflat (heq ▸ hlookup)
    · -- a mapping above the page was there before, and there was none
      obtain ⟨m', l', hlookup', -, -, -, hwas⟩ := h.lookup_of_together hstep together
      rw [hlookup] at hlookup'
      obtain ⟨rfl, rfl⟩ := Prod.mk.injEq .. ▸ Option.some.inj hlookup'
      by_contra hne
      exact hne (hflat (hwas (by rw [hsmall hlarge]; exact Nat.pos_of_ne_zero hne)))

end PageMapped

/-! ## What was in the way -/

/-- Why a page was not mapped, in the tables and frames `s'` that were left; `cost` is the number
of tables that might have been needed from `s` on. -/
inductive Blocked (format : Format) (started : Bool) (request : MapRequest)
    (virt phys cost : Nat) (s s' : TableStore) (error : MemoryError) : Prop where
  /-- The page needs a new slot in a root that gets none. -/
  | sealedRoot (sealing : request.rootSealed = true)
      (slot : s'.arena.slot? request.root (format.index virt format.topLevel) = some .empty)
      (refused : error = .bootstrapOnly)
  /-- The page is mapped to another frame, or inside a large page with other attributes. -/
  | conflict {m : Mapping} {l : Nat}
      (found : s'.arena.lookup format virt format.levels request.root = some (m, l))
      (differs : phys ≠ m.frame + virt % format.span l ∨ 0 < l ∧ m.flags ≠ request.flags)
      (refused : error = .incompatible)
  /-- There was no frame for a table. -/
  | exhausted (none : s'.frames.available .normal = 0) (short : s.frames.available .normal < cost)
      (refused : error = .outOfMemory ∨ started = false)

/-- What is in the way after some steps is so after these and those before. -/
theorem Blocked.of_later {format : Format} {started : Bool} {request : MapRequest}
    {virt phys cost spent total : Nat} {s s' s'' : TableStore} {error : MemoryError}
    (h : Blocked format started request virt phys cost s' s'' error)
    (hspent : s.frames.available .normal ≤ s'.frames.available .normal + spent)
    (htotal : spent + cost ≤ total) :
    Blocked format started request virt phys total s s'' error := by
  cases h with
  | sealedRoot sealing slot refused => exact .sealedRoot sealing slot refused
  | conflict found differs refused => exact .conflict found differs refused
  | exhausted none short refused => exact .exhausted none (by omega) refused

/-- What may be in the way of a page, as the tables and frames are before. -/
inductive Obstacle (format : Format) (stock : Stock) (request : MapRequest)
    (virt phys cost : Nat) (s : TableStore) (error : MemoryError) : Prop where
  /-- The page needs a new slot in a root that gets none. -/
  | sealedRoot (sealing : request.rootSealed = true)
      (slot : s.arena.slot? request.root (format.index virt format.topLevel) = some .empty)
      (refused : error = .bootstrapOnly)
  /-- The page is mapped to another frame, or inside a large page with other attributes. -/
  | conflict {m : Mapping} {l : Nat}
      (found : s.arena.lookup format virt format.levels request.root = some (m, l))
      (differs : phys ≠ m.frame + virt % format.span l ∨ 0 < l ∧ m.flags ≠ request.flags)
      (refused : error = .incompatible)
  /-- There are too few frames for the tables. -/
  | exhausted (short : s.frames.available .normal < cost)
      (refused : error = .outOfMemory ∨ stock.total = 0)

/-- What is in the way of a page at which nothing was mapped meanwhile was so before. -/
theorem Blocked.obstacle {format : Format} {kernel : TableId} {stock : Stock}
    {request : MapRequest} {virt phys cost : Nat} {s s' : TableStore} {error : MemoryError}
    (h : Blocked format s.frames.isInitialized request virt phys cost s s' error)
    (orderly : s.Orderly format kernel stock) (ready : request.Ready format kernel s)
    (hgrows : Arena.Grows s.arena s'.arena)
    (hlookup : s'.arena.lookup format virt format.levels request.root
      = s.arena.lookup format virt format.levels request.root) :
    Obstacle format stock request virt phys cost s error := by
  cases h with
  | sealedRoot sealing slot refused =>
    obtain ⟨x, hx⟩ :=
      orderly.shaped.regular.exists_slot ready.root (format.index_lt virt format.topLevel)
    obtain ⟨y, hy, hext⟩ := hgrows.slot hx
    rw [slot] at hy
    injection hy with hy
    subst hy
    cases hext with
    | empty => exact .sealedRoot sealing hx refused
  | conflict found differs refused => exact .conflict (hlookup ▸ found) differs refused
  | exhausted none short refused =>
    refine .exhausted short (refused.imp_right fun hnever => ?_)
    exact orderly.ledger.total ▸ FrameAllocator.totalPages_of_not_initialized hnever

/-! ## A whole range -/

/-- A request was mapped. -/
structure RangeMapped (format : Format) (request : MapRequest) (s s' : TableStore) : Prop where
  bounded : pageBounds request.virt request.phys request.size ≠ none
  overlaid : Overlaid format request request.Covers s s'
  spent : s.frames.available .normal ≤ s'.frames.available .normal + request.tables format

namespace RangeMapped

variable {format : Format} {kernel : TableId} {stock : Stock} {request : MapRequest}
  {s s' : TableStore}

/-- Where the tables map a page of the request already, it is to the frame that is asked for. -/
theorem eq_of_view (h : RangeMapped format request s s') (orderly : s.Orderly format kernel stock)
    (ready : request.Ready format kernel s) {w p q : Nat} {flags : PageFlags}
    (hcovers : request.Covers w q)
    (hview : s.arena.view format request.root w = some (p, flags)) : q = p := by
  have hgrows := h.overlaid.edits.grows orderly (allReady_of_ready ready)
  obtain ⟨flags', hlater⟩ := Arena.view_grows hgrows hview
  rw [h.overlaid.inside hcovers] at hlater
  injection hlater with hlater
  injection hlater

/-- Where nothing was mapped at the pages of the request, they are what is seen in addition. -/
theorem view_iff (h : RangeMapped format request s s')
    (vacant : ∀ w q, request.Covers w q → s.arena.view format request.root w = none)
    {w q : Nat} {flags : PageFlags} (hw : format.virtualInRange w = true) :
    s'.arena.view format request.root w = some (q, flags)
      ↔ s.arena.view format request.root w = some (q, flags)
        ∨ request.Covers w q ∧ flags = request.flags := by
  by_cases hin : ∃ p, request.Covers w p
  · obtain ⟨p, hp⟩ := hin
    rw [h.overlaid.inside hp, vacant w p hp]
    constructor
    · rintro ⟨⟩
      exact .inr ⟨hp, rfl⟩
    · rintro (hnone | ⟨hq, rfl⟩)
      · cases hnone
      · rw [hp.unique hq]
  · have hout : ∀ p, ¬ request.Covers w p := fun p hp => hin ⟨p, hp⟩
    rw [Arena.view_congr (h.overlaid.outside hw hout)]
    exact (or_iff_left fun hadded => hout q hadded.1).symm

/-- The slot of the root through which a page of the request is seen is not empty. -/
theorem slot_ne_empty (h : RangeMapped format request s s') {w q : Nat}
    (hcovers : request.Covers w q) :
    s'.arena.slot? request.root (format.index w format.topLevel) ≠ some .empty := by
  intro hempty
  have hview := h.overlaid.inside hcovers
  rw [Arena.view, Arena.lookup_of_empty hempty] at hview
  cases hview

/-- In a sealed root that slot was not empty before. -/
theorem slot_ne_empty_of_sealed (h : RangeMapped format request s s')
    (orderly : s.Orderly format kernel stock) (ready : request.Ready format kernel s)
    (sealing : request.rootSealed = true) {w q : Nat} (hcovers : request.Covers w q) :
    s.arena.slot? request.root (format.index w format.topLevel) ≠ some .empty := by
  intro hempty
  obtain ⟨y, hy, hlike⟩ := h.overlaid.edits.slot_of_sealed orderly (allReady_of_ready ready)
    (fun _ hr => by rw [hr]) (fun _ hr => by rw [hr]; exact sealing) hempty
  cases hlike with
  | empty => exact h.slot_ne_empty hcovers hy

/-- The slots of the root that are filled are those that were and those that pages of the
request are seen through. -/
theorem slot_eq_empty_iff (h : RangeMapped format request s s')
    (orderly : s.Orderly format kernel stock) (ready : request.Ready format kernel s) {i : Nat} :
    s'.arena.slot? request.root i = some .empty
      ↔ s.arena.slot? request.root i = some .empty
        ∧ ∀ w q, request.Covers w q → format.index w format.topLevel ≠ i := by
  have hready := allReady_of_ready ready
  constructor
  · intro hempty
    have horderly := h.overlaid.edits.orderly orderly hready
    obtain ⟨x, hx⟩ := orderly.shaped.regular.exists_slot ready.root (horderly.shaped.slot_lt hempty)
    obtain ⟨y, hy, hext⟩ := (h.overlaid.edits.grows orderly hready).slot hx
    rw [hempty] at hy
    injection hy with hy
    subst hy
    refine ⟨?_, fun w q hcovers hindex => ?_⟩
    · cases hext with
      | empty => exact hx
    · rw [← hindex] at hempty
      exact h.slot_ne_empty hcovers hempty
  · rintro ⟨hempty, haway⟩
    rw [h.overlaid.edits.slot_of_root orderly hready (fun _ hr => by rw [hr]) ?_]
    · exact hempty
    · rintro r rfl target virt phys piece
      have hspan := format.span_pos target
      exact haway virt phys (piece.covers ⟨Nat.le_refl _, by omega, rfl⟩)

end RangeMapped

/-- How far a request was mapped that was refused, and why: it is too long, or something is in the
way of a page, and the pages before it were mapped. -/
inductive RangeStopped (format : Format) (started : Bool) (request : MapRequest)
    (s s' : TableStore) (error : MemoryError) : Prop where
  | unbounded (none : pageBounds request.virt request.phys request.size = none) (same : s' = s)
      (refused : error = .addressOutOfRange)
  | stopped {v p length front : Nat}
      (bounds : pageBounds request.virt request.phys request.size = some (v, p, length))
      (lt : front < length) (mod : front % frameSize = 0)
      (covers : request.Covers (v + front) (p + front))
      (overlaid : Overlaid format request (fun w q => request.Covers w q ∧ w < v + front) s s')
      (blocked : Blocked format started request (v + front) (p + front) (request.tables format)
        s s' error)

theorem RangeStopped.edits {format : Format} {started : Bool} {request : MapRequest}
    {s s' : TableStore} {error : MemoryError} (h : RangeStopped format started request s s' error) :
    EditsOf format request s s' := by
  cases h with
  | unbounded none same refused => rw [same]; exact .refl s
  | stopped bounds lt mod covers overlaid blocked => exact overlaid.edits

/-- Why a request was refused: it is too long, or something is in the way of a page. -/
def RangeRefused (format : Format) (stock : Stock) (request : MapRequest) (s : TableStore)
    (error : MemoryError) : Prop :=
  (pageBounds request.virt request.phys request.size = none ∧ error = .addressOutOfRange)
    ∨ ∃ v q, request.Covers v q
      ∧ Obstacle format stock request v q (request.tables format) s error

/-- The page that a range stopped at was in its way from the start, as the pages before do not
reach it. -/
theorem RangeStopped.refused {format : Format} {kernel : TableId} {stock : Stock}
    {request : MapRequest} {s s' : TableStore} {error : MemoryError}
    (h : RangeStopped format s.frames.isInitialized request s s' error)
    (orderly : s.Orderly format kernel stock) (ready : request.Ready format kernel s) :
    RangeRefused format stock request s error := by
  have hgrows := h.edits.grows orderly (allReady_of_ready ready)
  cases h with
  | unbounded none same refused => exact .inl ⟨none, refused⟩
  | stopped bounds lt mod covers overlaid blocked =>
    refine .inr ⟨_, _, covers, blocked.obstacle orderly ready hgrows ?_⟩
    exact overlaid.outside (covers.inRange ready.fits.within)
      fun q hq => Nat.lt_irrefl _ hq.2

/-- What is in the way of a page, and want of frames: the errors that a range is refused for after it
was checked. -/
def MemoryError.OfWalk (error : MemoryError) : Prop :=
  error = .bootstrapOnly ∨ error = .incompatible ∨ error = .outOfMemory

theorem RangeRefused.ofWalk {format : Format} {stock : Stock} {request : MapRequest}
    {s : TableStore} {error : MemoryError} (h : RangeRefused format stock request s error)
    (bounded : pageBounds request.virt request.phys request.size ≠ none)
    (started : stock.total ≠ 0) : error.OfWalk := by
  rcases h with ⟨hnone, -⟩ | ⟨v, q, -, hobstacle⟩
  · exact absurd hnone bounded
  · cases hobstacle with
    | sealedRoot _ _ refused => exact .inl refused
    | conflict _ _ refused => exact .inr (.inl refused)
    | exhausted _ refused => exact .inr (.inr (refused.resolve_right started))

/-- A request that needs no slot it may not make, and agrees with what is mapped already, is
refused for want of frames only. -/
theorem RangeRefused.exhausted {format : Format} {stock : Stock} {request : MapRequest}
    {s : TableStore} {error : MemoryError} (h : RangeRefused format stock request s error)
    (bounded : pageBounds request.virt request.phys request.size ≠ none)
    (unsealed : request.rootSealed = true → ∀ w q, request.Covers w q →
      s.arena.slot? request.root (format.index w format.topLevel) ≠ some .empty)
    (agrees : ∀ w q, request.Covers w q → ∀ m l,
      s.arena.lookup format w format.levels request.root = some (m, l) →
        q = m.frame + w % format.span l ∧ (0 < l → m.flags = request.flags)) :
    s.frames.available .normal < request.tables format
      ∧ (error = .outOfMemory ∨ stock.total = 0) := by
  rcases h with ⟨hnone, -⟩ | ⟨v, q, hcovers, hobstacle⟩
  · exact absurd hnone bounded
  · cases hobstacle with
    | sealedRoot sealing slot refused => exact absurd slot (unsealed sealing v q hcovers)
    | conflict found differs refused =>
      obtain ⟨hframe, hflags⟩ := agrees v q hcovers _ _ found
      rcases differs with hdiffers | ⟨hlarge, hdiffers⟩
      · exact absurd hframe hdiffers
      · exact absurd (hflags hlarge) hdiffers
    | exhausted short refused => exact ⟨short, refused⟩

end KernelMemory
