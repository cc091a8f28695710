/-
  KernelMemory.Proofs.Paging.Edits — everything that mapping a range can do to the tables,
  as one relation, and what such an edit keeps.

  An edit links a new blank table into an empty slot, or writes the mapping of one page of
  the request into a slot that is empty or maps the same frame.  It happens on the way down
  from the root of the request.  What every edit keeps, mapping a range keeps, wherever it
  stops.

  Main results:
    * `Edit.ledger`, `Edit.shaped` — the frames and the shape of the trees stay in order;
    * `Edit.grows` — slots are only extended;
    * `Edit.lookup` — addresses away from the pages of the request keep their mapping;
    * `Edit.slot_of_root`, `Edit.page` — what may change in a root, and where new
      mappings come from.
-/

import Mathlib.Logic.Relation
import KernelMemory.Proofs.Paging.Changes
import KernelMemory.Proofs.Paging.Ledger

namespace KernelMemory

/-! ## Pages of a request -/

namespace MapRequest

/-- A page of the request, of the size that entries at level `target` map.  Page 0 is
none. -/
structure Piece (format : Format) (request : MapRequest) (target virt phys : Nat) : Prop where
  level : target = 0 ∨ target = Format.largeLevel
  bounds : ∃ v p length : Nat,
    pageBounds request.virt request.phys request.size = some (v, p, length)
      ∧ v ≤ virt ∧ virt + format.span target ≤ v + length ∧ phys + v = p + virt
  not_null : frameSize ≤ virt
  virt_mod : virt % format.span target = 0
  phys_mod : phys % format.span target = 0

/-- A request whose pages the format can map, in the kernel tree or in the user half. -/
structure Fits (format : Format) (kernel : TableId) (request : MapRequest) : Prop where
  inRange : ∀ {v p length : Nat},
    pageBounds request.virt request.phys request.size = some (v, p, length) →
      ∀ w, v ≤ w → w < v + length → format.virtualInRange w = true
  frames : ∀ {v p length : Nat},
    pageBounds request.virt request.phys request.size = some (v, p, length) →
      p + length ≤ format.physicalEnd + frameSize
  home : request.root = kernel ∨ ∀ {v p length : Nat},
    pageBounds request.virt request.phys request.size = some (v, p, length) →
      v + length ≤ format.userEnd

/-- A request whose pages have addresses of the format, and frames whose addresses are words. -/
structure Within (format : Format) (request : MapRequest) : Prop where
  inRange : ∀ {v p length : Nat},
    pageBounds request.virt request.phys request.size = some (v, p, length) →
      ∀ w, v ≤ w → w < v + length → format.virtualInRange w = true
  words : ∀ {v p length : Nat},
    pageBounds request.virt request.phys request.size = some (v, p, length) →
      p + length < Word.bound

variable {format : Format} {kernel : TableId} {request : MapRequest} {target virt phys : Nat}

theorem Fits.within (fits : request.Fits format kernel) : request.Within format where
  inRange := fits.inRange
  words := fun {v p length} hb => by
    have hframes := fits.frames hb
    have hend := format.physicalEnd_le
    have : p + length ≤ 2 ^ 52 + frameSize := by omega
    exact Nat.lt_of_le_of_lt this (by decide)

/-- A range that was checked fits on the kernel root. -/
theorem Fits.of_checkRange (hroot : request.root = kernel) (hpos : 0 < request.size)
    (h : Manager.checkRange format request.virt request.phys request.size = .ok ()) :
    request.Fits format kernel where
  inRange := fun hb => (Manager.checkRange_cover hpos h hb).1
  frames := fun hb => (Manager.checkRange_cover hpos h hb).2.1
  home := .inl hroot

theorem Piece.target_le (piece : request.Piece format target virt phys) :
    target ≤ format.topLevel := by
  rcases piece.level with rfl | rfl
  · exact Nat.zero_le _
  · exact format.largeLevel_le_topLevel

theorem Piece.inRange (piece : request.Piece format target virt phys)
    (within : request.Within format) {w : Nat} (hle : virt ≤ w)
    (hlt : w < virt + format.span target) : format.virtualInRange w = true := by
  obtain ⟨v, p, length, hb, hv, hend, -⟩ := piece.bounds
  exact within.inRange hb w (by omega) (by omega)

theorem Piece.virt_inRange (piece : request.Piece format target virt phys)
    (within : request.Within format) : format.virtualInRange virt = true :=
  piece.inRange within (Nat.le_refl _) (Nat.lt_add_of_pos_right (format.span_pos _))

/-- The frames of a request end where its rounded range does. -/
theorem Piece.phys_lt {limit : Nat} (piece : request.Piece format target virt phys)
    (hend : ∀ {v p length : Nat},
      pageBounds request.virt request.phys request.size = some (v, p, length) →
        p + length ≤ limit) : phys < limit := by
  obtain ⟨v, p, length, hb, hv, hpiece, hphys⟩ := piece.bounds
  have hle := hend hb
  have hspan := format.span_pos target
  omega

theorem Piece.frameSize_le_span (format : Format) (target : Nat) :
    frameSize ≤ format.span target :=
  Nat.le_of_dvd (format.span_pos _) (format.frameSize_dvd_span target)

theorem Piece.phys_mod_frameSize (piece : request.Piece format target virt phys) :
    phys % frameSize = 0 :=
  Nat.mod_eq_zero_of_dvd
    (Nat.dvd_trans (format.frameSize_dvd_span target) (Nat.dvd_of_mod_eq_zero piece.phys_mod))

theorem Piece.phys_le (piece : request.Piece format target virt phys)
    (fits : request.Fits format kernel) : phys ≤ format.physicalEnd := by
  -- the page ends inside the rounded range, whose frames end one page past the limit at most
  obtain ⟨v, p, length, hb, hv, hend, hphys⟩ := piece.bounds
  have hframes := fits.frames hb
  have hspan := Piece.frameSize_le_span format target
  omega

/-- Pages mapped outside the kernel tree are in the lower half of their root. -/
theorem Piece.index_lt (piece : request.Piece format target virt phys)
    (fits : request.Fits format kernel) (hroot : request.root ≠ kernel) :
    format.index virt format.topLevel < format.userSplit := by
  obtain ⟨v, p, length, hb, hv, hend, -⟩ := piece.bounds
  have hspan := format.span_pos target
  rcases fits.home with heq | hhome
  · exact absurd heq hroot
  · rw [Format.index_top_lt_iff (piece.virt_inRange fits.within)]
    have := hhome hb
    exact Nat.lt_of_lt_of_le (by omega) this

/-- Whether mapping a page of the request can be seen by an address of a space. -/
def Touches (format : Format) (request : MapRequest) (root w : Nat) : Prop :=
  ∃ target virt phys, request.Piece format target virt phys ∧ format.Together target virt w
    ∧ (root = request.root ∨ format.userSplit ≤ format.index w format.topLevel)

/-- No address of page 0 sees a page of a request. -/
theorem not_touches_null (fits : request.Fits format kernel) {root w : Nat} (hw : w < frameSize) :
    ¬ request.Touches format root w := by
  rintro ⟨target, virt, phys, piece, together, -⟩
  have hspan := Piece.frameSize_le_span format target
  have hrange : format.virtualInRange w = true := by
    refine Format.inRange_of_lt_userEnd (Nat.lt_of_lt_of_le hw ?_)
    cases format <;> decide
  -- page 0 is in the first block of any size, and no page of a request starts there
  rw [Format.together_iff_div piece.target_le (piece.virt_inRange fits.within) hrange,
    Nat.div_eq_of_lt (Nat.lt_of_lt_of_le hw hspan)] at together
  have hlt := (Nat.div_eq_zero_iff_lt (format.span_pos target)).mp together
  have hmod := piece.virt_mod
  rw [Nat.mod_eq_of_lt hlt] at hmod
  have hnull := piece.not_null
  rw [hmod] at hnull
  exact absurd hnull (by decide)

/-- The lower half of another root sees no page of a request. -/
theorem not_touches_lower {root w : Nat} (hrange : format.virtualInRange w = true)
    (hne : root ≠ request.root) (hw : w < format.userEnd) : ¬ request.Touches format root w := by
  rintro ⟨target, virt, phys, -, -, heq | hup⟩
  · exact hne heq
  · have := (Format.index_top_lt_iff hrange).mpr hw
    omega

/-- Pages mapped outside the kernel tree are seen in the lower half of their root alone. -/
theorem not_touches_other (fits : request.Fits format kernel) (hhome : request.root ≠ kernel)
    {root w : Nat} (hrange : format.virtualInRange w = true)
    (hne : root ≠ request.root ∨ format.userEnd ≤ w) : ¬ request.Touches format root w := by
  rintro ⟨target, virt, phys, piece, together, hseen⟩
  have hindex := piece.index_lt fits hhome
  rw [together format.topLevel piece.target_le (Nat.le_refl _)] at hindex
  have hlow := (Format.index_top_lt_iff hrange).mp hindex
  -- seen from another root, the page would be in the upper half, where it is not
  rcases hne with hne | hup
  · rcases hseen with heq | hup
    · exact hne heq
    · omega
  · exact absurd hlow (Nat.not_lt.mpr hup)

end MapRequest

/-! ## Edits -/

/-- One change that mapping a range makes to frames and tables. -/
inductive Edit (format : Format) (request : MapRequest) : TableStore → TableStore → Prop where
  /-- There was no frame for a table. -/
  | exhausted {s s' : TableStore} {error : FrameError}
      (frames : s.frames.allocatePage = (.error error, s'.frames)) (arena : s'.arena = s.arena) :
      Edit format request s s'
  /-- A new table was linked into an empty slot on the way down. -/
  | link {s s' : TableStore} {depth target virt phys parent : Nat} {frame : PhysAddr}
      (piece : request.Piece format target virt phys) (depth_lt : depth < format.topLevel)
      (node : s.arena.node? format request.root virt depth = some parent)
      (slot : s.arena.slot? parent (format.index virt (format.topLevel - depth)) = some .empty)
      (unsealed : ¬ (request.rootSealed = true ∧ depth = 0))
      (frames : s.frames.allocatePage = (.ok frame, s'.frames))
      (arena : s'.arena =
        (s.arena.add (.blank frame (format.topLevel - depth - 1) request.user format.entries)).2.put
          parent (format.index virt (format.topLevel - depth))
          (.table (s.arena.add
            (.blank frame (format.topLevel - depth - 1) request.user format.entries)).1)) :
      Edit format request s s'
  /-- A page was mapped at the end of the way down. -/
  | fill {s s' : TableStore} {target virt phys id : Nat} {old : Slot}
      (piece : request.Piece format target virt phys)
      (node : s.arena.node? format request.root virt (format.topLevel - target) = some id)
      (slot : s.arena.slot? id (format.index virt target) = some old)
      (was : (old = .empty ∧ ¬ (request.rootSealed = true ∧ target = format.topLevel))
        ∨ ∃ flags, old = Walk.pageSlot target ⟨phys, flags⟩)
      (frames : s'.frames = s.frames)
      (arena : s'.arena =
        s.arena.put id (format.index virt target) (Walk.pageSlot target ⟨phys, request.flags⟩)) :
      Edit format request s s'

/-- The frames and tables of two stores are the same; their logs may differ. -/
structure TableStore.Same (s s' : TableStore) : Prop where
  frames : s'.frames = s.frames
  arena : s'.arena = s.arena

/-- Edits for requests of some kind, one after another, and what was logged meanwhile. -/
def Edits (format : Format) (P : MapRequest → Prop) : TableStore → TableStore → Prop :=
  Relation.ReflTransGen fun s s' => s.Same s' ∨ ∃ request, P request ∧ Edit format request s s'

/-! ## What one edit keeps -/

/-- Frames and tables in order: the ledger is kept and the trees have their shape. -/
structure TableStore.Orderly (format : Format) (kernel : TableId) (stock : Stock)
    (s : TableStore) : Prop where
  ledger : Ledger stock s.frames s.arena
  shaped : s.arena.Shaped format kernel

/-- Tables that walks go through, and an allocator in order, which was started or was not. -/
structure TableStore.Walkable (format : Format) (Shares : Nat → Prop) (started : Bool)
    (s : TableStore) : Prop where
  names : s.arena.Names
  regular : s.arena.Regular format Shares
  allocator : s.frames.WellFormed
  initialized : s.frames.isInitialized = started

theorem TableStore.Orderly.walkable {format : Format} {kernel : TableId} {stock : Stock}
    {s : TableStore} (h : s.Orderly format kernel stock) :
    s.Walkable format (fun i => format.userSplit ≤ i) s.frames.isInitialized :=
  ⟨h.ledger.books.names, h.shaped.regular, h.ledger.allocator, rfl⟩

/-- A request that a walk from its root can map. -/
structure MapRequest.Fitted (format : Format) (request : MapRequest) (s : TableStore) : Prop where
  within : request.Within format
  root : s.arena.level? request.root = some format.topLevel

/-- A request that can be mapped in the tables as they are. -/
structure MapRequest.Ready (format : Format) (kernel : TableId) (request : MapRequest)
    (s : TableStore) : Prop where
  fits : request.Fits format kernel
  root : s.arena.level? request.root = some format.topLevel

theorem MapRequest.Ready.fitted {format : Format} {kernel : TableId} {request : MapRequest}
    {s : TableStore} (ready : request.Ready format kernel s) : request.Fitted format s :=
  ⟨ready.fits.within, ready.root⟩

theorem MapRequest.Piece.maps {format : Format} {kernel : TableId} {request : MapRequest}
    {target virt phys : Nat} (piece : request.Piece format target virt phys)
    (fits : request.Fits format kernel) (flags : PageFlags) :
    Arena.Maps format target (Walk.pageSlot target ⟨phys, flags⟩) := by
  have hle := piece.phys_le fits
  have hmod := piece.phys_mod
  rcases piece.level with rfl | rfl
  · exact .leaf piece.phys_mod_frameSize hle
  · exact .large hmod hle

namespace Edit

variable {format : Format} {kernel : TableId} {stock : Stock} {request : MapRequest}
  {Shares : Nat → Prop} {started : Bool} {s s' : TableStore}

/-- The table linked by an edit, as the views show it. -/
theorem linked (names : s.arena.Names) {parent index level : Nat} {frame : PhysAddr}
    (hslot : s.arena.slot? parent index = some .empty)
    (harena : s'.arena = (s.arena.add (.blank frame level request.user format.entries)).2.put
      parent index (.table (s.arena.add (.blank frame level request.user format.entries)).1)) :
    ∃ child t, Arena.Linked format s.arena s'.arena parent index level t child := by
  rw [harena]
  exact ⟨_, _, Arena.linked_add_put format level frame request.user names hslot⟩

/-- A slot that is filled is extended. -/
theorem extends_of_was {old : Slot} {target phys : Nat}
    (was : (old = .empty ∧ ¬ (request.rootSealed = true ∧ target = format.topLevel))
      ∨ ∃ flags, old = Walk.pageSlot target ⟨phys, flags⟩) :
    old.Extends (Walk.pageSlot target ⟨phys, request.flags⟩) := by
  rcases was with ⟨rfl, -⟩ | ⟨flags, rfl⟩
  · exact .empty _
  · unfold Walk.pageSlot
    split
    · exact .leaf _ _ _
    · exact .large _ _ _

/-- A slot that is filled holds no table. -/
theorem ne_table_of_was {old : Slot} {target phys : Nat}
    (was : (old = .empty ∧ ¬ (request.rootSealed = true ∧ target = format.topLevel))
      ∨ ∃ flags, old = Walk.pageSlot target ⟨phys, flags⟩) (c : TableId) : old ≠ .table c := by
  rcases was with ⟨rfl, -⟩ | ⟨flags, rfl⟩
  · exact nofun
  · unfold Walk.pageSlot
    split <;> exact nofun

theorem walkable (e : Edit format request s s') (h : s.Walkable format Shares started)
    (fitted : request.Fitted format s) : s'.Walkable format Shares started := by
  have hstarted := FrameAllocator.isInitialized_allocatePage s.frames
  cases e with
  | exhausted frames arena =>
    obtain ⟨hwf, -⟩ := FrameAllocator.allocatePage_error h.allocator frames
    rw [frames] at hstarted
    exact ⟨by rw [arena]; exact h.names, by rw [arena]; exact h.regular, hwf,
      hstarted.trans h.initialized⟩
  | @link depth target virt phys parent frame piece depth_lt node slot unsealed frames arena =>
    obtain ⟨-, -, -, hwf, -⟩ := FrameAllocator.allocatePage_ok h.allocator frames
    rw [frames] at hstarted
    obtain ⟨child, t, hlinked⟩ := linked h.names slot arena
    obtain ⟨-, hlevel⟩ := Arena.node?_level h.regular fitted.root node
    have hlevel : s.arena.level? parent = some (format.topLevel - depth - 1 + 1) := by
      rw [hlevel]; congr 1; omega
    exact ⟨by rw [arena]; exact (h.names.add _).put _ _ _, hlinked.regular h.regular hlevel slot, hwf,
      hstarted.trans h.initialized⟩
  | @fill target virt phys id old piece node slot was frames arena =>
    obtain ⟨-, hlevel⟩ := Arena.node?_level h.regular fitted.root node
    rw [Nat.sub_sub_self piece.target_le] at hlevel
    refine ⟨by rw [arena]; exact h.names.put _ _ _, ?_, by rw [frames]; exact h.allocator,
      by rw [frames]; exact h.initialized⟩
    rw [arena]
    exact h.regular.put_mapping hlevel slot (ne_table_of_was was) piece.phys_mod
      (piece.phys_lt fun hb => Nat.le_of_lt (fitted.within.words hb))

theorem orderly (e : Edit format request s s') (h : s.Orderly format kernel stock)
    (ready : request.Ready format kernel s) : s'.Orderly format kernel stock := by
  cases e with
  | exhausted frames arena =>
    exact ⟨by rw [arena]; exact h.ledger.exhausted frames, by rw [arena]; exact h.shaped⟩
  | @link depth target virt phys parent frame piece depth_lt node slot unsealed frames arena =>
    refine ⟨by rw [arena]; exact (h.ledger.add frames).put _ _ _, ?_⟩
    obtain ⟨child, t, hlinked⟩ := linked h.ledger.books.names slot arena
    obtain ⟨-, hlevel⟩ := Arena.node?_level h.shaped.regular ready.root node
    have hlevel : s.arena.level? parent = some (format.topLevel - depth - 1 + 1) := by
      rw [hlevel]; congr 1; omega
    refine hlinked.shaped h.shaped hlevel slot fun htop hup => ?_
    -- only the kernel root gets tables in its upper half
    -- the new table hangs from the root itself
    obtain rfl : depth = 0 := by omega
    rw [Arena.node?] at node
    injection node with node
    subst node
    by_contra hne
    have := piece.index_lt ready.fits hne
    simp only [Nat.sub_zero] at hup
    omega
  | @fill target virt phys id old piece node slot was frames arena =>
    refine ⟨by rw [frames, arena]; exact h.ledger.put _ _ _, ?_⟩
    rw [arena]
    obtain ⟨-, hlevel⟩ := Arena.node?_level h.shaped.regular ready.root node
    rw [Nat.sub_sub_self piece.target_le] at hlevel
    exact h.shaped.put_mapping hlevel slot (ne_table_of_was was) (piece.maps ready.fits _)

theorem grows (e : Edit format request s s') (names : s.arena.Names) :
    Arena.Grows s.arena s'.arena := by
  cases e with
  | exhausted frames arena => rw [arena]; exact .refl _
  | link piece depth_lt node slot unsealed frames arena =>
    obtain ⟨child, t, hlinked⟩ := linked names slot arena
    exact hlinked.grows slot
  | fill piece node slot was frames arena =>
    rw [arena]; exact Arena.grows_put slot (extends_of_was was)

/-- No root is made. -/
theorem level_top (e : Edit format request s s') (names : s.arena.Names) {id : TableId} :
    s'.arena.level? id = some format.topLevel ↔ s.arena.level? id = some format.topLevel := by
  cases e with
  | exhausted frames arena => rw [arena]
  | link piece depth_lt node slot unsealed frames arena =>
    obtain ⟨child, t, hlinked⟩ := linked names slot arena
    rw [hlinked.level]
    split
    · rename_i heq
      rw [heq, hlinked.fresh]
      simp only [Option.some.injEq, reduceCtorEq, iff_false]
      omega
    · rfl
  | fill piece node slot was frames arena => rw [arena, Arena.level?_put]

/-- Addresses that see no page of the request keep their mapping. -/
theorem lookup (e : Edit format request s s') (h : s.Orderly format kernel stock)
    (ready : request.Ready format kernel s) {root w : Nat}
    (hroot : s.arena.level? root = some format.topLevel)
    (away : ¬ request.Touches format root w) :
    s'.arena.lookup format w format.levels root = s.arena.lookup format w format.levels root := by
  cases e with
  | exhausted frames arena => rw [arena]
  | link piece depth_lt node slot unsealed frames arena =>
    obtain ⟨child, t, hlinked⟩ := linked h.ledger.books.names slot arena
    exact hlinked.lookup h.shaped.regular slot w hroot
  | @fill target virt phys id old piece node slot was frames arena =>
    rw [arena]
    refine Arena.lookup_put fun d hd hindex => away ⟨target, virt, phys, piece, ?_⟩
    have htarget := piece.target_le
    obtain ⟨together, hroots⟩ :=
      Arena.together_of_node? h.shaped.regular ready.root hroot htarget node hd hindex
    refine ⟨together, hroots.imp Eq.symm fun hup => ?_⟩
    rw [← together format.topLevel htarget (Nat.le_refl _)]
    exact hup

/-- Roots other than that of the request keep their slots. -/
theorem slot_of_other (e : Edit format request s s') (h : s.Orderly format kernel stock)
    (ready : request.Ready format kernel s) {root : TableId}
    (hroot : s.arena.level? root = some format.topLevel) (hne : root ≠ request.root) (i : Nat) :
    s'.arena.slot? root i = s.arena.slot? root i := by
  have hstart : ∀ {virt d : Nat}, s.arena.node? format request.root virt d ≠ some root :=
    fun hd => hne (Arena.node?_top h.shaped ready.root hd hroot).2
  cases e with
  | exhausted frames arena => rw [arena]
  | link piece depth_lt node slot unsealed frames arena =>
    obtain ⟨child, t, hlinked⟩ := linked h.ledger.books.names slot arena
    rw [hlinked.slot, if_neg, if_neg]
    · rintro rfl
      rw [hlinked.fresh] at hroot; cases hroot
    · rintro ⟨rfl, -⟩
      exact hstart node
  | fill piece node slot was frames arena =>
    rw [arena, Arena.slot?_put, if_neg]
    rintro ⟨rfl, -⟩
    exact hstart node

/-- The slots of the request's root that no page of the request falls into are kept. -/
theorem slot_of_root (e : Edit format request s s') (h : s.Orderly format kernel stock)
    (ready : request.Ready format kernel s) {i : Nat}
    (away : ∀ {target virt phys}, request.Piece format target virt phys →
      format.index virt format.topLevel ≠ i) :
    s'.arena.slot? request.root i = s.arena.slot? request.root i := by
  have hroot := ready.root
  have hstart : ∀ {virt d : Nat}, s.arena.node? format request.root virt d = some request.root →
      d = 0 := fun hd => (Arena.node?_top h.shaped hroot hd hroot).1
  cases e with
  | exhausted frames arena => rw [arena]
  | link piece depth_lt node slot unsealed frames arena =>
    obtain ⟨child, t, hlinked⟩ := linked h.ledger.books.names slot arena
    rw [hlinked.slot, if_neg, if_neg]
    · intro heq
      rw [heq, hlinked.fresh] at hroot; cases hroot
    · rintro ⟨rfl, rfl⟩
      have hzero := hstart node
      exact away piece (by rw [hzero, Nat.sub_zero])
  | @fill target virt phys id old piece node slot was frames arena =>
    rw [arena, Arena.slot?_put, if_neg]
    rintro ⟨rfl, rfl⟩
    have hzero := hstart node
    have htarget := piece.target_le
    exact away piece (by rw [show format.topLevel = target by omega])

/-- In a sealed root only attributes change. -/
theorem slot_of_sealed (e : Edit format request s s') (h : s.Orderly format kernel stock)
    (ready : request.Ready format kernel s) (hsealed : request.rootSealed = true) {i : Nat}
    {x : Slot} (hx : s.arena.slot? request.root i = some x) :
    ∃ y, s'.arena.slot? request.root i = some y ∧ x.Like y := by
  have hroot := ready.root
  cases e with
  | exhausted frames arena => exact ⟨x, by rw [arena]; exact hx, .refl x⟩
  | link piece depth_lt node slot unsealed frames arena =>
    obtain ⟨child, t, hlinked⟩ := linked h.ledger.books.names slot arena
    refine ⟨x, ?_, .refl x⟩
    rw [hlinked.slot, if_neg, if_neg, hx]
    · intro heq
      rw [heq, hlinked.fresh] at hroot; cases hroot
    · rintro ⟨rfl, -⟩
      exact unsealed ⟨hsealed, (Arena.node?_top h.shaped hroot node hroot).1⟩
  | @fill target virt phys id old piece node slot was frames arena =>
    rw [arena, Arena.slot?_put]
    split
    · rename_i heq
      rw [← heq.1, ← heq.2, hx] at slot
      injection slot with slot
      subst slot
      rw [← heq.1, ← heq.2, hx]
      refine ⟨_, rfl, ?_⟩
      rcases was with ⟨-, unsealed⟩ | ⟨flags, rfl⟩
      · rw [← heq.1] at node
        have hzero := (Arena.node?_top h.shaped hroot node hroot).1
        have htarget := piece.target_le
        exact absurd ⟨hsealed, by omega⟩ unsealed
      · unfold Walk.pageSlot
        split
        · exact .leaf _ _ _
        · exact .large _ _ _
    · exact ⟨x, hx, .refl x⟩

/-- New mappings are pages of the request. -/
theorem page (e : Edit format request s s') (names : s.arena.Names) {id i : Nat} {x : Slot}
    {m : Mapping} (hx : s'.arena.slot? id i = some x) (hm : x.mapping? = some m) :
    s.arena.slot? id i = some x
      ∨ ∃ target virt phys, request.Piece format target virt phys
        ∧ x = Walk.pageSlot target ⟨phys, request.flags⟩ := by
  cases e with
  | exhausted frames arena => rw [arena] at hx; exact .inl hx
  | link piece depth_lt node slot unsealed frames arena =>
    obtain ⟨child, t, hlinked⟩ := linked names slot arena
    rw [hlinked.slot] at hx
    split at hx
    · injection hx with hx; rw [← hx] at hm; cases hm
    · split at hx
      · split at hx
        · injection hx with hx; rw [← hx] at hm; cases hm
        · cases hx
      · exact .inl hx
  | @fill target virt phys id old piece node slot was frames arena =>
    rw [arena, Arena.slot?_put] at hx
    split at hx
    · rename_i heq
      rw [slot] at hx
      injection hx with hx
      exact .inr ⟨target, virt, phys, piece, hx.symm⟩
    · exact .inl hx

end Edit

/-! ## What edits one after another keep -/

/-- Requests that can be mapped in the tables as they are. -/
def AllReady (format : Format) (kernel : TableId) (P : MapRequest → Prop) (s : TableStore) : Prop :=
  ∀ request, P request → request.Ready format kernel s

theorem AllReady.grows {format : Format} {kernel : TableId} {P : MapRequest → Prop}
    {s s' : TableStore} (h : AllReady format kernel P s) (hgrows : Arena.Grows s.arena s'.arena) :
    AllReady format kernel P s' :=
  fun request hr => ⟨(h request hr).fits, hgrows.level (h request hr).root⟩

namespace Edits

variable {format : Format} {kernel : TableId} {stock : Stock} {P : MapRequest → Prop}
  {s s' : TableStore}

theorem single {request : MapRequest} (hr : P request) (e : Edit format request s s') :
    Edits format P s s' := Relation.ReflTransGen.single (.inr ⟨request, hr, e⟩)

theorem refl (s : TableStore) : Edits format P s s := Relation.ReflTransGen.refl

/-- Something was logged. -/
theorem of_same (frames : s'.frames = s.frames) (arena : s'.arena = s.arena) :
    Edits format P s s' := Relation.ReflTransGen.single (.inl ⟨frames, arena⟩)

theorem trans {s'' : TableStore} (e : Edits format P s s') (e' : Edits format P s' s'') :
    Edits format P s s'' := Relation.ReflTransGen.trans e e'

theorem mono {Q : MapRequest → Prop} (e : Edits format P s s') (hle : ∀ r, P r → Q r) :
    Edits format Q s s' := by
  induction e with
  | refl => exact refl _
  | tail _ hlast ih =>
    rcases hlast with hsame | ⟨r, hr, e⟩
    · exact ih.trans (of_same hsame.frames hsame.arena)
    · exact ih.trans (single (hle r hr) e)

/-- Frames and tables stay in order, and slots are only extended. -/
theorem orderly_grows (e : Edits format P s s') (h : s.Orderly format kernel stock)
    (ready : AllReady format kernel P s) :
    s'.Orderly format kernel stock ∧ Arena.Grows s.arena s'.arena := by
  induction e with
  | refl => exact ⟨h, .refl _⟩
  -- a request that was ready is ready after the edits so far, as those only extend slots
  | tail _ hstep ih =>
    obtain ⟨hmid, hgrows⟩ := ih
    rcases hstep with ⟨hframes, harena⟩ | ⟨request, hr, e⟩
    · exact ⟨⟨by rw [hframes, harena]; exact hmid.ledger, by rw [harena]; exact hmid.shaped⟩,
        by rw [harena]; exact hgrows⟩
    · exact ⟨e.orderly hmid (ready.grows hgrows request hr),
        hgrows.trans (e.grows hmid.ledger.books.names)⟩

/-- Walks go through the tables still, and slots are only extended. -/
theorem walkable_grows {Shares : Nat → Prop} {started : Bool} (e : Edits format P s s')
    (h : s.Walkable format Shares started) (fitted : ∀ r, P r → r.Fitted format s) :
    s'.Walkable format Shares started ∧ Arena.Grows s.arena s'.arena := by
  induction e with
  | refl => exact ⟨h, .refl _⟩
  | tail _ hstep ih =>
    obtain ⟨hmid, hgrows⟩ := ih
    rcases hstep with ⟨hframes, harena⟩ | ⟨request, hr, e⟩
    · exact ⟨⟨by rw [harena]; exact hmid.names, by rw [harena]; exact hmid.regular,
        by rw [hframes]; exact hmid.allocator, by rw [hframes]; exact hmid.initialized⟩,
        by rw [harena]; exact hgrows⟩
    · have hfitted := fitted request hr
      exact ⟨e.walkable hmid ⟨hfitted.within, hgrows.level hfitted.root⟩,
        hgrows.trans (e.grows hmid.names)⟩

theorem orderly (e : Edits format P s s') (h : s.Orderly format kernel stock)
    (ready : AllReady format kernel P s) : s'.Orderly format kernel stock :=
  (e.orderly_grows h ready).1

theorem grows (e : Edits format P s s') (h : s.Orderly format kernel stock)
    (ready : AllReady format kernel P s) : Arena.Grows s.arena s'.arena :=
  (e.orderly_grows h ready).2

/-- What each edit relates, and what can be put one after the other, edits relate. -/
theorem relate {R : TableStore → TableStore → Prop} (hsame : ∀ {s s'}, s.Same s' → R s s')
    (htrans : ∀ {s s' s''}, R s s' → R s' s'' → R s s'')
    (h : s.Orderly format kernel stock) (ready : AllReady format kernel P s)
    (hstep : ∀ {t t' request}, Arena.Grows s.arena t.arena → t.Orderly format kernel stock →
      request.Ready format kernel t → P request → Edit format request t t' → R t t')
    (e : Edits format P s s') : R s s' := by
  induction e with
  | refl => exact hsame ⟨rfl, rfl⟩
  | tail hmid hlast ih =>
    obtain ⟨horderly, hgrows⟩ := orderly_grows hmid h ready
    rcases hlast with heq | ⟨request, hr, e⟩
    · exact htrans ih (hsame heq)
    · exact htrans ih (hstep hgrows horderly (ready.grows hgrows request hr) hr e)

theorem level_top (e : Edits format P s s') (h : s.Orderly format kernel stock)
    (ready : AllReady format kernel P s) {id : TableId} :
    s'.arena.level? id = some format.topLevel ↔ s.arena.level? id = some format.topLevel :=
  relate (R := fun s s' => s'.arena.level? id = some format.topLevel
      ↔ s.arena.level? id = some format.topLevel)
    (fun heq => by rw [heq.arena]) (fun h h' => h'.trans h) h ready
    (fun _ ho _ _ e => e.level_top ho.ledger.books.names) e

theorem lookup (e : Edits format P s s') (h : s.Orderly format kernel stock)
    (ready : AllReady format kernel P s) {root w : Nat}
    (hroot : s.arena.level? root = some format.topLevel)
    (away : ∀ request, P request → ¬ request.Touches format root w) :
    s'.arena.lookup format w format.levels root = s.arena.lookup format w format.levels root :=
  relate (R := fun s s' => s'.arena.lookup format w format.levels root
      = s.arena.lookup format w format.levels root)
    (fun heq => by rw [heq.arena]) (fun h h' => h'.trans h) h ready
    (fun hg ho hready hr e => e.lookup ho hready (hg.level hroot) (away _ hr)) e

theorem slot_of_other (e : Edits format P s s') (h : s.Orderly format kernel stock)
    (ready : AllReady format kernel P s) {root : TableId}
    (hroot : s.arena.level? root = some format.topLevel)
    (hne : ∀ request, P request → root ≠ request.root) (i : Nat) :
    s'.arena.slot? root i = s.arena.slot? root i :=
  relate (R := fun s s' => s'.arena.slot? root i = s.arena.slot? root i)
    (fun heq => by rw [heq.arena]) (fun h h' => h'.trans h) h ready
    (fun hg ho hready hr e => e.slot_of_other ho hready (hg.level hroot) (hne _ hr) i) e

theorem slot_of_root (e : Edits format P s s') (h : s.Orderly format kernel stock)
    (ready : AllReady format kernel P s) {root : TableId} {i : Nat}
    (hroot : ∀ request, P request → request.root = root)
    (away : ∀ request, P request → ∀ {target virt phys}, request.Piece format target virt phys →
      format.index virt format.topLevel ≠ i) :
    s'.arena.slot? root i = s.arena.slot? root i :=
  relate (R := fun s s' => s'.arena.slot? root i = s.arena.slot? root i)
    (fun heq => by rw [heq.arena]) (fun h h' => h'.trans h) h ready
    (fun {_ _ request} _ ho hready hr e => by
      rw [← hroot request hr]; exact e.slot_of_root ho hready (away request hr)) e

theorem slot_of_sealed (e : Edits format P s s') (h : s.Orderly format kernel stock)
    (ready : AllReady format kernel P s) {root : TableId}
    (hroot : ∀ request, P request → request.root = root)
    (hsealed : ∀ request, P request → request.rootSealed = true) {i : Nat}
    {x : Slot} (hx : s.arena.slot? root i = some x) :
    ∃ y, s'.arena.slot? root i = some y ∧ x.Like y :=
  relate (R := fun s s' => ∀ x, s.arena.slot? root i = some x →
      ∃ y, s'.arena.slot? root i = some y ∧ x.Like y)
    (fun heq x hx => ⟨x, by rw [heq.arena]; exact hx, .refl x⟩)
    (fun h h' x hx => by
      obtain ⟨y, hy, hlike⟩ := h x hx
      obtain ⟨z, hz, hlike'⟩ := h' y hy
      exact ⟨z, hz, hlike.trans hlike'⟩) h ready
    (fun {_ _ request} _ ho hready hr e x hx => by
      rw [← hroot request hr] at hx ⊢
      exact e.slot_of_sealed ho hready (hsealed request hr) hx) e x hx

/-- New mappings are pages of requests. -/
theorem page (e : Edits format P s s') (h : s.Orderly format kernel stock)
    (ready : AllReady format kernel P s) {id i : Nat} {x : Slot} {m : Mapping}
    (hx : s'.arena.slot? id i = some x) (hm : x.mapping? = some m) :
    s.arena.slot? id i = some x ∨ ∃ request target virt phys, P request
      ∧ request.Piece format target virt phys ∧ x = Walk.pageSlot target ⟨phys, request.flags⟩ :=
  relate (R := fun s s' => s'.arena.slot? id i = some x →
      s.arena.slot? id i = some x ∨ ∃ request target virt phys, P request
        ∧ request.Piece format target virt phys ∧ x = Walk.pageSlot target ⟨phys, request.flags⟩)
    (fun heq hx => by rw [heq.arena] at hx; exact .inl hx)
    (fun h h' hx => (h' hx).elim h .inr) h ready
    (fun {_ _ request} _ ho _ hr e hx => (e.page ho.ledger.books.names hx hm).imp_right
      fun ⟨target, virt, phys, piece, heq⟩ => ⟨request, target, virt, phys, hr, piece, heq⟩) e hx

end Edits

end KernelMemory
