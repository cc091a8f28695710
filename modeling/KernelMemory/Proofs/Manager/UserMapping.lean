/-
  KernelMemory.Proofs.Manager.UserMapping — the bytes that an accepted mapping of user memory maps.

  The two addresses of a range are rounded down to pages one by one, and the length is rounded up
  with the page offset of the virtual address.  So bytes are mapped at the page offset they have
  in virtual memory, whatever offset was asked for, and the last page can be one that was not asked
  for: the first one past the frames that entries can name, even, whose entry names frame 0.

  Main results:
    * `accepted_mapping_maps` — what is translated, and which frames were entered, after every
      accepted mapping;
    * `mapping_displaced` — bytes in other places than was asked for, and an entry for frame 0.
-/

import KernelMemory.Proofs.Manager.Acceptance
import KernelMemory.Proofs.Manager.Committed
import KernelMemory.Proofs.Manager.Faults
import KernelMemory.Proofs.Manager.Isolation
import KernelMemory.Proofs.Manager.StaleHandles

namespace KernelMemory

open Machine Manager Steps TableStore

variable {format : Format} {config : Config} {stock : Stock} {m m' m₁ m₂ : Machine} {cpu : CpuId}
  {space : AddressSpace} {virt phys size : Nat}

/-! ## Entries -/

/-- The first frame past the end is written as frame 0. -/
theorem encodePage_physicalEnd (format : Format) (flags : PageFlags) :
    format.encodePage format.physicalEnd flags 0 = format.encodePage 0 flags 0 := by
  have hfield : format.addressField 0 format.physicalEnd = format.addressField 0 0 := by
    cases format <;> decide
  rw [Format.encodePage, Format.encodePage, hfield]

/-- So frame 0 is what a processor reads there. -/
theorem frame_encodePage_physicalEnd (format : Format) (flags : PageFlags) :
    RawEntry.frame format 0 (format.encodePage format.physicalEnd flags 0) = 0 := by
  rw [encodePage_physicalEnd]
  refine Format.addressField_encodePage flags ?_ (Nat.zero_mod _)
  cases format <;> decide

/-! ## What a mapping does -/

/-- The frame of a mapping, as its entry at a level has it.  It is below the end, and the entry names
it; or it is the one at the end, where the range was moved up and over the end, and the entry names
frame 0. -/
def FrameEntered (format : Format) (virt phys size level : Nat) (mapping : Mapping) : Prop :=
  (mapping.frame < format.physicalEnd
      ∧ RawEntry.frame format level (format.encodePage mapping.frame mapping.flags level)
        = mapping.frame)
    ∨ mapping.frame = format.physicalEnd
      ∧ phys < shifted virt phys ∧ format.physicalEnd < shifted virt phys + size
      ∧ RawEntry.frame format level (format.encodePage mapping.frame mapping.flags level) = 0

/-- What an accepted mapping of user memory does. -/
structure UserMapped (format : Format) (space : AddressSpace) (virt phys size : Nat)
    (m m' : Machine) : Prop where
  /-- Bytes are where those of the page are, at the page offset of the virtual address. -/
  translated : ∀ i, i < size → frameSize ≤ virt + i →
    m'.translate format space (virt + i) = .ok (some (shifted virt phys + i))
  /-- These are the mappings that there are in addition. -/
  entered : ∀ {id i level : Nat} {x : Slot} {mapping : Mapping},
    m'.store.arena.slot? id i = some x → x.mapping? = some mapping →
      m'.store.arena.level? id = some level → m.store.arena.slot? id i ≠ some x →
        FrameEntered format virt phys size level mapping
  /-- A new table is in a frame that was free, and its entry names it if it is below the end. -/
  tables : ∀ {id : Nat} {frame : PhysAddr}, m'.store.arena.frame? id = some frame →
    m.store.arena.frame? id ≠ some frame →
      (∃ f, frame = f * frameSize ∧ m.store.frames.isFree f = true)
        ∧ (frame < format.physicalEnd → ∀ user,
          RawEntry.frame format 0 (format.encodeTable frame user) = frame)

/-- Nothing of it depends on more than frames, tables and spaces. -/
theorem UserMapped.around (h : UserMapped format space virt phys size m₁ m₂) (before : Quiet m m₁)
    (after : Quiet m₂ m') (hs : m₂.Sound format stock) :
    UserMapped format space virt phys size m m' where
  translated := fun i hi hnull => by
    have hsame : SameAt format m₂ m' space (virt + i) := (after.calm hs).sameAt
    rw [hsame.translate]
    exact h.translated i hi hnull
  entered := by
    rw [← before.store.arena, after.store.arena]
    exact h.entered
  tables := by
    rw [← before.store.arena, ← before.store.frames, after.store.arena]
    exact h.tables

theorem userMapped_refl (m : Machine) : UserMapped format space virt phys 0 m m where
  translated := fun i hi => absurd hi (Nat.not_lt_zero i)
  entered := fun hx _ _ hnew => absurd hx hnew
  tables := fun hf hnew => absurd hf hnew

/-! ## Pages of a request -/

/-- Where a page of the request lies in the frames that entries can name. -/
theorem MapRequest.Piece.frameEntered {root : TableId} {request : MapRequest} {target v p : Nat}
    (piece : request.Piece format target v p) (hr : UserRequest format root virt phys request)
    (flags : PageFlags) : FrameEntered format virt phys request.size target ⟨p, flags⟩ := by
  obtain ⟨start, base, length, hb, hv, hend, hphys⟩ := piece.bounds
  rw [hr.start, hr.frame] at hb
  obtain ⟨-, hlimit, -⟩ := userRange_cover hr.pos hr.last_virt hr.last_phys hb
  have hspan := MapRequest.Piece.frameSize_le_span format target
  have hspec := pageBounds_spec hb
  have hbase : base + virt % frameSize = shifted virt phys := by
    unfold shifted floorTo
    simp only [frameSize] at *
    omega
  have hlevel := piece.level
  by_cases hlt : p < format.physicalEnd
  · exact .inl ⟨hlt, Arena.read_encodePage format ⟨p, flags⟩ hlevel hlt piece.phys_mod⟩
  · -- only the last small page can be that far
    have hmod := format.physicalEnd_mod
    have heq : p = format.physicalEnd := by omega
    have hsmall : target = 0 := by
      refine hlevel.resolve_right ?_
      rintro rfl
      have hlarge : frameSize < format.span Format.largeLevel := by cases format <;> decide
      omega
    rw [hsmall]
    have hlast := hr.last_phys
    have hover : format.physicalEnd < shifted virt phys + request.size := by
      simp only [frameSize] at *
      omega
    refine .inr ⟨heq, by omega, hover, ?_⟩
    · rw [heq]
      exact frame_encodePage_physicalEnd format flags

/-- A page of either size is in a table of its level. -/
theorem Arena.Shaped.level_pageSlot {kernel : TableId} {a : Arena} (h : a.Shaped format kernel)
    {id i target : Nat} {mapping : Mapping} (htarget : target = 0 ∨ target = Format.largeLevel)
    (hx : a.slot? id i = some (Walk.pageSlot target mapping)) : a.level? id = some target := by
  rcases htarget with rfl | rfl
  · exact (h.leaf hx).1
  · exact (h.large hx).1

/-! ## Accepted mappings -/

theorem Manager.MappedTask.userMapped {spaces : Spaces} {root : TableId} {s : TableStore}
    (h : MappedTask format config space virt phys size spaces root m m')
    (hm : m.Sound format stock)
    (hrange : RangeMapped format (userRequest config root virt phys size) m.store s)
    (hflushed : Flushed s m') (hdrawn : Drawn m.store m'.store) :
    UserMapped format space virt phys size m m' := by
  have hm' : m'.Sound format stock := h.mappedUser.sound hm
  have hshaped := (hm.spaces h.known).shaped
  have ready : AllReady format spaces.kernelTable
      (fun r => r = userRequest config root virt phys size) m.store :=
    allReady_of_ready ⟨h.request.fits, h.level⟩
  have horderly : m.store.Orderly format spaces.kernelTable stock := ⟨hm.ledger, hshaped⟩
  have hedits := hrange.overlaid.edits
  have halike := hflushed.unmarked.alike
  refine ⟨fun i hi hnull => h.translated hm hrange hflushed hi hnull, ?_, ?_⟩
  · intro id i level x mapping hx hmapping hl hnew
    rw [halike.slot] at hx
    rw [halike.level] at hl
    rcases hedits.page horderly ready hx hmapping with hold | ⟨r, target, v, p, rfl, piece, rfl⟩
    · exact absurd hold hnew
    · have htarget := (hedits.orderly horderly ready).shaped.level_pageSlot piece.level hx
      rw [htarget] at hl
      rw [Walk.mapping?_pageSlot] at hmapping
      cases hl
      cases hmapping
      exact piece.frameEntered h.request _
  · intro id frame hf hnew
    obtain ⟨hmod, -⟩ := hm'.ledger.table hf
    refine ⟨?_, fun hlt user => Format.addressField_encodeTable user hlt hmod⟩
    rcases hdrawn.tables hf with hold | ⟨f, heq, hfree, -⟩
    · exact absurd hold hnew
    · exact ⟨f, heq, hfree⟩

/-- Mapping in a task space, from the inside of the kernel space. -/
theorem userMapped_of_mapTask (hm : m.Sound format stock)
    (e : mapTask format config cpu space virt phys size m = .ok () m') :
    UserMapped format space virt phys size m m' := by
  have htidy : m.store.Tidy := ⟨hm.ledger.books.names, hm.ledger.allocator⟩
  have hdraws : OnStores Draws m m' := (draws_mapTask m).of_ok e
  rcases (ends_mapTask_mapped hm).of_ok e with ⟨rfl, rfl⟩ | ⟨spaces, root, hdone, s, hrange, hflushed⟩
  · exact userMapped_refl _
  · exact hdone.userMapped hm hrange hflushed (hdraws htidy)

/-- Going to the kernel space, mapping there, and coming back. -/
theorem userMapped_of_mapUser (hm : m.Sound format stock) (hplaced : m.Placed)
    (e : mapUser format config cpu space virt phys size m = .ok () m') :
    UserMapped format space virt phys size m m' := by
  obtain ⟨m₁, m₂, hq₁, hmap, hq₂, hm₁, hm₂, -⟩ := exists_sections_of_mapUser hm hplaced e
  exact (userMapped_of_mapTask hm₁ hmap).around hq₁ hq₂ hm₂

/-- In every state that processors reach, mapping user memory that is accepted, as a whole call or
as the section of one inside the kernel space, maps each byte of the range at the page offset of
its virtual address, and enters frames that entries can name, but for the first one past them where
the range was moved over the end. -/
theorem accepted_mapping_maps {poolPages : Nat} {s : System}
    (h : Reachable format config AnyCall poolPages s)
    (e : mapUser format config cpu space virt phys size s.machine = .ok () m'
      ∨ mapTask format config cpu space virt phys size s.machine = .ok () m') :
    UserMapped format space virt phys size s.machine m' := by
  have hs := h.sound
  rcases e with e | e
  · exact userMapped_of_mapUser hs.machine hs.placed e
  · exact userMapped_of_mapTask hs.machine e

/-! ## A run that maps user memory -/

/-- 64 frames of free memory, which the kernel does not map. -/
def spareMap : BootMap :=
  ⟨[⟨0, .free, ⟨false, true⟩⟩, ⟨64 * frameSize, .endMarker, .none⟩], by decide⟩

/-- A processor runs on the root of a new task, with frames left. -/
theorem exists_task_spareMap (hbase : config.kernelImageBase = none) :
    ∃ calls m stock space before, Answered format config AnyCall 0 calls m stock
      ∧ OnTask format 0 space before m ∧ 61 ≤ m.store.frames.available .normal := by
  have hwf : (FrameAllocator.init ⟨0, none⟩ spareMap {}).2.1.WellFormed :=
    (FrameAllocator.init_wellFormed (FrameAllocator.wellFormed_unstarted 0) (by decide) {}).1
  have hregions : spareMap.regions = [⟨⟨0, 64 * frameSize⟩, .free, ⟨false, true⟩⟩] := by decide
  have havailable : 63 ≤ (FrameAllocator.init ⟨0, none⟩ spareMap {}).2.1.available .normal := by
    refine FrameAllocator.le_available_init (by decide) (by decide)
      (hregions ▸ List.mem_singleton.mpr rfl) Nat.one_pos (show 64 ≤ spareMap.stop / frameSize by decide)
      (fun frame _ hlt => ⟨rfl, Nat.not_lt_zero _, ?_⟩) {}
    show ¬ 0 + 64 * frameSize < (frame + 1) * frameSize
    unfold frameSize
    omega
  obtain ⟨f₀, hf₀⟩ := FrameAllocator.exists_isFree hwf (Nat.lt_of_lt_of_le (by decide) havailable)
  obtain ⟨first, rest, hfirst⟩ := FrameAllocator.exists_allocatePage hwf hf₀
  have hcount := FrameAllocator.available_of_allocatePage hwf hfirst
  obtain ⟨m₀, stock, h₀, hframes, spaces, hspaces, -, -, -, houtside, -⟩ : ∃ m stock,
      Answered format config AnyCall 0 [(0, .initFrames spareMap), (0, .init spareMap [])] m stock
        ∧ _ ∧ _ := exists_started (by decide) (by decide) hbase rfl (by rw [hfirst]) trivial trivial 0
  rw [hfirst] at hframes
  have hleft : m₀.store.frames.available .normal = rest.available .normal := by rw [hframes]
  have hstarted : m₀.spaces ≠ none := by
    rw [hspaces]
    exact Option.some_ne_none spaces
  -- the root of the task takes a second frame
  obtain ⟨m, stock', space, h, hon⟩ :=
    h₀.onTask hstarted houtside (by omega) trivial fun _ => trivial
  have hspent := hon.spent
  exact ⟨_, m, stock', space, m₀, h, hon, by omega⟩

/-- So there is a run that maps a range, if it needs no more tables than that. -/
theorem exists_mapUser_spareMap (hbase : config.kernelImageBase = none) (hpos : 0 < size)
    (hvirt : virt + (size - 1) < format.userEnd) (hphys : phys + (size - 1) < format.physicalEnd)
    (enough : tablesWanted format config virt phys size ≤ 61) :
    ∃ s space m', Reachable format config AnyCall 0 s ∧ s.machine.HasTask space
      ∧ (∀ v, v < format.userEnd → s.machine.translate format space v = .ok none)
      ∧ mapUser format config 0 space virt phys size s.machine = .ok () m'
      ∧ ∃ stock', Reachable format config AnyCall 0 ⟨m', stock', fun _ => .idle⟩ := by
  obtain ⟨calls, m, stock, space, before, h, hon, hfree⟩ : ∃ calls m stock space before,
      Answered format config AnyCall 0 calls m stock ∧ _ := exists_task_spareMap hbase
  obtain ⟨m', stock', h', e⟩ :=
    h.mapUser hon hpos hvirt hphys (Nat.le_trans enough hfree) trivial
  exact ⟨_, space, m', h.reachable, hon.hasTask, hon.vacant, e, stock', h'.reachable⟩

/-- In particular, for a range in the middle of pages. -/
theorem accepted_mapping_maps_spareMap : ∃ s space m', Reachable .wide {} AnyCall 0 s
    ∧ mapUser .wide {} 0 space 0x400800 0x800800 0x1000 s.machine = .ok () m'
    ∧ UserMapped .wide space 0x400800 0x800800 0x1000 s.machine m' := by
  have htables : tablesWanted .wide {} 0x400800 0x800800 0x1000 ≤ 61 := by decide +kernel
  obtain ⟨s, space, m', h, -, -, e, -⟩ : ∃ s space m', Reachable .wide {} AnyCall 0 s ∧ _ ∧ _ ∧
      mapUser .wide {} 0 space 0x400800 0x800800 0x1000 s.machine = .ok () m' ∧ _ :=
    exists_mapUser_spareMap rfl (by decide) (by decide) (by decide) htables
  exact ⟨s, space, m', h, e, accepted_mapping_maps h (.inl e)⟩

/-- A page that is translated to another place of a large page than its own has an entry. -/
theorem getEntry_of_apart (hm : m.Sound format stock) {v p : Nat}
    (ht : m.translate format space v = .ok (some p)) (hv : v % frameSize = 0)
    (hapart : p % format.span Format.largeLevel ≠ v % format.span Format.largeLevel) :
    ∃ entry, m.getEntry format space v = .ok (some entry) ∧ entry.frame = p
      ∧ entry.raw = format.encodePage p entry.flags 0 := by
  cases hroot : m.rootTable space with
  | none =>
    rw [Machine.translate, hroot] at ht
    cases ht
  | some root =>
    obtain ⟨⟨spaces, hspaces, -⟩, hl, -⟩ := rootTable_eq_some hm hroot
    have hshaped := (hm.spaces hspaces).shaped
    rw [translate_eq_view hm hroot] at ht
    injection ht with ht
    obtain ⟨⟨q, flags⟩, hview, rfl⟩ := Option.map_eq_some_iff.mp ht
    obtain ⟨mapping, hlookup, hsum⟩ := hshaped.lookup_of_apart hl hview hapart
    -- a small page, so the address is that of its frame
    rw [Format.span_zero, hv, Nat.add_zero] at hsum
    rw [getEntry_eq_lookup hm hroot, hlookup]
    subst hsum
    exact ⟨_, rfl, rfl, rfl⟩

/-- Where an address is translated to the end of the frames that entries can name, inside what a
large page would be, the entry for it names frame 0. -/
theorem getEntry_at_physicalEnd (hm : m.Sound format stock) {v : Nat}
    (ht : m.translate format space v = .ok (some format.physicalEnd)) (hv : v % frameSize = 0)
    (hinside : v % format.span Format.largeLevel ≠ 0) :
    ∃ entry, m.getEntry format space v = .ok (some entry) ∧ entry.frame = format.physicalEnd
      ∧ RawEntry.frame format 0 entry.raw = 0 := by
  have hend : format.physicalEnd % format.span Format.largeLevel = 0 := by cases format <;> decide
  obtain ⟨entry, hentry, hframe, hraw⟩ :=
    getEntry_of_apart hm ht hv (fun heq => hinside (heq.symm.trans hend))
  refine ⟨entry, hentry, hframe, ?_⟩
  rw [hraw]
  exact frame_encodePage_physicalEnd format entry.flags

/-- 4 KiB from the middle of a page on, mapped to the last frame that entries of the narrow format can
name: the first byte asked for is seen past the middle of that frame, and the second half of the range
is past the end, in a page whose entry names frame 0. -/
theorem mapping_displaced : ∃ s space m', Reachable .narrow {} AnyCall 0 s
    ∧ mapUser .narrow {} 0 space 0x400800 0xfffff000 0x1000 s.machine = .ok () m'
    ∧ m'.translate .narrow space 0x400800 = .ok (some 0xfffff800)
    ∧ s.machine.translate .narrow space 0x401000 = .ok none
    ∧ m'.translate .narrow space 0x401000 = .ok (some 0x100000000)
    ∧ ∃ entry, m'.getEntry .narrow space 0x401000 = .ok (some entry)
      ∧ entry.frame = Format.narrow.physicalEnd ∧ RawEntry.frame .narrow 0 entry.raw = 0 := by
  have htables : tablesWanted .narrow {} 0x400800 0xfffff000 0x1000 ≤ 61 := by decide +kernel
  obtain ⟨s, space, m', h, -, hvacant, e, -⟩ : ∃ s space m', Reachable .narrow {} AnyCall 0 s ∧ _ ∧ _ ∧
      mapUser .narrow {} 0 space 0x400800 0xfffff000 0x1000 s.machine = .ok () m' ∧ _ :=
    exists_mapUser_spareMap rfl (by decide) (by decide) (by decide) htables
  have hs := h.sound
  have hmapped : UserMapped .narrow space 0x400800 0xfffff000 0x1000 s.machine m' :=
    userMapped_of_mapUser hs.machine hs.placed e
  have hdone := (ends_mapUser hs.machine hs.placed).of_ok e
  have hm' : m'.Sound .narrow s.stock := hdone.tables.sound hs.machine
  have hsecond : m'.translate .narrow space 0x401000 = .ok (some Format.narrow.physicalEnd) :=
    hmapped.translated 0x800 (by decide) (by decide)
  exact ⟨s, space, m', h, e, hmapped.translated 0 (by decide) (by decide), hvacant _ (by decide),
    hsecond, getEntry_at_physicalEnd hm' hsecond (by decide) (by decide)⟩

end KernelMemory
