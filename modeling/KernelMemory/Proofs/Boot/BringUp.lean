/-
  KernelMemory.Proofs.Boot.BringUp — bring-up gives no reserved memory away.

  Before the frame allocator starts, the boot stack and the bootstrap heap are split out of the
  ranges.  What the allocator then has is memory of free ranges, off both of them, and its bitmap
  fits in the heap that was claimed for it.

  Main results:
    * `carveOuts_ordered` — the spans can be split out;
    * `ends_claimBootstrapHeap` — the span claimed, if any, suits the heap;
    * `usable_of_offers` — where frames lie that a map of the ranges offers;
    * `bringUp_guarded` — the machine when the allocator has started.
-/

import KernelMemory.Boot.BringUp
import KernelMemory.Proofs.Boot.HeapSpan
import KernelMemory.Proofs.Boot.Records
import KernelMemory.Proofs.Endings
import KernelMemory.Proofs.Frames.Calls
import KernelMemory.Proofs.Manager.CriticalSections

namespace KernelMemory

namespace Boot

open Machine Steps

variable {ranges : List Range} {stack bootstrap : Option Span}

/-! ## Carve-outs -/

/-- The carve-outs are the boot stack and the bootstrap heap. -/
theorem mem_carveOuts {c : CarveOut} : c ∈ carveOuts stack bootstrap
    ↔ (∃ span ∈ stack, ⟨span.low, span.high, .kernelStack⟩ = c)
      ∨ ∃ span ∈ bootstrap, ⟨span.low, span.high, .bootReclaimable⟩ = c := by
  simp [carveOuts]

theorem exists_carveOut {span : Span} (h : span ∈ stack ∨ span ∈ bootstrap) :
    ∃ c ∈ carveOuts stack bootstrap, c.low = span.low ∧ c.high = span.high := by
  rcases h with h | h
  · exact ⟨⟨span.low, span.high, .kernelStack⟩, mem_carveOuts.mpr (.inl ⟨span, h, rfl⟩), rfl, rfl⟩
  · exact ⟨⟨span.low, span.high, .bootReclaimable⟩, mem_carveOuts.mpr (.inr ⟨span, h, rfl⟩),
      rfl, rfl⟩

theorem kind_of_mem_carveOuts {c : CarveOut} (h : c ∈ carveOuts stack bootstrap) :
    c.kind = .kernelStack ∨ c.kind = .bootReclaimable := by
  rcases mem_carveOuts.mp h with ⟨span, -, rfl⟩ | ⟨span, -, rfl⟩
  · exact .inl rfl
  · exact .inr rfl

theorem kind_ne_of_mem_carveOuts {c : CarveOut} (h : c ∈ carveOuts stack bootstrap)
    {kind : RegionKind} (hstack : kind ≠ .kernelStack) (hboot : kind ≠ .bootReclaimable) :
    c.kind ≠ kind := by
  intro hkind
  rcases kind_of_mem_carveOuts h with h | h
  · exact hstack (hkind.symm.trans h)
  · exact hboot (hkind.symm.trans h)

/-- Spans that do not overlap can be split out. -/
theorem carveOuts_ordered (hstack : ∀ span ∈ stack, span.Words)
    (hbootstrap : ∀ span ∈ bootstrap, span.Words)
    (hapart : ∀ s ∈ stack, ∀ b ∈ bootstrap, ¬ s.Overlaps b) :
    CarveOutsOrdered (carveOuts stack bootstrap) where
  nonempty := by
    intro c hc
    rcases mem_carveOuts.mp hc with ⟨span, hspan, rfl⟩ | ⟨span, hspan, rfl⟩
    · exact (hstack span hspan).1
    · exact (hbootstrap span hspan).1
  sorted := by
    have h : (carveOuts stack bootstrap).Pairwise fun a b => decide (a.low ≤ b.low) = true := by
      apply List.pairwise_mergeSort
      · intro a b c hab hbc
        rw [decide_eq_true_eq] at hab hbc ⊢
        exact Nat.le_trans hab hbc
      · intro a b
        simpa using Nat.le_total a.low b.low
    exact h.imp fun {a b} hab => of_decide_eq_true hab
  apart := by
    apply (List.mergeSort_perm _ _).symm.pairwise
    · cases stack with
      | none => cases bootstrap <;> simp
      | some s =>
        cases bootstrap with
        | none => simp
        | some b =>
          have h := hapart s rfl b rfl
          simp only [Option.toList_some, List.map_cons, List.map_nil, List.cons_append,
            List.nil_append, List.pairwise_cons, List.mem_cons, List.not_mem_nil, or_false,
            forall_eq]
          refine ⟨fun address hboth => h ?_, by simp⟩
          obtain ⟨⟨hlow, hhigh⟩, hlow', hhigh'⟩ := hboth
          exact ⟨Nat.lt_of_le_of_lt hlow hhigh', Nat.lt_of_le_of_lt hlow' hhigh⟩
    · intro a b hab address hboth
      exact hab address ⟨hboth.2, hboth.1⟩
  kinds := fun _ hc => kind_ne_of_mem_carveOuts hc (by simp) (by simp)

/-! ## The bootstrap heap -/

/-- Ends that are not beyond a bound are not beyond it altogether. -/
theorem lastStop_le {bound : Nat} : ∀ {rest : List Range} {stop : Nat}, stop ≤ bound →
    (∀ range ∈ rest, range.stop ≤ bound) → lastStop stop rest ≤ bound := by
  intro rest
  induction rest with
  | nil => exact fun hstop _ => hstop
  | cons range rest ih =>
    intro stop hstop h
    have hrest : ∀ other ∈ rest, other.stop ≤ bound :=
      fun other hother => h other (List.mem_cons_of_mem range hother)
    rw [lastStop_cons]
    split
    · exact ih hstop hrest
    · exact ih (Nat.max_le.mpr ⟨hstop, h range List.mem_cons_self⟩) hrest

/-- Ranges end at a word. -/
theorem lastStop_lt_bound (ranges : List Range) : lastStop 0 ranges < Word.bound := by
  refine Nat.lt_of_le_of_lt (lastStop_le (Nat.zero_le Word.max) fun range _ => ?_) (by decide)
  exact Nat.le_of_lt_succ range.stop_lt_bound

theorem bitmapBytes_mono {a b : Nat} (h : a ≤ b) : bitmapBytes a ≤ bitmapBytes b := by
  have hdiv : a / frameSize ≤ b / frameSize := Nat.div_le_div_right h
  unfold bitmapBytes
  omega

/-- The heap asked for holds the bitmap of the ranges, and its size does not overflow. -/
theorem bootstrapBytes_bounds {bytes : Nat} (h : bootstrapBytes ranges = some bytes) :
    bitmapBytes (lastStop 0 ranges) ≤ bytes ∧ 0 < bytes
      ∧ ceilTo frameSize bytes < Word.bound := by
  obtain ⟨(stop : Nat), hmax, hbytes⟩ := Option.map_eq_some_iff.mp h
  obtain ⟨hmem, hlargest⟩ := List.max?_eq_some_iff.mp hmax
  obtain ⟨range, -, hrange⟩ := List.mem_map.mp hmem
  have hword : 2 ^ 64 > stop := by
    rw [← hrange]
    exact range.stop_lt_bound
  have hlast : lastStop 0 ranges ≤ stop :=
    lastStop_le (Nat.zero_le stop) fun other hother => hlargest _ (List.mem_map_of_mem hother)
  have hmono := bitmapBytes_mono hlast
  have hceil := ceilTo_lt_add (by decide : 0 < frameSize) bytes
  have hbitmap : bitmapBytes stop = (stop / 4096 + 63) / 64 * 8 := rfl
  have hslack : bytes = bitmapBytes stop + 65536 := hbytes.symm
  refine ⟨by omega, by omega, Nat.lt_trans hceil ?_⟩
  show bytes + 4096 < 2 ^ 64
  omega

/-- Nothing but the log has changed. -/
def Logged (m m' : Machine) : Prop :=
  ∃ records, m' = { m with store := { m.store with log := records } }

section

variable {m m' m'' : Machine}

theorem Logged.refl (m : Machine) : Logged m m := ⟨m.store.log, rfl⟩

theorem Logged.trans (h : Logged m m') (h' : Logged m' m'') : Logged m m'' := by
  obtain ⟨_, rfl⟩ := h
  obtain ⟨records, rfl⟩ := h'
  exact ⟨records, rfl⟩

theorem Logged.frames (h : Logged m m') : m'.store.frames = m.store.frames := by
  obtain ⟨_, rfl⟩ := h
  rfl

theorem Logged.descriptor (h : Logged m m') : m'.descriptor = m.descriptor := by
  obtain ⟨_, rfl⟩ := h
  rfl

end

/-- A span that suits a bootstrap heap for these ranges. -/
def SuitsHeap (ranges : List Range) (stack : Option Span) (span : Span) : Prop :=
  ∃ bytes, bootstrapBytes ranges = some bytes ∧ ∃ range ∈ ranges,
    Suits (ceilTo frameSize bytes) stack range ∧ span = topSpan (ceilTo frameSize bytes) range

/-- The direct map at `offset` would show the span that the heap is offered at an address that is
no word. -/
def Unshown (ranges : List Range) (stack : Option Span) (offset : Nat) : Prop :=
  ∃ bytes span, bootstrapBytes ranges = some bytes
    ∧ heapSpan ranges bytes stack = .ok (some span) ∧ Word.bound ≤ span.low + offset

/-- Claiming the heap changes nothing but the log, and what was claimed suits it, whatever the heap
answers; or the heap would be told of an address that is no word. -/
theorem ends_claimBootstrapHeap_shown {offset : Nat} (hstack : ∀ span ∈ stack, span.Words)
    (claim : HeapClaim) (m : Machine) :
    Ends (claimBootstrapHeap claim ranges stack offset) m
      (fun bootstrap m' => Logged m m' ∧ ∀ span ∈ bootstrap, SuitsHeap ranges stack span)
      (fun _ _ => Unshown ranges stack offset) := by
  unfold claimBootstrapHeap
  cases hbytes : bootstrapBytes ranges with
  | none => exact ⟨.refl m, by simp⟩
  | some bytes =>
    obtain ⟨-, -, hceil⟩ := bootstrapBytes_bounds hbytes
    have hspan := heapSpan_eq hstack hceil ranges
    simp only
    rw [ends_bind, ends_lift_ok hspan]
    cases hfound : (ranges.reverse.find? fun range =>
        Suits (ceilTo frameSize bytes) stack range).map (topSpan (ceilTo frameSize bytes)) with
    | none => exact ⟨⟨_, rfl⟩, by simp⟩
    | some span =>
      rw [hfound] at hspan
      obtain ⟨range, hrange, hsuits, htop⟩ := suits_of_heapSpan hstack hceil hspan
      have hlow : span.low ≤ span.high := by
        rw [htop]
        exact Nat.sub_le _ _
      simp only
      rw [ends_bind, ends_lift_ok (physicalRegion_eq hlow), ends_bind, ends_add]
      refine ⟨fun _ => ?_, fun hover => ⟨bytes, span, hbytes, hspan, hover⟩⟩
      split
      · refine ⟨⟨_, rfl⟩, fun other hother => ?_⟩
        rw [← Option.mem_some.mp hother]
        exact ⟨bytes, hbytes, range, hrange, hsuits, htop⟩
      · exact ⟨⟨_, rfl⟩, by simp⟩

/-- Where the heap is told of addresses that are words, claiming it ends. -/
theorem ends_claimBootstrapHeap {offset : Nat} (hstack : ∀ span ∈ stack, span.Words)
    (hvisible : ∀ bytes span, bootstrapBytes ranges = some bytes →
      heapSpan ranges bytes stack = .ok (some span) → span.low + offset < Word.bound)
    (claim : HeapClaim) (m : Machine) :
    Ends (claimBootstrapHeap claim ranges stack offset) m
      (fun bootstrap m' => Logged m m' ∧ ∀ span ∈ bootstrap, SuitsHeap ranges stack span)
      (fun _ _ => False) := by
  refine (ends_claimBootstrapHeap_shown hstack claim m).mono (fun _ _ h => h) fun _ _ hf => ?_
  obtain ⟨bytes, span, hbytes, hspan, hover⟩ := hf
  exact absurd (hvisible bytes span hbytes hspan) (Nat.not_lt.mpr hover)

theorem SuitsHeap.words {span : Span} (h : SuitsHeap ranges stack span) : span.Words := by
  obtain ⟨bytes, hbytes, range, -, ⟨-, hsize, -, -⟩, rfl⟩ := h
  obtain ⟨-, hpos, -⟩ := bootstrapBytes_bounds hbytes
  have hceil := le_ceilTo (by decide : 0 < frameSize) bytes
  refine ⟨?_, Nat.lt_of_le_of_lt (floorTo_le _ _) range.stop_lt_bound⟩
  show floorTo frameSize range.stop - ceilTo frameSize bytes < floorTo frameSize range.stop
  omega

/-- The heap is off the boot stack. -/
theorem SuitsHeap.apart {span : Span} (h : SuitsHeap ranges stack span) :
    ∀ s ∈ stack, ¬ s.Overlaps span := by
  obtain ⟨bytes, -, range, -, ⟨-, -, -, hclear⟩, rfl⟩ := h
  exact hclear

/-- The heap is in a free range. -/
theorem SuitsHeap.exists_range {span : Span} (h : SuitsHeap ranges stack span) :
    ∃ range ∈ ranges, range.kind = .free ∧ ∀ address, span.Holds address → range.Holds address := by
  obtain ⟨bytes, -, range, hrange, ⟨hkind, -, hlow, -⟩, rfl⟩ := h
  refine ⟨range, hrange, hkind, fun address hholds => ?_⟩
  obtain ⟨hge, hlt⟩ := hholds
  have hstop : floorTo frameSize range.stop ≤ range.stop := floorTo_le _ _
  exact ⟨Nat.le_trans (Nat.le_trans (Nat.le_max_left ..) hlow) hge, Nat.lt_of_lt_of_le hlt hstop⟩

/-- The heap holds the bitmap of the ranges. -/
theorem SuitsHeap.room {span : Span} (h : SuitsHeap ranges stack span) :
    bitmapBytes (lastStop 0 ranges) ≤ span.high - span.low := by
  obtain ⟨bytes, hbytes, range, -, ⟨-, hsize, -, -⟩, rfl⟩ := h
  obtain ⟨hbitmap, -, -⟩ := bootstrapBytes_bounds hbytes
  have hceil := le_ceilTo (by decide : 0 < frameSize) bytes
  show bitmapBytes (lastStop 0 ranges)
    ≤ floorTo frameSize range.stop - (floorTo frameSize range.stop - ceilTo frameSize bytes)
  omega

/-! ## Frames -/

/-- Whether a frame is memory that may be given away: it is in a free range, and no address of it
is in one of the spans. -/
def Usable (ranges : List Range) (stack bootstrap : Option Span) (frame : Nat) : Prop :=
  (∃ range ∈ ranges, range.kind = .free ∧ ¬ frame * frameSize < range.base
      ∧ (frame + 1) * frameSize ≤ range.stop)
    ∧ ∀ span, span ∈ stack ∨ span ∈ bootstrap → ∀ address, frame * frameSize ≤ address →
        address < (frame + 1) * frameSize → ¬ span.Holds address

/-- A stretch of memory that is neither reserved nor carved out is in one range, and off the
carve-outs. -/
theorem Stretch.exists_range {carveOuts : List CarveOut} {low high : Nat} {kind : RegionKind}
    (h : Stretch ranges carveOuts low high kind) (hkind : kind ≠ .reserved)
    (hc : ∀ c ∈ carveOuts, c.kind ≠ kind) :
    (∃ range ∈ ranges, range.kind = kind ∧ ¬ low < range.base ∧ high ≤ range.stop)
      ∧ ∀ c ∈ carveOuts, ∀ address, low ≤ address → address < high → ¬ c.Holds address := by
  cases h with
  | carved listed first last split opens closes => exact absurd rfl (hc _ split)
  | plain listed first last clear => exact ⟨⟨_, listed, rfl, first, last⟩, clear⟩
  | hole clear => exact absurd rfl hkind

/-- The frames that a map of the ranges offers may be given away. -/
theorem usable_of_offers {map : BootMap} (hr : RangesOrdered ranges)
    (hc : CarveOutsOrdered (carveOuts stack bootstrap))
    (hmap : map.records = bootRecords ranges (carveOuts stack bootstrap)) {frame : Nat}
    (h : ∃ region ∈ map.regions, region.Offers frame) : Usable ranges stack bootstrap frame := by
  obtain ⟨region, hregion, hkind, hlow, hhigh⟩ := h
  have htiled := tiled_bootRecords hr hc
  rw [← hmap] at htiled
  have hkinds : ∀ c ∈ carveOuts stack bootstrap, c.kind ≠ .free :=
    fun c hc => kind_ne_of_mem_carveOuts hc (by simp) (by simp)
  have hstretch := htiled.fits hregion
  rw [hkind] at hstretch
  obtain ⟨⟨range, hrange, hfree, hfirst, hlast⟩, hclear⟩ := hstretch.exists_range (by simp) hkinds
  refine ⟨⟨range, hrange, hfree, by grind, by grind⟩, fun span hspan address hge hlt hholds => ?_⟩
  -- the span is a carve-out, and the whole region is clear of it
  obtain ⟨c, hc, hclow, hchigh⟩ := exists_carveOut hspan
  refine hclear c hc address (by grind) (by grind) ?_
  unfold CarveOut.Holds
  rw [hclow, hchigh]
  exact hholds

/-! ## The machine -/

/-- What the allocator is, and what is published, once it was started with a map. -/
structure Started (map : BootMap) (m m' : Machine) : Prop where
  frames : m'.store.frames = (m.store.frames.init map m.descriptor).2.1
  descriptor : m'.descriptor = (m.store.frames.init map m.descriptor).2.2.1

theorem initFrames_first {m : Machine} (h : m.store.frames.bitmap = none) (map : BootMap) :
    ∃ m', Manager.initFrames map m = .ok true m' ∧ Started map m m' := by
  have hfirst : (m.store.frames.init map m.descriptor).1 = true := by
    unfold FrameAllocator.init
    rw [h]
  let store : TableStore :=
    { m.store with
      frames := (m.store.frames.init map m.descriptor).2.1
      log := m.store.log.appendList (m.store.frames.init map m.descriptor).2.2.2 }
  have hinit : Manager.initFrames map m = .ok (m.store.frames.init map m.descriptor).1
      { m with store := store, descriptor := (m.store.frames.init map m.descriptor).2.2.1 } := rfl
  rw [hfirst] at hinit
  exact ⟨_, hinit, rfl, rfl⟩

/-- What the boot loader answers, and the span under the boot stack. -/
structure Answers (responses : Responses) (stackTop : VirtAddr) (ranges : List Range)
    (offset : Nat) (stack : Option Span) : Prop where
  described : responses.ranges = some ranges
  mapped : responses.directMap = some offset
  ordered : RangesOrdered ranges
  standing : stackFrames stackTop offset = .ok stack

/-- What the boot loader answers and promises, and the span under the boot stack. -/
structure Promised (responses : Responses) (stackTop : VirtAddr) (ranges : List Range)
    (offset : Nat) (stack : Option Span) : Prop where
  described : responses.ranges = some ranges
  mapped : responses.directMap = some offset
  ordered : RangesOrdered ranges
  standing : stackFrames stackTop offset = .ok stack
  /-- The direct map shows the span that the heap is offered at an address that is a word. -/
  visible : ∀ bytes span, bootstrapBytes ranges = some bytes →
    heapSpan ranges bytes stack = .ok (some span) → span.low + offset < Word.bound

/-- A machine whose allocator has started, as far as memory is concerned that must not be given
away. -/
structure Guarded (ranges : List Range) (stack bootstrap : Option Span) (m : Machine) : Prop where
  free : ∀ frame ∈ m.store.frames.freeSet, Usable ranges stack bootstrap frame
  pool : ∀ region ∈ m.descriptor.heap, ∀ frame ∈ region.frames,
    Usable ranges stack bootstrap frame
  apart : ∀ s ∈ stack, ∀ b ∈ bootstrap, ∀ address, ¬ (s.Holds address ∧ b.Holds address)
  /-- The words of the bitmap, of eight bytes each, fit in the bootstrap heap. -/
  room : ∀ span ∈ bootstrap, ∀ b ∈ m.store.frames.bitmap, b.words.size * 8 ≤ span.high - span.low

section

variable {responses : Responses} {stackTop : VirtAddr} {offset : Nat} {m m' : Machine}

theorem Answers.words (h : Answers responses stackTop ranges offset stack) :
    ∀ span ∈ stack, span.Words := by
  intro span hspan
  have hstanding := h.standing
  rw [Option.mem_def.mp hspan] at hstanding
  exact stackFrames_bounds hstanding

/-- The boot stack and a span that suits the heap can be split out. -/
theorem Answers.carveOuts_ordered (h : Answers responses stackTop ranges offset stack)
    (hsuits : ∀ span ∈ bootstrap, SuitsHeap ranges stack span) :
    CarveOutsOrdered (carveOuts stack bootstrap) :=
  Boot.carveOuts_ordered h.words (fun span hspan => (hsuits span hspan).words)
    fun s hs b hb => (hsuits b hb).apart s hs

theorem Promised.answers (h : Promised responses stackTop ranges offset stack) :
    Answers responses stackTop ranges offset stack :=
  ⟨h.described, h.mapped, h.ordered, h.standing⟩

/-- Starting the allocator with a map of the ranges guards what must not be given away. -/
theorem guarded_init {map : BootMap} (hr : RangesOrdered ranges)
    (hstack : ∀ span ∈ stack, span.Words)
    (hsuits : ∀ span ∈ bootstrap, SuitsHeap ranges stack span)
    (hmap : map.records = bootRecords ranges (carveOuts stack bootstrap))
    (hstop : map.stop = lastStop 0 ranges) (hbitmap : m.store.frames.bitmap = none)
    (hheap : m.descriptor.heap = none) (hstarted : Started map m m') :
    Guarded ranges stack bootstrap m' := by
  have hapart : ∀ s ∈ stack, ∀ b ∈ bootstrap, ¬ s.Overlaps b :=
    fun s hs b hb => (hsuits b hb).apart s hs
  have hc := carveOuts_ordered hstack (fun span hspan => (hsuits span hspan).words) hapart
  have hwords : map.stop < Word.bound := by
    rw [hstop]
    exact lastStop_lt_bound ranges
  obtain ⟨hframes, hdescriptor⟩ := hstarted
  have hunstarted : m.store.frames = ⟨m.store.frames.poolPages, none⟩ := by rw [← hbitmap]
  rw [hunstarted] at hframes hdescriptor
  refine ⟨fun frame hframe => ?_, fun region hregion frame hframe => ?_, ?_, ?_⟩
  · rw [hframes] at hframe
    have hfree := (FrameAllocator.mem_freeSet_init hwords m.descriptor frame).mp hframe
    exact usable_of_offers hr hc hmap hfree.1.2.2
  · have hpool := FrameAllocator.heap_init m.store.frames.poolPages map m.descriptor
    rw [hheap, Option.none_or] at hpool
    rw [hdescriptor] at hregion
    exact usable_of_offers hr hc hmap
      (FrameAllocator.offers_of_pool hwords (hpool.symm.trans hregion) hframe)
  · intro s hs b hb address hboth
    obtain ⟨⟨hlow, hhigh⟩, hlow', hhigh'⟩ := hboth
    exact hapart s hs b hb ⟨Nat.lt_of_le_of_lt hlow hhigh', Nat.lt_of_le_of_lt hlow' hhigh⟩
  · intro span hspan b hb
    rw [hframes] at hb
    have hroom := (hsuits span hspan).room
    have hwf := (FrameAllocator.init_wellFormed
      (FrameAllocator.wellFormed_unstarted m.store.frames.poolPages) hwords m.descriptor).1
    have htotal : b.frames = map.stop / frameSize := by
      have hpages : (FrameAllocator.init ⟨m.store.frames.poolPages, none⟩ map
          m.descriptor).2.1.totalPages = map.stop / frameSize :=
        FrameAllocator.totalPages_init hwords m.descriptor
      unfold FrameAllocator.totalPages at hpages
      rwa [Option.mem_def.mp hb] at hpages
    rw [(hwf.bitmap b hb).size, htotal, hstop]
    exact hroom

/-- Bring-up ends claiming the heap, whatever the heap answers, with records that are a valid map,
and with the allocator started on it.  Then no frame that is free or set aside for the heap is
reserved memory, the boot stack, or the bootstrap heap. -/
theorem bringUp_guarded (h : Promised responses stackTop ranges offset stack)
    (hbitmap : m.store.frames.bitmap = none) (hheap : m.descriptor.heap = none)
    (claim : HeapClaim) (cpu : CpuId) : ∃ bootstrap claimed map started,
      claimBootstrapHeap claim ranges stack offset m = .ok bootstrap claimed
        ∧ BootMap.ofRecords (bootRecords ranges (carveOuts stack bootstrap)) = .ok map
        ∧ bringUp responses claim cpu stackTop m
          = startManager responses claim cpu offset map started
        ∧ Started map m started ∧ Guarded ranges stack bootstrap started := by
  obtain ⟨bootstrap, claimed, hclaimed, hsame, hsuits⟩ :=
    exists_of_ends (ends_claimBootstrapHeap h.answers.words h.visible claim m)
  have hc := h.answers.carveOuts_ordered hsuits
  obtain ⟨map, hmap, hrecords, hstop⟩ := (tiled_bootRecords h.ordered hc).ofRecords
  -- before the allocator starts, the map is written to the log
  obtain ⟨described, hdescribed, hlogged⟩ : ∃ described,
      onStore (TableStore.writeAll map.describe) claimed = .ok () described
        ∧ Logged claimed described := ⟨_, rfl, _, rfl⟩
  have hframes : described.store.frames = m.store.frames := hlogged.frames.trans hsame.frames
  have hdescriptor : described.descriptor = m.descriptor :=
    hlogged.descriptor.trans hsame.descriptor
  obtain ⟨started, hinit, hstarted⟩ := initFrames_first (hframes ▸ hbitmap) map
  have hstarted : Started map m started := by
    obtain ⟨hstartedFrames, hstartedDescriptor⟩ := hstarted
    rw [hframes, hdescriptor] at hstartedFrames hstartedDescriptor
    exact ⟨hstartedFrames, hstartedDescriptor⟩
  refine ⟨bootstrap, claimed, map, started, hclaimed, hmap, ?_, hstarted,
    guarded_init h.ordered h.answers.words hsuits hrecords hstop hbitmap hheap hstarted⟩
  unfold bringUp
  rw [h.mapped, h.described]
  simp only
  rw [bind_of_ok (lift_of_ok h.standing m), bind_of_ok hclaimed]
  simp only [hmap, Manager.initFrames_eq]
  rw [bind_of_ok hdescribed, bind_of_ok hinit, if_pos rfl]

end

/-- Low memory, some of it reserved, and seven MiB from the first MiB on. -/
def smallRanges : List Range :=
  [⟨0x1000, 0x9E000, kindOfEntry 0⟩, ⟨0x9F000, 0x1000, kindOfEntry 1⟩,
    ⟨0x100000, 0x700000, kindOfEntry 0⟩]

/-- The loader shows memory in the upper half, and the stack ends at 3 MiB. -/
theorem smallRanges_promised : Promised ⟨some smallRanges, some 0xFFFF800000000000, none⟩
    0xFFFF800000300000 smallRanges 0xFFFF800000000000 (some ⟨0x2F0000, 0x300000⟩) where
  described := rfl
  mapped := rfl
  ordered := .of_stops (by decide) (by decide) (by decide)
  standing := by decide +kernel
  visible := by
    intro bytes span hbytes hspan
    have hsize : bootstrapBytes smallRanges = some 65792 := by decide +kernel
    have hchoice : heapSpan smallRanges 65792 (some ⟨0x2F0000, 0x300000⟩)
        = .ok (some ⟨0x7EF000, 0x800000⟩) := by decide +kernel
    rw [hsize] at hbytes
    injection hbytes with hbytes
    rw [← hbytes, hchoice] at hspan
    injection hspan with hspan
    injection hspan with hspan
    rw [← hspan]
    decide

theorem bringUp_guarded_smallRanges :
    Promised ⟨some smallRanges, some 0xFFFF800000000000, none⟩ 0xFFFF800000300000 smallRanges
        0xFFFF800000000000 (some ⟨0x2F0000, 0x300000⟩)
      ∧ (powerOn poolPages).store.frames.bitmap = none
      ∧ (powerOn poolPages).descriptor.heap = none
      ∧ ∃ bootstrap claimed map started,
        claimBootstrapHeap (fun _ _ => true) smallRanges (some ⟨0x2F0000, 0x300000⟩)
            0xFFFF800000000000 (powerOn poolPages) = .ok bootstrap claimed
          ∧ BootMap.ofRecords (bootRecords smallRanges
              (carveOuts (some ⟨0x2F0000, 0x300000⟩) bootstrap)) = .ok map
          ∧ bringUp ⟨some smallRanges, some 0xFFFF800000000000, none⟩ (fun _ _ => true) 0
              0xFFFF800000300000 (powerOn poolPages)
            = startManager ⟨some smallRanges, some 0xFFFF800000000000, none⟩ (fun _ _ => true) 0
                0xFFFF800000000000 map started
          ∧ Started map (powerOn poolPages) started
          ∧ Guarded smallRanges (some ⟨0x2F0000, 0x300000⟩) bootstrap started :=
  ⟨smallRanges_promised, rfl, rfl,
    bringUp_guarded smallRanges_promised rfl rfl (fun _ _ => true) 0⟩

end Boot

end KernelMemory
