/-
  KernelMemory.Proofs.Manager.PageCover — the pages that cover a range of bytes.

  A range is rounded out to pages by its length: the offset of its first byte and its size are added
  and rounded up.  This is the smallest cover there is, but that the length is a word says nothing of
  where the cover ends.  A range that ends in the word has a cover that does, since the word is made
  of whole pages; one that does not is covered beyond the word, and those who go through its pages add
  to addresses until they leave it.

  Main results:
    * `PageCover.eq`, `pageCover_rounded` — the cover, and that there is no other;
    * `mapRangeBy_word`, `mapRangeBy_eq` — mapping a range in the word never adds addresses beyond it;
    * `pageBounds_exact` — what is returned, and who may rely on it;
    * `pageBounds_beyond` — a range that is covered beyond the word.
-/

import KernelMemory.Proofs.Manager.Faults

namespace KernelMemory

open Machine Manager Steps

variable {format : Format} {request : MapRequest} {virt phys size v length : Nat}
  {add : Nat → Nat → Except Fault Nat}

/-! ## The cover -/

/-- The page that an address is in. -/
structure PageOf (address page : Nat) : Prop where
  aligned : page % frameSize = 0
  le : page ≤ address
  lt : address < page + frameSize

theorem pageOf_floor (address : Nat) : PageOf address (floorTo frameSize address) :=
  ⟨floorTo_mod _ _, floorTo_le _ _, lt_floorTo_add (by decide) _⟩

/-- An address is in one page. -/
theorem PageOf.eq {address page : Nat} (h : PageOf address page) :
    page = floorTo frameSize address := by
  obtain ⟨hmod, hle, hlt⟩ := h
  obtain ⟨hmod', hle', hlt'⟩ := pageOf_floor address
  simp only [frameSize] at *
  omega

/-- The smallest whole number of pages, from the page of the first byte on, that cover a range. -/
structure PageCover (virt size v length : Nat) : Prop where
  page : PageOf virt v
  pages : length % frameSize = 0
  covers : virt + size ≤ v + length
  least : ∀ l, l % frameSize = 0 → virt + size ≤ v + l → length ≤ l

/-- The offset in the first page and the size, rounded up. -/
theorem pageCover_rounded (virt size : Nat) : PageCover virt size (floorTo frameSize virt)
    (ceilTo frameSize (virt % frameSize + size)) := by
  have hsplit := floorTo_add_mod frameSize virt
  have hceil := le_ceilTo (show 0 < frameSize by decide) (virt % frameSize + size)
  have hceil' := ceilTo_lt_add (show 0 < frameSize by decide) (virt % frameSize + size)
  have hmod := ceilTo_mod frameSize (virt % frameSize + size)
  generalize ceilTo frameSize (virt % frameSize + size) = length at *
  refine ⟨pageOf_floor virt, hmod, by omega, fun l hl hcovers => ?_⟩
  simp only [frameSize] at *
  omega

/-- A range has one cover. -/
theorem PageCover.eq (h : PageCover virt size v length) :
    v = floorTo frameSize virt ∧ length = ceilTo frameSize (virt % frameSize + size) := by
  have hrounded := pageCover_rounded virt size
  obtain rfl := h.page.eq
  exact ⟨rfl, Nat.le_antisymm (h.least _ hrounded.pages hrounded.covers)
    (hrounded.least _ h.pages h.covers)⟩

/-- The cover ends in the word exactly if the range does. -/
theorem PageCover.end_le_iff (h : PageCover virt size v length) :
    v + length ≤ Word.bound ↔ virt + size ≤ Word.bound := by
  refine ⟨Nat.le_trans h.covers, fun hend => ?_⟩
  -- the word ends with a page, so the pages from `v` to its end cover the range too
  have hbound : Word.bound % frameSize = 0 := by decide
  have hv := h.page.aligned
  have hle := h.page.le
  have hleast := h.least (Word.bound - v) (by simp only [frameSize] at *; omega) (by omega)
  omega

/-- The last page of the cover holds the last byte of the range. -/
theorem PageCover.end_lt (h : PageCover virt size v length) :
    v + length < virt + size + frameSize := by
  obtain ⟨rfl, rfl⟩ := h.eq
  have hsplit := floorTo_add_mod frameSize virt
  have hceil := ceilTo_lt_add (show 0 < frameSize by decide) (virt % frameSize + size)
  omega

/-- The cover is what is returned, if its length is a word. -/
theorem pageBounds_of_cover (h : PageCover virt size v length) (phys : Nat) :
    pageBounds virt phys size
      = if length < Word.bound then some (v, floorTo frameSize phys, length) else none := by
  obtain ⟨rfl, rfl⟩ := h.eq
  exact pageBounds_eq virt phys size

/-- So what is returned is the cover. -/
theorem pageCover_of_bounds {p : Nat} (h : pageBounds virt phys size = some (v, p, length)) :
    PageCover virt size v length := by
  rw [pageBounds_eq] at h
  split at h
  · simp only [Option.some.injEq, Prod.mk.injEq] at h
    obtain ⟨rfl, -, rfl⟩ := h
    exact pageCover_rounded virt size
  · cases h

/-! ## Going through the pages -/

/-- Sums that are words are formed as they should be; nothing is said of the others. -/
def AddsWords (add : Nat → Nat → Except Fault Nat) : Prop :=
  ∀ a b : Nat, a + b < Word.bound → add a b = .ok (a + b)

/-- Sums as the walk forms them; one that is no word stops it. -/
theorem addsWords_word : AddsWords Word.add := fun _ _ h => if_pos h

namespace Walk

/-- `mapPages` with any sum of virtual addresses. -/
def mapPagesBy (add : Nat → Nat → Except Fault Nat) (format : Format) (request : MapRequest) :
    (rounds : Nat) → VirtAddr → PhysAddr → (remaining : Nat) → MapSummary →
      TableSteps MapSummary
  | 0, _, _, _, summary => return summary
  | rounds + 1, virt, phys, remaining, summary => do
    if remaining = 0 then
      return summary
    else
      let (step, advance) ← mapNext format request virt phys remaining
      let summary := summary.record step
      let remaining := remaining - advance
      if remaining = 0 then
        return summary
      else
        let virt ← add virt advance
        let phys ← Word.add phys advance
        mapPagesBy add format request rounds virt phys remaining summary

/-- `mapRange` with any sum of virtual addresses. -/
def mapRangeBy (add : Nat → Nat → Except Fault Nat) (format : Format) (request : MapRequest) :
    TableSteps MapSummary := do
  match pageBounds request.virt request.phys request.size with
  | none => Steps.refuse .addressOutOfRange
  | some (virt, phys, length) =>
    if virt = 0 ∧ 0 < length then
      let phys ← Word.add phys frameSize
      let length := length - frameSize
      mapPagesBy add format request (length / frameSize) frameSize phys length {}
    else
      mapPagesBy add format request (length / frameSize) virt phys length {}

/-- With the sums of the walk these are the walk's. -/
theorem mapPagesBy_word {rounds remaining : Nat} {phys : PhysAddr} {summary : MapSummary} :
    mapPagesBy Word.add format request rounds virt phys remaining summary
      = mapPages format request rounds virt phys remaining summary := by
  induction rounds generalizing virt phys remaining summary with
  | zero => rfl
  | succ rounds ih =>
    rw [mapPagesBy, mapPages]
    split
    · rfl
    · refine bind_congr fun next => ?_
      simp only [ih]

theorem mapRangeBy_word (format : Format) (request : MapRequest) :
    mapRangeBy Word.add format request = mapRange format request := by
  unfold mapRangeBy mapRange
  cases pageBounds request.virt request.phys request.size with
  | none => rfl
  | some bounds => simp only [mapPagesBy_word]

theorem lift_ok_bind {σ α β : Type} (a : α) (f : α → Steps σ β) :
    ((Except.ok a : Except Fault α) : Steps σ α) >>= f = f a := rfl

/-- What is left of a range in the word is mapped whatever other sums are. -/
theorem mapPagesBy_eq (hadd : AddsWords add) : ∀ {rounds virt phys remaining : Nat}
    {summary : MapSummary}, virt + remaining ≤ Word.bound →
      mapPagesBy add format request rounds virt phys remaining summary
        = mapPages format request rounds virt phys remaining summary := by
  intro rounds
  induction rounds with
  | zero => intro virt phys remaining summary _; rfl
  | succ rounds ih =>
    intro virt phys remaining summary hend
    rw [mapPagesBy, mapPages]
    split
    · rfl
    · refine bind_congr fun next => ?_
      obtain ⟨step, advance⟩ := next
      simp only
      split
      · rfl
      · -- pages are left, so the next one starts before the end
        rename_i hleft
        have hnext : virt + advance < Word.bound := by omega
        have hrest : virt + advance + (remaining - advance) ≤ Word.bound := by omega
        rw [hadd virt advance hnext, addsWords_word virt advance hnext, lift_ok_bind, lift_ok_bind]
        exact bind_congr fun _ => ih hrest

/-- Mapping a range that ends in the word forms no virtual address beyond it. -/
theorem mapRangeBy_eq (hadd : AddsWords add) (h : request.virt + request.size ≤ Word.bound) :
    mapRangeBy add format request = mapRange format request := by
  unfold mapRangeBy mapRange
  cases hbounds : pageBounds request.virt request.phys request.size with
  | none => rfl
  | some bounds =>
    obtain ⟨v, p, length⟩ := bounds
    have hcover := pageCover_of_bounds hbounds
    have hend := hcover.end_le_iff.mpr h
    simp only
    split
    · -- without the first page, which is not mapped
      rename_i hzero
      have hpages := hcover.pages
      refine bind_congr fun _ => mapPagesBy_eq hadd ?_
      simp only [frameSize] at *
      omega
    · exact mapPagesBy_eq hadd hend

end Walk

/-! ## What is returned -/

/-- The bounds of a range are the cover of its virtual addresses and the page of its first frame, and
what may be done with them. -/
structure ExactBounds (virt phys size v p length : Nat) : Prop where
  frame : PageOf phys p
  cover : PageCover virt size v length
  bounds : pageBounds virt phys size = if length < Word.bound then some (v, p, length) else none
  fits : v + length ≤ Word.bound ↔ virt + size ≤ Word.bound
  dropped : ∀ (m : Machine) (cpu : CpuId), OverflowsIff (invalidate cpu virt size) m (Overruns virt size)
  mapped : virt + size ≤ Word.bound → ∀ {format : Format} {add : Nat → Nat → Except Fault Nat}
    (request : MapRequest), request.virt = virt → request.size = size → AddsWords add →
      Walk.mapRangeBy add format request = Walk.mapRange format request

/-- The pages of any range are its cover, which is returned if its length is a word.  It is also
returned where it ends beyond the word, as it does exactly for a range that does; for all others,
neither mapping nor dropping its pages adds up to more than a word. -/
theorem pageBounds_exact (virt phys size : Nat) :
    ∃ v p length, ExactBounds virt phys size v p length := by
  have hcover := pageCover_rounded virt size
  refine ⟨_, _, _, pageOf_floor phys, hcover, pageBounds_of_cover hcover phys, hcover.end_le_iff,
    fun m cpu => overflowsIff_invalidate m cpu virt size, fun hend format add request hvirt hsize hadd => ?_⟩
  subst hvirt hsize
  exact Walk.mapRangeBy_eq hadd hend

/-- The last bytes that there are have the last page. -/
theorem pageBounds_exact_lastPage :
    ∃ v p length, ExactBounds 0xfffffffffffff800 0x1800 0x800 v p length
      ∧ (v, p, length) = (0xfffffffffffff000, 0x1000, 0x1000) ∧ v + length = Word.bound := by
  obtain ⟨v, p, length, h⟩ := pageBounds_exact 0xfffffffffffff800 0x1800 0x800
  obtain ⟨rfl, rfl⟩ := h.cover.eq
  obtain rfl := h.frame.eq
  exact ⟨_, _, _, h, by decide, by decide⟩

/-- Two pages from the last one on are returned, too, although the second is beyond the word. -/
theorem pageBounds_beyond :
    pageBounds 0xfffffffffffff000 0 0x2000 = some (0xfffffffffffff000, 0, 0x2000)
      ∧ PageCover 0xfffffffffffff000 0x2000 0xfffffffffffff000 0x2000
      ∧ Word.bound < 0xfffffffffffff000 + 0x2000 :=
  ⟨by decide, pageCover_rounded 0xfffffffffffff000 0x2000, by decide⟩

end KernelMemory
