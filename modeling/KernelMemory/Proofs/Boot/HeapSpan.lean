/-
  KernelMemory.Proofs.Boot.HeapSpan — the spans that are split out of the ranges: the boot stack
  and the bootstrap heap.

  The heap is put at the top of the last free range that suits it.  Nothing in the choice
  overflows where the size does not, so the choice is a search through the ranges.

  Main results:
    * `stackFrames_bounds` — the boot stack is a span of words;
    * `heapSpan_eq` — the choice as a search;
    * `suits_of_heapSpan` — the span chosen is at the top of a range that suits it.
-/

import KernelMemory.Boot.Ranges

namespace KernelMemory

namespace Boot

/-! ## Spans -/

/-- Whether the span is not empty, and its bounds are words. -/
def Span.Words (span : Span) : Prop := span.low < span.high ∧ span.high < Word.bound

/-- Whether two spans that are not empty have an address in common. -/
def Span.Overlaps (a b : Span) : Prop := a.low < b.high ∧ b.low < a.high

instance (a b : Span) : Decidable (a.Overlaps b) := inferInstanceAs (Decidable (_ ∧ _))

/-- The frames of the boot stack are a span of words. -/
theorem stackFrames_bounds {stackTop offset : Nat} {span : Span}
    (h : stackFrames stackTop offset = .ok (some span)) : span.Words := by
  unfold stackFrames at h
  split at h
  · cases h
  · rename_i top htop
    split at h
    · cases h
    · rename_i bottom hbottom
      obtain ⟨hle, heq⟩ := Word.sub?_eq_some_iff.mp hbottom
      unfold Word.mul at h
      split at h
      · rename_i hword
        injection h with h
        injection h with h
        rw [← h]
        have hlow := floorTo_le frameSize bottom
        have hhigh : top ≤ (top + (frameSize - 1)) / frameSize * frameSize :=
          le_ceilTo (by decide) top
        refine ⟨?_, hword⟩
        show floorTo frameSize bottom < (top + (frameSize - 1)) / frameSize * frameSize
        simp only [stackSize] at hle heq
        omega
      · cases h

/-! ## Candidates -/

/-- The span of `size` bytes that ends at the last page boundary of a range. -/
def topSpan (size : Nat) (range : Range) : Span :=
  ⟨floorTo frameSize range.stop - size, floorTo frameSize range.stop⟩

/-- Whether the heap can be at the top of a range: it is free, and holds the span above the first
MiB and off the span to avoid. -/
def Suits (size : Nat) (avoid : Option Span) (range : Range) : Prop :=
  range.kind = .free ∧ size ≤ floorTo frameSize range.stop
    ∧ max range.base lowMemoryEnd ≤ (topSpan size range).low
    ∧ ∀ span ∈ avoid, ¬ span.Overlaps (topSpan size range)

instance (size : Nat) (avoid : Option Span) (range : Range) : Decidable (Suits size avoid range) :=
  inferInstanceAs (Decidable (_ ∧ _ ∧ _ ∧ _))

/-- The memory of a span. -/
def Span.region (span : Span) : MemoryRegion := ⟨span.low, span.high - span.low⟩

theorem physicalRegion_eq {low high : Nat} (h : low ≤ high) :
    physicalRegion low high = .ok (Span.mk low high).region := by
  unfold physicalRegion Word.sub
  rw [if_pos h]
  rfl

theorem Span.checkedStop_region {span : Span} (h : span.low ≤ span.high)
    (hword : span.high < Word.bound) : span.region.checkedStop = .ok span.high := by
  unfold MemoryRegion.checkedStop Word.add Span.region
  simp only
  rw [Nat.add_sub_cancel' h, if_pos hword]

theorem avoidRegion_eq {avoid : Option Span} (havoid : ∀ span ∈ avoid, span.Words) :
    avoidRegion avoid = .ok (avoid.map Span.region) := by
  cases avoid with
  | none => rfl
  | some span =>
    show (do return some (← physicalRegion span.low span.high)) = _
    rw [physicalRegion_eq (Nat.le_of_lt (havoid span rfl).1)]
    rfl

theorem Range.stop_lt_bound (range : Range) : range.stop < Word.bound := by
  unfold Range.stop Word.saturatingAdd
  have hmax : Word.max < Word.bound := by decide
  omega

/-- Whether a span is clear of the one to avoid. -/
theorem isClear_eq {avoid : Option Span} (havoid : ∀ span ∈ avoid, span.Words) {low high : Nat}
    (h : low ≤ high) (hword : high < Word.bound) :
    isClear (avoid.map Span.region) low high
      = .ok (decide (∀ span ∈ avoid, ¬ span.Overlaps ⟨low, high⟩)) := by
  cases avoid with
  | none => simp [isClear]
  | some span =>
    obtain ⟨hspan, hspanWord⟩ := havoid span rfl
    have hstop := Span.checkedStop_region (Nat.le_of_lt hspan) hspanWord
    have hstop' : (Span.mk low high).region.checkedStop = .ok high :=
      Span.checkedStop_region h hword
    simp only [isClear, Option.map_some, physicalRegion_eq h, MemoryRegion.overlaps, hstop, hstop',
      bind, Except.bind, pure, Except.pure, Option.mem_some_iff, forall_eq', Span.Overlaps]
    by_cases hlow : span.low < high
    · by_cases hhigh : low < span.high
      · simp [Span.region, hlow, hhigh]
      · simp [Span.region, hlow, hhigh]
    · simp [Span.region, hlow]

theorem heapCandidate_eq {avoid : Option Span} (havoid : ∀ span ∈ avoid, span.Words) (size : Nat)
    (range : Range) : heapCandidate size (avoid.map Span.region) range
      = .ok (if Suits size avoid range then some (topSpan size range) else none) := by
  unfold heapCandidate Suits
  by_cases hkind : range.kind = .free
  · by_cases hsize : size ≤ floorTo frameSize range.stop
    · have hword : floorTo frameSize range.stop < Word.bound :=
        Nat.lt_of_le_of_lt (floorTo_le _ _) range.stop_lt_bound
      simp only [hkind, hsize, Word.sub?, if_true, true_and, bind, Except.bind, pure, Except.pure,
        isClear_eq havoid (Nat.sub_le (floorTo frameSize range.stop) size) hword]
      simp [topSpan]
    · simp [hkind, hsize, Word.sub?, pure, Except.pure]
  · simp [hkind, pure, Except.pure]

/-! ## The choice -/

theorem firstCandidate_eq {avoid : Option Span} (havoid : ∀ span ∈ avoid, span.Words) (size : Nat)
    (ranges : List Range) : firstCandidate size (avoid.map Span.region) ranges
      = .ok ((ranges.find? fun range => Suits size avoid range).map (topSpan size)) := by
  induction ranges with
  | nil => rfl
  | cons range rest ih =>
    rw [firstCandidate, heapCandidate_eq havoid, List.find?_cons]
    by_cases h : Suits size avoid range
    · simp [h, bind, Except.bind, pure, Except.pure]
    · simp [h, bind, Except.bind, ih]

/-- The heap is put at the top of the last range that suits it. -/
theorem heapSpan_eq {avoid : Option Span} (havoid : ∀ span ∈ avoid, span.Words) {bytes : Nat}
    (hbytes : ceilTo frameSize bytes < Word.bound) (ranges : List Range) :
    heapSpan ranges bytes avoid
      = .ok ((ranges.reverse.find? fun range => Suits (ceilTo frameSize bytes) avoid range).map
          (topSpan (ceilTo frameSize bytes))) := by
  have hsize : Word.mul ((bytes + (frameSize - 1)) / frameSize) frameSize
      = .ok (ceilTo frameSize bytes) := if_pos hbytes
  unfold heapSpan
  rw [hsize, avoidRegion_eq havoid]
  exact firstCandidate_eq havoid _ _

theorem suits_of_heapSpan {avoid : Option Span} (havoid : ∀ span ∈ avoid, span.Words) {bytes : Nat}
    (hbytes : ceilTo frameSize bytes < Word.bound) {ranges : List Range} {span : Span}
    (h : heapSpan ranges bytes avoid = .ok (some span)) :
    ∃ range ∈ ranges, Suits (ceilTo frameSize bytes) avoid range
      ∧ span = topSpan (ceilTo frameSize bytes) range := by
  rw [heapSpan_eq havoid hbytes] at h
  injection h with h
  obtain ⟨range, hfind, hspan⟩ := Option.map_eq_some_iff.mp h
  have hmem := List.mem_of_find?_eq_some hfind
  have hsuits := List.find?_some hfind
  exact ⟨range, List.mem_reverse.mp hmem, by simpa using hsuits, hspan.symm⟩

end Boot

end KernelMemory
