/-
  KernelMemory.Proofs.Boot.HeapChoice — which span the bootstrap heap gets.

  Each range has one candidate, the whole pages at its top.  It is eligible where the range is free,
  and the candidate does not start before the range or in the first MiB and has no address in common
  with the span to avoid.  The heap gets the last eligible candidate, and nothing only where there
  is none.

  Main results:
    * `candidate_iff`, `suits_iff` — candidates and the choice among them, as the search has them;
    * `heapSpan_last_eligible` — which span is chosen, and when there is none.
-/

import KernelMemory.Proofs.Boot.HeapSpan
import KernelMemory.Proofs.Boot.Records

namespace KernelMemory

namespace Boot

/-! ## Candidates -/

/-- Whether two spans have no address in common. -/
def Span.Apart (a b : Span) : Prop := ∀ address, a.Holds address → ¬ b.Holds address

/-- The candidate of a range: the `size` bytes that end at the last page boundary which is not
beyond the end of the range. -/
structure Candidate (size : Nat) (range : Range) (span : Span) : Prop where
  boundary : span.high % frameSize = 0
  inside : span.high ≤ range.stop
  last : ∀ boundary, boundary % frameSize = 0 → boundary ≤ range.stop → boundary ≤ span.high
  size : span.low + size = span.high

/-- The candidate of a free range, where it does not start before the range or in the first MiB and
has no address in common with the span to avoid. -/
structure Eligible (size : Nat) (avoid : Option Span) (range : Range) (span : Span) : Prop where
  free : range.kind = .free
  candidate : Candidate size range span
  base_le : range.base ≤ span.low
  high_memory : lowMemoryEnd ≤ span.low
  apart : ∀ other ∈ avoid, other.Apart span

theorem le_floorTo {unit n boundary : Nat} (hunit : 0 < unit) (hmod : boundary % unit = 0)
    (hle : boundary ≤ n) : boundary ≤ floorTo unit n := by
  rw [floorTo, ← Nat.div_mul_cancel (Nat.dvd_of_mod_eq_zero hmod)]
  exact Nat.mul_le_mul_right unit ((Nat.le_div_iff_mul_le hunit).mpr
    (by rwa [Nat.div_mul_cancel (Nat.dvd_of_mod_eq_zero hmod)]))

/-- A range has no candidate but the span at its top. -/
theorem candidate_iff {size : Nat} {range : Range} {span : Span} :
    Candidate size range span ↔ size ≤ floorTo frameSize range.stop ∧ span = topSpan size range := by
  constructor
  · intro h
    have hhigh : span.high = floorTo frameSize range.stop :=
      Nat.le_antisymm (le_floorTo (by decide) h.boundary h.inside)
        (h.last _ (floorTo_mod _ _) (floorTo_le _ _))
    have hsize := h.size
    rw [hhigh] at hsize
    refine ⟨hsize ▸ Nat.le_add_left size span.low, ?_⟩
    rw [topSpan, ← hhigh, ← Nat.eq_sub_of_add_eq h.size]
  · rintro ⟨hsize, rfl⟩
    exact ⟨floorTo_mod _ _, floorTo_le _ _, fun _ hmod hle => le_floorTo (by decide) hmod hle,
      Nat.sub_add_cancel hsize⟩

/-- Of spans that are not empty, those overlap that have an address in common. -/
theorem Span.apart_iff {a b : Span} (ha : a.low < a.high) (hb : b.low < b.high) :
    a.Apart b ↔ ¬ a.Overlaps b := by
  constructor
  · intro hapart hoverlaps
    obtain ⟨hab, hba⟩ := hoverlaps
    -- the later of the two starts is in both
    exact hapart (max a.low b.low) ⟨Nat.le_max_left _ _, Nat.max_lt.mpr ⟨ha, hba⟩⟩
      ⟨Nat.le_max_right _ _, Nat.max_lt.mpr ⟨hab, hb⟩⟩
  · intro hnot address hin hin'
    obtain ⟨hlow, hhigh⟩ := hin
    obtain ⟨hlow', hhigh'⟩ := hin'
    exact hnot ⟨Nat.lt_of_le_of_lt hlow hhigh', Nat.lt_of_le_of_lt hlow' hhigh⟩

theorem suits_iff {avoid : Option Span} (havoid : ∀ span ∈ avoid, span.Words) {size : Nat}
    (hsize : 0 < size) {range : Range} :
    Suits size avoid range ↔ ∃ span, Eligible size avoid range span := by
  have hapart : size ≤ floorTo frameSize range.stop → ∀ other ∈ avoid,
      (other.Apart (topSpan size range) ↔ ¬ other.Overlaps (topSpan size range)) := by
    intro hle other hother
    refine Span.apart_iff (havoid other hother).1 ?_
    show floorTo frameSize range.stop - size < floorTo frameSize range.stop
    omega
  constructor
  · rintro ⟨hfree, hle, hlow, hclear⟩
    have hlow := Nat.max_le.mp hlow
    exact ⟨topSpan size range, hfree, candidate_iff.mpr ⟨hle, rfl⟩, hlow.1, hlow.2,
      fun other hother => (hapart hle other hother).mpr (hclear other hother)⟩
  · rintro ⟨span, hfree, hcandidate, hbase, hhigh, hclear⟩
    obtain ⟨hle, rfl⟩ := candidate_iff.mp hcandidate
    exact ⟨hfree, hle, Nat.max_le.mpr ⟨hbase, hhigh⟩,
      fun other hother => (hapart hle other hother).mp (hclear other hother)⟩

/-! ## The last one -/

/-- Where a heap span of `bytes` bytes, in whole pages, comes from. -/
structure LastEligible (ranges : List Range) (bytes : Nat) (avoid : Option Span)
    (found : Option Span) : Prop where
  exists_iff : found.isSome = true
    ↔ ∃ range ∈ ranges, ∃ span, Eligible (ceilTo frameSize bytes) avoid range span
  last : ∀ span ∈ found, ∃ before range after, ranges = before ++ range :: after
    ∧ Eligible (ceilTo frameSize bytes) avoid range span
    ∧ ∀ later ∈ after, ∀ other, ¬ Eligible (ceilTo frameSize bytes) avoid later other
  aligned : ∀ span ∈ found, span.low % frameSize = 0 ∧ span.high % frameSize = 0
  size : ∀ span ∈ found, span.low + ceilTo frameSize bytes = span.high
  inside : ∀ span ∈ found, ∃ range ∈ ranges, range.kind = .free ∧ range.base ≤ span.low
    ∧ span.high ≤ range.base + range.length
  high_memory : ∀ span ∈ found, lowMemoryEnd ≤ span.low
  apart : ∀ span ∈ found, ∀ other ∈ avoid, other.Apart span

/-- What the last range that has an eligible candidate gives, is as the heap is to be. -/
theorem lastEligible_of {ranges : List Range} {bytes : Nat} {avoid found : Option Span}
    (exists_iff : found.isSome = true
      ↔ ∃ range ∈ ranges, ∃ span, Eligible (ceilTo frameSize bytes) avoid range span)
    (last : ∀ span ∈ found, ∃ before range after, ranges = before ++ range :: after
      ∧ Eligible (ceilTo frameSize bytes) avoid range span
      ∧ ∀ later ∈ after, ∀ other, ¬ Eligible (ceilTo frameSize bytes) avoid later other) :
    LastEligible ranges bytes avoid found := by
  have heligible : ∀ span ∈ found, ∃ range ∈ ranges,
      Eligible (ceilTo frameSize bytes) avoid range span := by
    intro span hspan
    obtain ⟨before, range, after, rfl, h, -⟩ := last span hspan
    exact ⟨range, List.mem_append_right _ List.mem_cons_self, h⟩
  refine ⟨exists_iff, last, fun span hspan => ?_, fun span hspan => ?_, fun span hspan => ?_,
    fun span hspan => ?_, fun span hspan => ?_⟩ <;>
    obtain ⟨range, hrange, h⟩ := heligible span hspan
  · have hboundary := h.candidate.boundary
    have hsize := h.candidate.size
    refine ⟨?_, hboundary⟩
    rw [← hsize, ← Nat.add_mod_mod, ceilTo_mod, Nat.add_zero] at hboundary
    exact hboundary
  · exact h.candidate.size
  · exact ⟨range, hrange, h.free, h.base_le,
      Nat.le_trans h.candidate.inside (Nat.min_le_left _ _)⟩
  · exact h.high_memory
  · exact h.apart

/-- The heap gets the candidate of the last range that has an eligible one, and no span only if no
range has.  So it gets whole pages of a free range, above the first MiB and off the span to avoid. -/
theorem heapSpan_last_eligible {avoid : Option Span} (havoid : ∀ span ∈ avoid, span.Words)
    {bytes : Nat} (hpos : 1 ≤ bytes) (hbytes : ceilTo frameSize bytes < Word.bound)
    (ranges : List Range) :
    ∃ found, heapSpan ranges bytes avoid = .ok found ∧ LastEligible ranges bytes avoid found := by
  have hsize : 0 < ceilTo frameSize bytes :=
    Nat.lt_of_lt_of_le hpos (le_ceilTo (by decide) bytes)
  refine ⟨_, heapSpan_eq havoid hbytes ranges, lastEligible_of ?_ fun span hspan => ?_⟩
  · simp only [Option.isSome_map, List.find?_isSome, List.mem_reverse, decide_eq_true_eq,
      suits_iff havoid hsize]
  · obtain ⟨range, hfind, rfl⟩ := Option.map_eq_some_iff.mp hspan
    obtain ⟨hsuits, after, before, hsplit, hafter⟩ := List.find?_eq_some_iff_append.mp hfind
    simp only [decide_eq_true_eq] at hsuits
    -- the search goes backwards, so what it passed over comes after the range
    have hranges : ranges = before.reverse ++ range :: after.reverse := by
      rw [← List.reverse_reverse ranges, hsplit]
      simp
    obtain ⟨span, heligible⟩ := (suits_iff havoid hsize).mp hsuits
    obtain ⟨-, rfl⟩ := candidate_iff.mp heligible.candidate
    refine ⟨before.reverse, range, after.reverse, hranges, heligible, fun later hlater other h => ?_⟩
    have hnot := hafter later (List.mem_reverse.mp hlater)
    simp only [Bool.not_eq_true', decide_eq_false_iff_not] at hnot
    exact hnot ((suits_iff havoid hsize).mpr ⟨other, h⟩)

/-- Memory up to 2 GiB, and a range behind it that ends inside a page. -/
def raggedTop : List Range :=
  [⟨0x1000, 0x9F000, .free⟩, ⟨0x100000, 0x7FEF0000, .free⟩, ⟨0x80000000, 0x1800, .free⟩]

/-- The page at the top of the last range touches the stack, so the heap goes below 2 GiB. -/
theorem heapSpan_last_eligible_raggedTop :
    (∀ span ∈ some (Span.mk 0x80000800 0x80001000), span.Words) ∧ 1 ≤ 0x1001
      ∧ ceilTo frameSize 0x1001 < Word.bound
      ∧ ∃ found, heapSpan raggedTop 0x1001 (some ⟨0x80000800, 0x80001000⟩) = .ok found
        ∧ found = some ⟨0x7FFEE000, 0x7FFF0000⟩
        ∧ LastEligible raggedTop 0x1001 (some ⟨0x80000800, 0x80001000⟩) found := by
  have havoid : ∀ span ∈ some (Span.mk 0x80000800 0x80001000), span.Words := by
    intro span hspan
    cases hspan
    exact ⟨by decide, by decide⟩
  obtain ⟨found, hfound, hlast⟩ :=
    heapSpan_last_eligible havoid (show 1 ≤ 0x1001 by decide) (by decide) raggedTop
  have heq : heapSpan raggedTop 0x1001 (some ⟨0x80000800, 0x80001000⟩)
      = .ok (some ⟨0x7FFEE000, 0x7FFF0000⟩) := by
    rw [heapSpan_eq havoid (by decide)]
    exact congrArg Except.ok (by decide +kernel)
  refine ⟨havoid, by decide, by decide, found, hfound, ?_, hlast⟩
  rw [hfound] at heq
  injection heq

end Boot

end KernelMemory
