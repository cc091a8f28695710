/-
  KernelMemory.Proofs.Boot.ImageRegion — which range is published as the kernel image.

  The records of a range are those from its base to its end, whatever ranges come before and after
  it, and a range that no carve-out touches has one record.  So it becomes one region of the map.
  Of the regions that hold kernel images the first in address order is published.  The boot loader
  gives its modules the same kind as the kernel: a module below the kernel is published instead.

  Main results:
    * `recordsFrom_append` — the records of ranges one after another;
    * `mem_regionsOf_clear` — a range that nothing is split out of is a region;
    * `image?_of_lowest`, `image?_of_lower` — the range with the lowest address is published.
-/

import KernelMemory.Proofs.Boot.BringUp

namespace KernelMemory

namespace BootMap

/-- A record in front takes nothing from the regions behind it. -/
theorem mem_regionsOf_cons {record : BootRecord} {records : List BootRecord} {region : BootRegion}
    (h : region ∈ regionsOf records) : region ∈ regionsOf (record :: records) := by
  cases records with
  | nil => cases h
  | cons next rest =>
    rw [regionsOf]
    split
    · exact h
    · exact List.mem_cons_of_mem _ h

theorem mem_regionsOf_append {front records : List BootRecord} {region : BootRegion}
    (h : region ∈ regionsOf records) : region ∈ regionsOf (front ++ records) := by
  induction front with
  | nil => exact h
  | cons record front ih => exact mem_regionsOf_cons ih

/-- The published kernel image is a region, and no region of its kind is below it. -/
theorem exists_of_image? {map : BootMap} {image : MemoryRegion} (h : map.image? = some image) :
    ∃ region ∈ map.regions, region.kind = .kernelImage ∧ region.region = image
      ∧ ∀ other ∈ map.regions, other.kind = .kernelImage → image.base ≤ other.base := by
  obtain ⟨region, hfind, himage⟩ := Option.map_eq_some_iff.mp h
  obtain ⟨hkind, front, back, hregions, hfront⟩ := List.find?_eq_some_iff_append.mp hfind
  refine ⟨region, List.mem_of_find?_eq_some hfind, beq_iff_eq.mp hkind, himage,
    fun other hother hsame => ?_⟩
  have hsorted := map.regions_apart
  rw [hregions] at hother hsorted
  rw [← himage]
  rcases List.mem_append.mp hother with hmem | hmem
  · have hnot := hfront other hmem
    simp [hsame] at hnot
  · rcases List.mem_cons.mp hmem with rfl | hmem
    · exact Nat.le_refl _
    · have hnext := (List.pairwise_cons.mp (List.pairwise_append.mp hsorted).2.1).1 other hmem
      exact Nat.le_trans (Nat.le_add_right region.base region.size) hnext

end BootMap

namespace Boot

variable {ranges : List Range} {range : Range}

/-! ## Records -/

section

variable {carveOuts : List CarveOut}

/-- The records of ranges one after another: those behind go on where those in front end. -/
theorem recordsFrom_append (carveOuts : List CarveOut) (rest : List Range) :
    ∀ (front : List Range) (stop : Nat), ∃ records,
      recordsFrom carveOuts stop (front ++ rest)
        = records ++ recordsFrom carveOuts (lastStop stop front) rest := by
  intro front
  induction front with
  | nil => intro stop; exact ⟨[], rfl⟩
  | cons range front ih =>
    intro stop
    rw [List.cons_append, recordsFrom, lastStop_cons]
    split
    · exact ih stop
    · obtain ⟨records, heq⟩ := ih (max stop range.stop)
      exact ⟨_, by rw [heq, ← List.append_assoc]⟩

/-- A range that no carve-out touches has one record. -/
theorem carve_clear {kind : RegionKind} {stop cursor : Nat} (hlt : cursor < stop) :
    ∀ {cs : List CarveOut}, (∀ c ∈ cs, stop ≤ c.low ∨ c.high ≤ cursor) →
      carve kind stop cursor cs = [⟨cursor, kind, .none⟩] := by
  intro cs
  induction cs with
  | nil => intro _; rw [carve, if_pos hlt]
  | cons c cs ih =>
    intro hout
    rw [carve, if_pos (hout c List.mem_cons_self)]
    exact ih fun other hother => hout other (List.mem_cons_of_mem c hother)

/-- Whether the range has no address in common with the carve-outs. -/
def Range.Clear (range : Range) (carveOuts : List CarveOut) : Prop :=
  ∀ c ∈ carveOuts, ∀ address, range.Holds address → ¬ c.Holds address

theorem Range.Clear.carve_eq (h : range.Clear carveOuts) (hc : CarveOutsOrdered carveOuts)
    (hlt : range.base < range.stop) :
    carve range.kind range.stop range.base carveOuts = [⟨range.base, range.kind, .none⟩] := by
  refine carve_clear hlt fun c hmem => ?_
  by_contra hin
  rw [not_or] at hin
  have hpos := hc.nonempty c hmem
  -- otherwise both hold the later one of the two bases
  exact h c hmem (max c.low range.base) ⟨by grind, by grind⟩ ⟨by grind, by grind⟩

/-- The ranges before a range that is not empty end before it starts. -/
theorem RangesOrdered.lastStop_le {front rest : List Range}
    (h : RangesOrdered (front ++ range :: rest)) (hpos : range.length ≠ 0) :
    lastStop 0 front ≤ range.base := by
  refine Boot.lastStop_le (Nat.zero_le _) fun other hother => ?_
  by_cases hlength : other.length = 0
  · -- an empty range ends where it starts
    have hsorted := (List.pairwise_append.mp h.sorted).2.2 other hother range List.mem_cons_self
    unfold Range.stop Word.saturatingAdd
    grind
  · have hends := (List.pairwise_append.mp h.ends).2.2 other hother range List.mem_cons_self
    exact Nat.not_lt.mp (hends hlength hpos)

/-- What follows a range that is not empty starts where it ends. -/
theorem tiled_behind {front rest : List Range} (h : RangesOrdered (front ++ range :: rest))
    (hc : CarveOutsOrdered carveOuts) (hpos : range.length ≠ 0) :
    Tiled (Stretch (front ++ range :: rest) carveOuts) (lastStop range.stop rest) range.stop
      (recordsFrom carveOuts range.stop rest) := by
  have hsub : (range :: rest).Sublist (front ++ range :: rest) := List.sublist_append_right ..
  have hbehind := (List.pairwise_cons.mp (h.ends.sublist hsub)).1
  refine tiled_recordsFrom h hc ((List.sublist_cons_self range rest).trans hsub)
    (fun other hother => hbehind other hother hpos) fun other hother hnot address hge hholds => ?_
  obtain ⟨hlow, hhigh⟩ := hholds
  rcases List.mem_append.mp hother with hfront | hmem
  · -- the ranges in front ended before this one
    have hlength : other.length ≠ 0 :=
      fun hzero => Range.not_holds_of_length hzero address ⟨hlow, hhigh⟩
    have hends := (List.pairwise_append.mp h.ends).2.2 other hfront range List.mem_cons_self
    have hstop := Range.not_stop_lt (h.words range (hsub.subset List.mem_cons_self))
    have hle : other.stop ≤ range.base := Nat.not_lt.mp (hends hlength hpos)
    omega
  · rcases List.mem_cons.mp hmem with rfl | hmem
    · omega
    · exact hnot hmem

/-! ## Regions -/

/-- The region of a range that nothing is split out of. -/
def Range.region (range : Range) : BootRegion :=
  ⟨⟨range.base, range.stop - range.base⟩, range.kind, .none⟩

/-- A range that holds an address, and that no carve-out touches, is a region of the map. -/
theorem mem_regionsOf_clear (h : RangesOrdered ranges) (hc : CarveOutsOrdered carveOuts)
    (hrange : range ∈ ranges) (hlt : range.base < range.stop) (clear : range.Clear carveOuts) :
    range.region ∈ BootMap.regionsOf (bootRecords ranges carveOuts) := by
  have hpos : range.length ≠ 0 := fun hzero =>
    Range.not_holds_of_length hzero range.base ⟨Nat.le_refl _, hlt⟩
  obtain ⟨front, rest, rfl⟩ := List.append_of_mem hrange
  obtain ⟨records, heq⟩ := recordsFrom_append carveOuts (range :: rest) front 0
  have hbefore := h.lastStop_le hpos
  have hstop : max (lastStop 0 front) range.stop = range.stop := by grind
  obtain ⟨next, others, hnext, hbase⟩ := (tiled_behind h hc hpos).exists_first
  -- the record of the range, and the one behind it
  have hpair : range.region ∈ BootMap.regionsOf
      (⟨range.base, range.kind, .none⟩ :: next :: others) := by
    rw [BootMap.regionsOf, hbase, if_neg (Nat.sub_ne_zero_of_lt hlt)]
    exact List.mem_cons_self
  rw [bootRecords, heq, recordsFrom, if_neg hpos, hstop, clear.carve_eq hc hlt, hnext]
  refine BootMap.mem_regionsOf_append ?_
  rw [List.append_assoc]
  exact BootMap.mem_regionsOf_append hpair

end

/-! ## The kernel image -/

section

variable {stack bootstrap : Option Span} {map : BootMap}

/-- The lowest of the ranges with kernel images is published, if nothing is split out of it. -/
theorem image?_of_lowest (h : RangesOrdered ranges)
    (hc : CarveOutsOrdered (carveOuts stack bootstrap))
    (hmap : map.records = bootRecords ranges (carveOuts stack bootstrap)) (hrange : range ∈ ranges)
    (hkind : range.kind = .kernelImage) (hlt : range.base < range.stop)
    (clear : range.Clear (carveOuts stack bootstrap))
    (lowest : ∀ other ∈ ranges, other.kind = .kernelImage → other.length ≠ 0 →
      range.base ≤ other.base) :
    map.image? = some range.region.region := by
  have hmem : range.region ∈ map.regions := by
    rw [BootMap.regions, hmap]
    exact mem_regionsOf_clear h hc hrange hlt clear
  have htiled := tiled_bootRecords h hc
  rw [← hmap] at htiled
  cases himage : map.image? with
  | none =>
    have hnone := List.find?_eq_none.mp (Option.map_eq_none_iff.mp himage) _ hmem
    simp [Range.region, hkind] at hnone
  | some image =>
    obtain ⟨region, hregion, hregionKind, rfl, hfirst⟩ := BootMap.exists_of_image? himage
    -- the region lies in one of the ranges, and so not below this one
    have hstretch := htiled.fits hregion
    rw [hregionKind] at hstretch
    obtain ⟨⟨other, hother, hotherKind, hlow, hhigh⟩, -⟩ := hstretch.exists_range (by simp)
      fun c hc => kind_ne_of_mem_carveOuts hc (by simp) (by simp)
    have hnonempty := (BootMap.bounds_of_mem hregion).1
    have hlength : other.length ≠ 0 := fun hzero =>
      Range.not_holds_of_length hzero region.base
        ⟨Nat.not_lt.mp hlow, Nat.lt_of_lt_of_le hnonempty hhigh⟩
    have hge : range.base ≤ region.base :=
      Nat.le_trans (lowest other hother hotherKind hlength) (Nat.not_lt.mp hlow)
    have hle : region.base ≤ range.base := hfirst _ hmem hkind
    have hbase : range.base = region.base := Nat.le_antisymm hge hle
    -- two regions with one base are one
    have hin : range.region.Contains region.base := by
      rw [← hbase]
      exact ⟨Nat.le_refl _, (BootMap.bounds_of_mem hmem).1⟩
    have hsame : range.region = region :=
      BootMap.eq_of_contains hregion hmem ⟨Nat.le_refl _, hnonempty⟩ hin
    rw [hsame]

/-- A range with a kernel image that is below another one keeps that from being published. -/
theorem image?_of_lower (h : RangesOrdered ranges)
    (hc : CarveOutsOrdered (carveOuts stack bootstrap))
    (hmap : map.records = bootRecords ranges (carveOuts stack bootstrap)) {other : Range}
    (hother : other ∈ ranges) (hkind : other.kind = .kernelImage) (hlt : other.base < other.stop)
    (clear : other.Clear (carveOuts stack bootstrap)) (lower : other.base < range.base) :
    map.image?.map MemoryRegion.base ≠ some range.base := by
  intro heq
  obtain ⟨image, himage, hbase⟩ := Option.map_eq_some_iff.mp heq
  obtain ⟨-, -, -, -, hfirst⟩ := BootMap.exists_of_image? himage
  have hmem : other.region ∈ map.regions := by
    rw [BootMap.regions, hmap]
    exact mem_regionsOf_clear h hc hother hlt clear
  have hle : image.base ≤ other.base := hfirst _ hmem hkind
  rw [hbase] at hle
  exact Nat.not_lt.mpr hle lower

end

end Boot

end KernelMemory
