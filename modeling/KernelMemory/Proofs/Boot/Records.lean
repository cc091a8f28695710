/-
  KernelMemory.Proofs.Boot.Records — boot records keep what every address holds.

  A record carries no length, so one record too many or too few changes what all the memory up
  to the next one is taken for.  Records that start at an address are read as a tiling: each
  runs up to the base of the next, and what it says is true of every address on the way.

  Main results:
    * `Tiled.ofRecords`, `Tiled.exists_region` — a tiling is a valid map, without gaps;
    * `tiled_carve`, `tiled_recordsFrom` — the records of one range, and of all;
    * `bootRecords_classified` — what an address of the map holds.
-/

import KernelMemory.Boot.Ranges
import KernelMemory.Proofs.Boot.Regions

namespace KernelMemory

namespace Boot

/-! ## What an address holds -/

/-- Whether an address is in the range, as far as addresses are words. -/
def Range.Holds (range : Range) (address : Nat) : Prop :=
  address ≥ range.base ∧ address < range.stop

/-- Whether an address is in the span. -/
def Span.Holds (span : Span) (address : Nat) : Prop :=
  address ≥ span.low ∧ address < span.high

/-- Whether an address is in the carve-out. -/
def CarveOut.Holds (carveOut : CarveOut) (address : Nat) : Prop :=
  address ≥ carveOut.low ∧ address < carveOut.high

/-- Ranges as the boot loader gives them: in address order, and no two with an address in common.
They may be empty, or reach beyond the last word. -/
structure RangesOrdered (ranges : List Range) : Prop where
  words : ∀ range ∈ ranges, range.base < Word.bound
  sorted : ranges.Pairwise fun a b => a.base ≤ b.base
  apart : ranges.Pairwise fun a b => ∀ address, ¬ (a.Holds address ∧ b.Holds address)
  kinds : ∀ range ∈ ranges, range.kind ≠ .endMarker

/-- Carve-outs that can be split out of ranges: none is empty, they are in address order, and no
two have an address in common. -/
structure CarveOutsOrdered (carveOuts : List CarveOut) : Prop where
  nonempty : ∀ c ∈ carveOuts, c.low < c.high
  sorted : carveOuts.Pairwise fun a b => a.low ≤ b.low
  apart : carveOuts.Pairwise fun a b => ∀ address, ¬ (a.Holds address ∧ b.Holds address)
  kinds : ∀ c ∈ carveOuts, c.kind ≠ .endMarker

/-- What an address is to be recorded as: what the carve-out says that it is in, if that is in a
range; otherwise what the range says; and reserved memory outside all ranges. -/
inductive Classified (ranges : List Range) (carveOuts : List CarveOut) (address : Nat) :
    RegionKind → Prop where
  | carved {range : Range} {c : CarveOut} (listed : range ∈ ranges) (holds : range.Holds address)
      (split : c ∈ carveOuts) (inside : c.Holds address) :
      Classified ranges carveOuts address c.kind
  | plain {range : Range} (listed : range ∈ ranges) (holds : range.Holds address)
      (clear : ∀ c ∈ carveOuts, ¬ c.Holds address) : Classified ranges carveOuts address range.kind
  | hole (clear : ∀ range ∈ ranges, ¬ range.Holds address) :
      Classified ranges carveOuts address .reserved

/-- The end of the last range that is not empty; `stop` if there is none, or if that is later. -/
def lastStop (stop : Nat) (ranges : List Range) : Nat :=
  ((ranges.filter fun range => range.length ≠ 0).map Range.stop).foldl max stop

/-! ## Tilings -/

/-- Records from `low` on, closed by an end marker at `final`, of which `Fits` holds of each
stretch that is not empty. -/
inductive Tiled (Fits : Nat → Nat → RegionKind → Prop) (final : Nat) :
    Nat → List BootRecord → Prop where
  | done : Tiled Fits final final [⟨final, .endMarker, .none⟩]
  | piece {low high : Nat} {kind : RegionKind} {records : List BootRecord} (le : low ≤ high)
      (open_ : kind ≠ .endMarker) (fits : low < high → Fits low high kind)
      (rest : Tiled Fits final high records) : Tiled Fits final low (⟨low, kind, .none⟩ :: records)

section

variable {Fits : Nat → Nat → RegionKind → Prop} {final low : Nat} {records : List BootRecord}
  {region : BootRegion}

theorem Tiled.exists_first (h : Tiled Fits final low records) :
    ∃ first rest, records = first :: rest ∧ first.base = low := by
  cases h with
  | done => exact ⟨_, _, rfl, rfl⟩
  | piece le open_ fits rest => exact ⟨_, _, rfl, rfl⟩

theorem Tiled.firstDescent (h : Tiled Fits final low records) (index : Nat) :
    BootMap.firstDescent index records = none := by
  induction h generalizing index with
  | done => rfl
  | @piece low high kind records le open_ fits rest ih =>
    obtain ⟨first, others, rfl, hbase⟩ := rest.exists_first
    rw [BootMap.firstDescent, if_neg, ih]
    show ¬ first.base < low
    omega

theorem Tiled.getLast? (h : Tiled Fits final low records) :
    records.getLast? = some ⟨final, .endMarker, .none⟩ := by
  induction h with
  | done => rfl
  | piece le open_ fits rest ih =>
    obtain ⟨first, others, rfl, -⟩ := rest.exists_first
    rw [List.getLast?_cons_cons]
    exact ih

theorem Tiled.findIdx? (h : Tiled Fits final low records) :
    records.dropLast.findIdx? (fun record => record.kind == .endMarker) = none := by
  induction h with
  | done => rfl
  | piece le open_ fits rest ih =>
    obtain ⟨first, others, rfl, -⟩ := rest.exists_first
    rw [List.dropLast_cons_cons, List.findIdx?_cons, ih]
    simpa using open_

/-- Nothing is wrong with a tiling, and it ends where it is to end. -/
theorem Tiled.ofRecords (h : Tiled Fits final low records) :
    ∃ map, BootMap.ofRecords records = .ok map ∧ map.records = records ∧ map.stop = final := by
  have hproblem : BootMap.problem records = none := by
    unfold BootMap.problem
    rw [h.getLast?, h.findIdx?]
    simp [h.firstDescent 0]
  refine ⟨_, BootMap.ofRecords_eq_ok hproblem, rfl, ?_⟩
  unfold BootMap.stop
  rw [h.getLast?]

/-- What is said of the stretches of a tiling holds of its regions. -/
theorem Tiled.fits (h : Tiled Fits final low records)
    (hregion : region ∈ BootMap.regionsOf records) :
    Fits region.base region.stop region.kind := by
  induction h with
  | done => cases hregion
  | @piece low high kind records le open_ fits rest ih =>
    obtain ⟨first, others, rfl, hbase⟩ := rest.exists_first
    rw [BootMap.regionsOf] at hregion
    split at hregion
    · exact ih hregion
    · rename_i hsize
      rcases List.mem_cons.mp hregion with rfl | hregion
      · have hstop : low + (first.base - low) = high := by
          simp only at hsize
          omega
        show Fits low (low + (first.base - low)) kind
        rw [hstop]
        apply fits
        simp only at hsize
        omega
      · exact ih hregion

/-- Every address of a tiling is in a region. -/
theorem Tiled.exists_region (h : Tiled Fits final low records) {address : Nat} (hle : low ≤ address)
    (hlt : address < final) : ∃ region ∈ BootMap.regionsOf records, region.Contains address := by
  induction h with
  | done => omega
  | @piece low high kind records le open_ fits rest ih =>
    obtain ⟨first, others, rfl, hbase⟩ := rest.exists_first
    rw [BootMap.regionsOf]
    -- the address is in the first stretch, or further on
    by_cases hin : address < high
    · rw [if_neg (by simp only; omega)]
      refine ⟨_, List.mem_cons_self, hle, ?_⟩
      show address < low + (first.base - low)
      omega
    · obtain ⟨region, hregion, hcontains⟩ := ih (by omega)
      split
      · exact ⟨region, hregion, hcontains⟩
      · exact ⟨region, List.mem_cons_of_mem _ hregion, hcontains⟩

end

/-! ## The records of ranges -/

/-- What is true of a stretch of records: all its addresses hold the same, and none of them is in
another range. -/
inductive Stretch (ranges : List Range) (carveOuts : List CarveOut) (low high : Nat) :
    RegionKind → Prop where
  | carved {range : Range} {c : CarveOut} (listed : range ∈ ranges) (first : ¬ low < range.base)
      (last : high ≤ range.stop) (split : c ∈ carveOuts) (opens : ¬ low < c.low)
      (closes : high ≤ c.high) : Stretch ranges carveOuts low high c.kind
  | plain {range : Range} (listed : range ∈ ranges) (first : ¬ low < range.base)
      (last : high ≤ range.stop)
      (clear : ∀ c ∈ carveOuts, ∀ address, low ≤ address → address < high → ¬ c.Holds address) :
      Stretch ranges carveOuts low high range.kind
  | hole (clear : ∀ range ∈ ranges, ∀ address, low ≤ address → address < high →
      ¬ range.Holds address) : Stretch ranges carveOuts low high .reserved

section

variable {ranges : List Range} {carveOuts : List CarveOut} {low high final : Nat}
  {kind : RegionKind}

theorem Stretch.classified (h : Stretch ranges carveOuts low high kind) {address : Nat}
    (hle : low ≤ address) (hlt : address < high) : Classified ranges carveOuts address kind := by
  cases h with
  | carved listed first last split opens closes =>
    exact .carved listed ⟨by omega, by omega⟩ split ⟨by omega, by omega⟩
  | plain listed first last clear =>
    exact .plain listed ⟨by omega, by omega⟩ fun c hc => clear c hc address hle hlt
  | hole clear => exact .hole fun range hrange => clear range hrange address hle hlt

/-- Of two carve-outs in order, the first ends before the second starts. -/
theorem CarveOutsOrdered.ends (h : CarveOutsOrdered carveOuts) :
    carveOuts.Pairwise fun a b => ¬ b.low < a.high := by
  have hboth := h.sorted.and h.apart
  refine hboth.imp_of_mem fun {a b} ha hb hab => ?_
  obtain ⟨hle, hapart⟩ := hab
  intro hlt
  -- otherwise both have the start of the second
  have hpos := h.nonempty b hb
  exact hapart b.low ⟨⟨hle, hlt⟩, Nat.le_refl _, hpos⟩

theorem Range.not_stop_lt {range : Range} (h : range.base < Word.bound) :
    ¬ range.stop < range.base := by
  intro hlt
  unfold Range.stop Word.saturatingAdd at hlt
  have hword : range.base < Word.max + 1 := h
  grind

/-- Ranges of which each ends before the later ones start. -/
theorem RangesOrdered.of_stops (words : ∀ range ∈ ranges, range.base < Word.bound)
    (stops : ranges.Pairwise fun a b => a.stop ≤ b.base)
    (kinds : ∀ range ∈ ranges, range.kind ≠ .endMarker) : RangesOrdered ranges where
  words := words
  sorted := stops.imp_of_mem fun ha _ hle =>
    Nat.le_trans (Nat.not_lt.mp (Range.not_stop_lt (words _ ha))) hle
  apart := stops.imp fun hle _ hboth =>
    absurd (Nat.lt_of_lt_of_le hboth.1.2 hle) (Nat.not_lt.mpr hboth.2.1)
  kinds := kinds

/-- Of two ranges in order that are not empty, the first ends before the second starts. -/
theorem RangesOrdered.ends (h : RangesOrdered ranges) :
    ranges.Pairwise fun a b => a.length ≠ 0 → b.length ≠ 0 → ¬ b.base < a.stop := by
  have hboth := h.sorted.and h.apart
  refine hboth.imp_of_mem fun {a b} ha hb hab hlength hlength' hlt => ?_
  obtain ⟨hle, hapart⟩ := hab
  have hword : b.base < Word.max + 1 := h.words b hb
  refine hapart b.base ⟨⟨hle, hlt⟩, Nat.le_refl _, ?_⟩
  -- a range that starts at the last word holds nothing, and nothing ends behind it
  unfold Range.stop Word.saturatingAdd at hlt ⊢
  grind

/-- What is left of a range from `cursor` on has no address in common with the carve-outs that
are not to come. -/
def Passed (carveOuts cs : List CarveOut) (cursor stop : Nat) : Prop :=
  ∀ c ∈ carveOuts, c ∉ cs → ∀ address, cursor ≤ address → address < stop → ¬ c.Holds address

theorem Passed.next {c : CarveOut} {cs : List CarveOut} {cursor next stop : Nat}
    (h : Passed carveOuts (c :: cs) cursor stop) (hle : cursor ≤ next)
    (hclear : ∀ address, next ≤ address → address < stop → ¬ c.Holds address) :
    Passed carveOuts cs next stop := by
  intro c' hc' hnot address hge hlt
  by_cases heq : c' = c
  · rw [heq]
    exact hclear address hge hlt
  · exact h c' hc' (by simp [heq, hnot]) address (Nat.le_trans hle hge) hlt

/-- Before the next carve-out there is none. -/
theorem Passed.clear {c : CarveOut} {cs : List CarveOut} {cursor stop : Nat}
    (h : Passed carveOuts (c :: cs) cursor stop) (hlater : ∀ c' ∈ cs, ¬ c'.low < c.low)
    (hstart : c.low < stop) (c' : CarveOut) (hc' : c' ∈ carveOuts) (address : Nat)
    (hge : cursor ≤ address) (hlt : address < c.low) : ¬ c'.Holds address := by
  by_cases hmem : c' ∈ c :: cs
  · intro hholds
    obtain ⟨hlow, -⟩ := hholds
    rcases List.mem_cons.mp hmem with heq | hmem
    · rw [heq] at hlow
      omega
    · have hbehind := hlater c' hmem
      grind
  · exact h c' hc' hmem address hge (Nat.lt_trans hlt hstart)

/-- The records of a range, from `cursor` on, are a tiling where those behind it are. -/
theorem tiled_carve {range : Range} {rest : List BootRecord} (h : CarveOutsOrdered carveOuts)
    (listed : range ∈ ranges) (open_ : range.kind ≠ .endMarker)
    (hrest : Tiled (Stretch ranges carveOuts) final range.stop rest) :
    ∀ {cs : List CarveOut} {cursor : Nat}, cs.Sublist carveOuts →
      Passed carveOuts cs cursor range.stop → ¬ cursor < range.base → cursor ≤ range.stop →
        Tiled (Stretch ranges carveOuts) final cursor
          (carve range.kind range.stop cursor cs ++ rest) := by
  intro cs
  induction cs with
  | nil =>
    intro cursor _ hpassed hbase hle
    rw [carve]
    split
    · refine .piece hle open_ (fun _ => ?_) hrest
      exact .plain listed hbase (Nat.le_refl _) fun c hc => hpassed c hc List.not_mem_nil
    · have heq : cursor = range.stop := by omega
      rw [heq]
      exact hrest
  | cons c cs ih =>
    intro cursor hsub hpassed hbase hle
    have hc : c ∈ carveOuts := hsub.subset List.mem_cons_self
    have hsub' : cs.Sublist carveOuts := (List.sublist_cons_self c cs).trans hsub
    have hpos : c.low < c.high := h.nonempty c hc
    have hbehind : ∀ c' ∈ cs, ¬ c'.low < c.high :=
      (List.pairwise_cons.mp (h.ends.sublist hsub)).1
    rw [carve]
    split
    · -- the carve-out is not in what is left of the range
      rename_i hout
      refine ih hsub' (hpassed.next (Nat.le_refl _) fun address hge hlt hholds => ?_) hbase hle
      obtain ⟨hlow, hhigh⟩ := hholds
      grind
    · rename_i hin
      rw [not_or] at hin
      have hstart : c.low < range.stop := Nat.lt_of_not_le hin.1
      have hend : cursor < c.high := Nat.lt_of_not_le hin.2
      have hnext : Tiled (Stretch ranges carveOuts) final (min c.high range.stop)
          (carve range.kind range.stop (min c.high range.stop) cs ++ rest) := by
        refine ih hsub' (hpassed.next (by grind) fun address hge hlt hholds => ?_)
          (by grind) (by grind)
        obtain ⟨-, hhigh⟩ := hholds
        grind
      have hcarved : Tiled (Stretch ranges carveOuts) final (max c.low cursor)
          (⟨max c.low cursor, c.kind, .none⟩ ::
            (carve range.kind range.stop (min c.high range.stop) cs ++ rest)) := by
        refine .piece (by grind) (h.kinds c hc) (fun _ => ?_) hnext
        exact .carved listed (by grind) (by grind) hc (by grind) (by grind)
      by_cases hbefore : cursor < c.low
      · have heq : max c.low cursor = c.low := by grind
        rw [heq] at hcarved
        simp only [if_pos hbefore, heq]
        refine .piece (by grind) open_ (fun _ => ?_) hcarved
        refine .plain listed hbase (by grind) (hpassed.clear (fun c' hc' => ?_) hstart)
        have hlater := hbehind c' hc'
        grind
      · have heq : max c.low cursor = cursor := by grind
        rw [heq] at hcarved
        simp only [if_neg hbefore, List.nil_append, heq]
        exact hcarved

theorem lastStop_cons (stop : Nat) (range : Range) (rest : List Range) :
    lastStop stop (range :: rest)
      = if range.length = 0 then lastStop stop rest
        else lastStop (max stop range.stop) rest := by
  unfold lastStop
  rw [List.filter_cons]
  by_cases h : range.length = 0
  · simp [h]
  · simp [h]

/-- An empty range holds nothing. -/
theorem Range.not_holds_of_length {range : Range} (h : range.length = 0) (address : Nat) :
    ¬ range.Holds address := by
  intro hholds
  obtain ⟨hge, hlt⟩ := hholds
  unfold Range.stop Word.saturatingAdd at hlt
  rw [h] at hlt
  grind

/-- The records of the ranges that are left, where those before end at `stop`, are a tiling. -/
theorem tiled_recordsFrom (h : RangesOrdered ranges) (hc : CarveOutsOrdered carveOuts) :
    ∀ {rest : List Range} {stop : Nat}, rest.Sublist ranges →
      (∀ range ∈ rest, range.length ≠ 0 → ¬ range.base < stop) →
      (∀ range ∈ ranges, range ∉ rest → ∀ address, stop ≤ address → ¬ range.Holds address) →
        Tiled (Stretch ranges carveOuts) (lastStop stop rest) stop
          (recordsFrom carveOuts stop rest) := by
  intro rest
  induction rest with
  | nil => intro stop _ _ _; exact .done
  | cons range rest ih =>
    intro stop hsub hahead hdone
    have hlisted : range ∈ ranges := hsub.subset List.mem_cons_self
    have hsub' : rest.Sublist ranges := (List.sublist_cons_self range rest).trans hsub
    have hstop := Range.not_stop_lt (h.words range hlisted)
    rw [recordsFrom, lastStop_cons]
    by_cases hlength : range.length = 0
    · rw [if_pos hlength, if_pos hlength]
      refine ih hsub' (fun other hother => hahead other (List.mem_cons_of_mem _ hother)) ?_
      intro other hother hnot address hge
      by_cases heq : other = range
      · rw [heq]
        exact Range.not_holds_of_length hlength address
      · exact hdone other hother (by simp [heq, hnot]) address hge
    · rw [if_neg hlength, if_neg hlength]
      have hbase : ¬ range.base < stop := hahead range List.mem_cons_self hlength
      have hmax : max stop range.stop = range.stop := by grind
      rw [hmax]
      have hbehind := (List.pairwise_cons.mp (h.ends.sublist hsub)).1
      -- what follows starts where the range ends
      have hrest : Tiled (Stretch ranges carveOuts) (lastStop range.stop rest) range.stop
          (recordsFrom carveOuts range.stop rest) := by
        refine ih hsub' (fun other hother => hbehind other hother hlength) ?_
        intro other hother hnot address hge
        by_cases heq : other = range
        · rw [heq]
          intro hholds
          obtain ⟨-, hlt⟩ := hholds
          omega
        · exact hdone other hother (by simp [heq, hnot]) address (by grind)
      have hrange := tiled_carve hc hlisted (h.kinds range hlisted) hrest (List.Sublist.refl _)
        (fun c hc hnot => absurd hc hnot) (Nat.lt_irrefl _) (Nat.le_of_not_lt hstop)
      by_cases hhole : stop < range.base
      · simp only [if_pos hhole, List.cons_append, List.nil_append]
        refine .piece (Nat.le_of_lt hhole) (by simp) (fun _ => .hole ?_) hrange
        -- the ranges before have ended, and those from this one on have not started
        intro other hother address hge hlt hholds
        by_cases hmem : other ∈ range :: rest
        · have hother_base : ¬ other.base < range.base := by
            rcases List.mem_cons.mp hmem with heq | hmem
            · rw [heq]
              exact Nat.lt_irrefl _
            · exact Nat.not_lt.mpr ((List.pairwise_cons.mp (h.sorted.sublist hsub)).1 other hmem)
          obtain ⟨hholds, -⟩ := hholds
          grind
        · exact hdone other hother hmem address hge hholds
      · have heq : range.base = stop := by grind
        simp only [if_neg hhole, List.nil_append]
        rwa [heq] at hrange ⊢

/-- The boot records are a tiling from address zero to the end of the last range. -/
theorem tiled_bootRecords (h : RangesOrdered ranges) (hc : CarveOutsOrdered carveOuts) :
    Tiled (Stretch ranges carveOuts) (lastStop 0 ranges) 0 (bootRecords ranges carveOuts) :=
  tiled_recordsFrom h hc (List.Sublist.refl _) (fun _ _ _ => Nat.not_lt_zero _)
    fun _ hrange hnot => absurd hrange hnot

/-! ## Classification -/

/-- An address is to be recorded as one kind only. -/
theorem Classified.unique (hr : RangesOrdered ranges) (hc : CarveOutsOrdered carveOuts)
    {address : Nat} {other : RegionKind} (h : Classified ranges carveOuts address kind)
    (hother : Classified ranges carveOuts address other) : kind = other := by
  cases h with
  | carved listed holds split inside =>
    cases hother with
    | carved _ _ split' inside' => rw [eq_of_apart hc.apart split split' inside inside']
    | plain _ _ clear => exact absurd inside (clear _ split)
    | hole clear => exact absurd holds (clear _ listed)
  | plain listed holds clear =>
    cases hother with
    | carved _ _ split inside => exact absurd inside (clear _ split)
    | plain listed' holds' => rw [eq_of_apart hr.apart listed listed' holds holds']
    | hole clear' => exact absurd holds (clear' _ listed)
  | hole clear =>
    cases hother with
    | carved listed holds => exact absurd holds (clear _ listed)
    | plain listed holds => exact absurd holds (clear _ listed)
    | hole => rfl

/-- The boot records are a valid map.  It ends where the last range does, and below that each
address is in one region, of the kind that the address is to be recorded as. -/
theorem bootRecords_classified (hr : RangesOrdered ranges) (hc : CarveOutsOrdered carveOuts) :
    ∃ map, BootMap.ofRecords (bootRecords ranges carveOuts) = .ok map
      ∧ map.stop = lastStop 0 ranges
      ∧ ∀ address < map.stop, ∃ region ∈ map.regions, region.Contains address
          ∧ (∀ other ∈ map.regions, other.Contains address → other = region)
          ∧ ∀ kind, Classified ranges carveOuts address kind ↔ kind = region.kind := by
  have htiled := tiled_bootRecords hr hc
  obtain ⟨map, hmap, hrecords, hstop⟩ := htiled.ofRecords
  refine ⟨map, hmap, hstop, fun address haddress => ?_⟩
  rw [← hrecords] at htiled
  obtain ⟨region, hregion, hcontains⟩ :=
    htiled.exists_region (Nat.zero_le address) (hstop ▸ haddress)
  have hclassified : Classified ranges carveOuts address region.kind :=
    (htiled.fits hregion).classified hcontains.1 hcontains.2
  refine ⟨region, hregion, hcontains, fun other hother hin => ?_, fun kind => ⟨?_, ?_⟩⟩
  · exact BootMap.eq_of_contains hregion hother hcontains hin
  · exact fun hkind => hkind.unique hr hc hclassified
  · intro heq
    rw [heq]
    exact hclassified

end

/-- Four ranges with a hole between them, one of them empty and one that reaches beyond the last
word. -/
def sampleRanges : List Range :=
  [⟨0x1000, 0x4000, .free⟩, ⟨0x5000, 0, .reserved⟩, ⟨0x6000, 0x2000, .acpiNvs⟩,
    ⟨0xFFFFFFFFFFFFF000, 0x2000, .device⟩]

/-- A carve-out inside a range, and one that leaves it, spans a hole and reaches into the next. -/
def sampleCarveOuts : List CarveOut :=
  [⟨0x2000, 0x3000, .kernelStack⟩, ⟨0x4000, 0x7000, .bootReclaimable⟩]

theorem sampleRanges_ordered : RangesOrdered sampleRanges :=
  .of_stops (by decide) (by decide) (by decide)

theorem sampleCarveOuts_ordered : CarveOutsOrdered sampleCarveOuts where
  nonempty := by decide
  sorted := by decide
  apart := by
    simp only [sampleCarveOuts, List.pairwise_cons, List.mem_cons, List.not_mem_nil, or_false,
      forall_eq, CarveOut.Holds]
    refine ⟨?_, ?_⟩
    · intro address
      omega
    · simp
  kinds := by decide

theorem bootRecords_classified_sample :
    RangesOrdered sampleRanges ∧ CarveOutsOrdered sampleCarveOuts
      ∧ ∃ map, BootMap.ofRecords (bootRecords sampleRanges sampleCarveOuts) = .ok map
      ∧ map.stop = lastStop 0 sampleRanges
      ∧ ∀ address < map.stop, ∃ region ∈ map.regions, region.Contains address
          ∧ (∀ other ∈ map.regions, other.Contains address → other = region)
          ∧ ∀ kind, Classified sampleRanges sampleCarveOuts address kind ↔ kind = region.kind :=
  ⟨sampleRanges_ordered, sampleCarveOuts_ordered,
    bootRecords_classified sampleRanges_ordered sampleCarveOuts_ordered⟩

end Boot

end KernelMemory
