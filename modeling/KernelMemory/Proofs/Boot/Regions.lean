/-
  KernelMemory.Proofs.Boot.Regions — the regions of a valid boot map.

  The bounds of a region are bases of records.  The records of a map are in address order, so
  its regions are too, and one ends before the next one starts.

  Main results:
    * `ofRecords_eq_ok` — a list with nothing wrong is accepted;
    * `bounds_of_mem`, `region_stop_le` — where a region starts and ends;
    * `regions_apart`, `eq_of_contains` — no two regions have an address in common;
    * `frames_of_mem` — records that start on frames make regions of whole frames.
-/

import Mathlib.Data.List.Pairwise
import KernelMemory.BootMap

namespace KernelMemory

/-- Whether an address belongs to the region. -/
def BootRegion.Contains (region : BootRegion) (address : Nat) : Prop :=
  address ≥ region.base ∧ address < region.stop

/-- Where no two items have an address in common, an address belongs to one at most. -/
theorem eq_of_apart {α : Type} {Has : α → Nat → Prop} {items : List α}
    (h : items.Pairwise fun a b => ∀ address, ¬ (Has a address ∧ Has b address)) {a b : α}
    (ha : a ∈ items) (hb : b ∈ items) {address : Nat} (hin : Has a address)
    (hinOther : Has b address) : a = b := by
  have : Std.Symm fun a b => ∀ address, ¬ (Has a address ∧ Has b address) :=
    ⟨fun a b hnot address hboth => hnot address ⟨hboth.2, hboth.1⟩⟩
  by_contra hne
  exact h.forall ha hb hne address ⟨hin, hinOther⟩

namespace BootMap

variable {region : BootRegion} {map : BootMap}

/-! ## Validation -/

theorem ofRecords_eq_ok {records : List BootRecord} (h : problem records = none) :
    ofRecords records = .ok ⟨records, h⟩ := by
  unfold ofRecords
  split
  · rfl
  · rename_i error herror
    rw [h] at herror
    cases herror

/-! ## Order -/

theorem pairwise_of_firstDescent : ∀ {records : List BootRecord} {index : Nat},
    firstDescent index records = none → records.Pairwise fun a b => a.base ≤ b.base := by
  intro records
  induction records with
  | nil => intro index _; exact .nil
  | cons a rest ih =>
    intro index h
    cases rest with
    | nil => exact List.pairwise_singleton ..
    | cons b rest =>
      rw [firstDescent] at h
      split at h
      · cases h
      · rename_i hle
        have htail := ih h
        refine List.pairwise_cons.mpr ⟨fun c hc => ?_, htail⟩
        have hab : a.base ≤ b.base := Nat.le_of_not_lt hle
        rcases List.mem_cons.mp hc with rfl | hc
        · exact hab
        · exact Nat.le_trans hab ((List.pairwise_cons.mp htail).1 c hc)

/-- The records of a map are in address order. -/
theorem records_sorted (map : BootMap) : map.records.Pairwise fun a b => a.base ≤ b.base := by
  have h := map.valid
  unfold problem at h
  split at h
  · cases h
  · split at h
    · cases h
    · split at h
      · exact pairwise_of_firstDescent (Option.map_eq_none_iff.mp h)
      · cases h

/-! ## Bounds -/

/-- A region is not empty, and runs from the base of a record to the base of a record. -/
theorem bounds_of_mem : ∀ {records : List BootRecord} {region : BootRegion},
    region ∈ regionsOf records → region.base < region.stop
      ∧ (∃ record ∈ records, record.base = region.base)
      ∧ ∃ record ∈ records, record.base = region.stop := by
  intro records
  induction records with
  | nil => intro region h; cases h
  | cons a rest ih =>
    intro region h
    cases rest with
    | nil => cases h
    | cons b rest =>
      -- what was found among the other records
      have hrest : region ∈ regionsOf (b :: rest) → region.base < region.stop
          ∧ (∃ record ∈ a :: b :: rest, record.base = region.base)
          ∧ ∃ record ∈ a :: b :: rest, record.base = region.stop := by
        intro hmem
        obtain ⟨hlt, ⟨first, hfirst, hbase⟩, last, hlast, hstop⟩ := ih hmem
        exact ⟨hlt, ⟨first, List.mem_cons_of_mem a hfirst, hbase⟩,
          last, List.mem_cons_of_mem a hlast, hstop⟩
      rw [regionsOf] at h
      split at h
      · exact hrest h
      · rename_i hsize
        rcases List.mem_cons.mp h with rfl | h
        · have hstop : b.base = a.base + (b.base - a.base) := by omega
          refine ⟨?_, ⟨a, List.mem_cons_self, rfl⟩, b, ?_, hstop⟩
          · show a.base < a.base + (b.base - a.base)
            omega
          · exact List.mem_cons_of_mem a List.mem_cons_self
        · exact hrest h

theorem regionsOf_apart : ∀ {records : List BootRecord},
    (records.Pairwise fun a b => a.base ≤ b.base) →
      (regionsOf records).Pairwise fun r r' => r.stop ≤ r'.base := by
  intro records
  induction records with
  | nil => intro _; exact .nil
  | cons a rest ih =>
    intro h
    cases rest with
    | nil => exact .nil
    | cons b rest =>
      obtain ⟨-, htail⟩ := List.pairwise_cons.mp h
      rw [regionsOf]
      split
      · exact ih htail
      · rename_i hsize
        refine List.pairwise_cons.mpr ⟨fun region hregion => ?_, ih htail⟩
        -- the other regions start at records from the end of this one on
        obtain ⟨-, ⟨record, hrecord, hbase⟩, -⟩ := bounds_of_mem hregion
        have hle : b.base ≤ record.base := by
          rcases List.mem_cons.mp hrecord with rfl | hrecord
          · exact Nat.le_refl _
          · exact (List.pairwise_cons.mp htail).1 record hrecord
        show a.base + (b.base - a.base) ≤ region.base
        omega

/-- The end of a map is not below any of its records. -/
theorem base_le_stop {record : BootRecord} (h : record ∈ map.records) : record.base ≤ map.stop := by
  have hne : map.records ≠ [] := List.ne_nil_of_mem h
  have hlast := map.records.dropLast_concat_getLast hne
  have hsorted := map.records_sorted
  unfold stop
  rw [List.getLast?_eq_some_getLast hne]
  show record.base ≤ (map.records.getLast hne).base
  rw [← hlast] at h hsorted
  rcases List.mem_append.mp h with hfirst | hmem
  · exact (List.pairwise_append.mp hsorted).2.2 record hfirst _ List.mem_cons_self
  · exact Nat.le_of_eq (congrArg BootRecord.base (List.mem_singleton.mp hmem))

/-- Regions end where the map ends, or before. -/
theorem region_stop_le (h : region ∈ map.regions) : region.stop ≤ map.stop := by
  obtain ⟨-, -, last, hlast, hstop⟩ := bounds_of_mem h
  rw [← hstop]
  exact base_le_stop hlast

/-- The regions of a map are in address order, and no two have an address in common. -/
theorem regions_apart (map : BootMap) : map.regions.Pairwise fun r r' => r.stop ≤ r'.base :=
  regionsOf_apart map.records_sorted

/-- An address belongs to one region at most. -/
theorem eq_of_contains {other : BootRegion} {address : Nat} (h : region ∈ map.regions)
    (hother : other ∈ map.regions) (hin : region.Contains address)
    (hinOther : other.Contains address) : other = region := by
  have happart : map.regions.Pairwise fun r r' =>
      ∀ address, ¬ (r.Contains address ∧ r'.Contains address) := by
    refine map.regions_apart.imp fun {r r'} hle => ?_
    intro address hboth
    obtain ⟨⟨-, hstop⟩, hbase, -⟩ := hboth
    omega
  exact eq_of_apart happart hother h hinOther hin

/-- Where all records start on frames, regions are made of whole frames. -/
theorem frames_of_mem (haligned : ∀ record ∈ map.records, record.base % frameSize = 0)
    (h : region ∈ map.regions) : region.base % frameSize = 0 ∧ region.stop % frameSize = 0 := by
  obtain ⟨-, ⟨first, hfirst, hbase⟩, last, hlast, hstop⟩ := bounds_of_mem h
  rw [← hbase, ← hstop]
  exact ⟨haligned first hfirst, haligned last hlast⟩

end BootMap

end KernelMemory
