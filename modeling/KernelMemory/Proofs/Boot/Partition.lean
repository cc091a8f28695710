/-
  KernelMemory.Proofs.Boot.Partition — how a boot map divides memory.

  The regions of a map follow one another without a gap, from the first record to the end marker.
  What an address holds is what the last record at or below it says, and free bytes are counted
  one by one.

  Main results:
    * `exists_region_iff`, `recordAt_of_contains` — the regions cover the map, record by record;
    * `encard_freeAddresses` — free bytes are free addresses;
    * `ofRecords_partitions` — validation and division together, without an overflow.
-/

import Mathlib.Data.Set.Card
import Mathlib.Order.Interval.Finset.Nat
import KernelMemory.Proofs.Boot.Validation

namespace KernelMemory

namespace BootMap

variable {records : List BootRecord} {map : BootMap} {region : BootRegion}

/-! ## Regions between records -/

/-- The last record of a list at or below an address. -/
def lastAt (records : List BootRecord) (address : Nat) : Option BootRecord :=
  records.reverse.find? fun record => record.base ≤ address

/-- The record that says what an address holds: the last one at or below it. -/
def recordAt (map : BootMap) (address : Nat) : Option BootRecord := lastAt map.records address

theorem lastAt_cons (a : BootRecord) (rest : List BootRecord) (address : Nat) :
    lastAt (a :: rest) address
      = (lastAt rest address).or (if a.base ≤ address then some a else none) := by
  rw [lastAt, List.reverse_cons, List.find?_append, List.find?_singleton]
  simp only [lastAt, decide_eq_true_eq]

theorem lastAt_eq_none {address : Nat} (h : ∀ record ∈ records, address < record.base) :
    lastAt records address = none := by
  rw [lastAt, List.find?_eq_none]
  intro record hrecord
  simpa using h record (List.mem_reverse.mp hrecord)

/-- What an address of a region holds is what the last record at or below it says. -/
theorem lastAt_of_contains {address : Nat} (hsorted : records.Pairwise fun a b => a.base ≤ b.base)
    (hregion : region ∈ regionsOf records) (hin : region.Contains address) :
    ∃ record, lastAt records address = some record
      ∧ region.kind = record.kind ∧ region.flags = record.flags := by
  induction records with
  | nil => cases hregion
  | cons a rest ih =>
    cases rest with
    | nil => cases hregion
    | cons b rest =>
      obtain ⟨hfirst, htail⟩ := List.pairwise_cons.mp hsorted
      have hrest : region ∈ regionsOf (b :: rest) → ∃ record,
          lastAt (a :: b :: rest) address = some record
            ∧ region.kind = record.kind ∧ region.flags = record.flags := by
        intro hmem
        obtain ⟨record, hrecord, hsame⟩ := ih htail hmem
        exact ⟨record, by rw [lastAt_cons, hrecord, Option.some_or], hsame⟩
      rw [regionsOf] at hregion
      split at hregion
      · exact hrest hregion
      · rcases List.mem_cons.mp hregion with rfl | hmem
        · -- the records that follow are all above the region of the first one
          obtain ⟨hbase, hstop⟩ := hin
          have hnone : lastAt (b :: rest) address = none := by
            refine lastAt_eq_none fun record hrecord => ?_
            have hb := hfirst b List.mem_cons_self
            have hle : b.base ≤ record.base := by
              rcases List.mem_cons.mp hrecord with rfl | hrecord
              · exact Nat.le_refl _
              · exact (List.pairwise_cons.mp htail).1 record hrecord
            change address < a.base + (b.base - a.base) at hstop
            omega
          refine ⟨a, ?_, rfl, rfl⟩
          rw [lastAt_cons, hnone, Option.none_or]
          exact if_pos hbase
        · exact hrest hmem

/-- Every address from the first record to the last is in a region, and no other is. -/
theorem exists_mem_regionsOf_iff {a last : BootRecord} {rest : List BootRecord} {address : Nat}
    (hsorted : (a :: rest).Pairwise fun a b => a.base ≤ b.base)
    (hlast : (a :: rest).getLast? = some last) :
    (∃ region ∈ regionsOf (a :: rest), region.Contains address)
      ↔ a.base ≤ address ∧ address < last.base := by
  induction rest generalizing a with
  | nil =>
    cases hlast
    refine ⟨?_, ?_⟩
    · rintro ⟨region, hregion, -⟩
      cases hregion
    · rintro ⟨hle, hlt⟩
      exact absurd hle (Nat.not_le_of_lt hlt)
  | cons b rest ih =>
    obtain ⟨hfirst, htail⟩ := List.pairwise_cons.mp hsorted
    rw [List.getLast?_cons_cons] at hlast
    have hab := hfirst b List.mem_cons_self
    have hbl : b.base ≤ last.base := by
      rcases List.mem_cons.mp (List.mem_of_getLast? hlast) with rfl | hmem
      · exact Nat.le_refl _
      · exact (List.pairwise_cons.mp htail).1 last hmem
    have hrest := ih htail hlast
    rw [regionsOf]
    split
    · -- no region between the first two records
      rename_i hsize
      rw [hrest, show b.base = a.base by omega]
    · rename_i hsize
      have hhead : (BootRegion.mk ⟨a.base, b.base - a.base⟩ a.kind a.flags).Contains address
          ↔ a.base ≤ address ∧ address < b.base := by
        show a.base ≤ address ∧ address < a.base + (b.base - a.base) ↔ _
        omega
      simp only [List.mem_cons, exists_eq_or_imp, hhead, hrest]
      omega

/-- Neighbouring regions touch: the first region of a list of records starts at its first
record. -/
theorem base_of_head?_regionsOf {a : BootRecord} {rest : List BootRecord}
    (hsorted : (a :: rest).Pairwise fun a b => a.base ≤ b.base)
    (h : (regionsOf (a :: rest)).head? = some region) : region.base = a.base := by
  induction rest generalizing a with
  | nil => cases h
  | cons b rest ih =>
    obtain ⟨hfirst, htail⟩ := List.pairwise_cons.mp hsorted
    have hab := hfirst b List.mem_cons_self
    rw [regionsOf] at h
    split at h
    · rename_i hsize
      rw [ih htail h]
      exact Nat.le_antisymm (Nat.le_of_sub_eq_zero hsize) hab
    · cases h
      rfl

theorem isChain_regionsOf (hsorted : records.Pairwise fun a b => a.base ≤ b.base) :
    (regionsOf records).IsChain fun r r' => r.stop = r'.base := by
  induction records with
  | nil => exact .nil
  | cons a rest ih =>
    cases rest with
    | nil => exact .nil
    | cons b rest =>
      obtain ⟨-, htail⟩ := List.pairwise_cons.mp hsorted
      rw [regionsOf]
      split
      · exact ih htail
      · refine List.isChain_cons.mpr ⟨fun next hnext => ?_, ih htail⟩
        rw [base_of_head?_regionsOf htail hnext]
        show a.base + (b.base - a.base) = b.base
        omega

/-! ## Addresses of a map -/

/-- The base of the first record. -/
def start (map : BootMap) : PhysAddr :=
  match map.records.head? with
  | some first => first.base
  | none => 0

theorem accepted (map : BootMap) : Accepted map.records := accepted_of_problem map.valid

theorem exists_region_iff (map : BootMap) (address : Nat) :
    (∃ region ∈ map.regions, region.Contains address)
      ↔ map.start ≤ address ∧ address < map.stop := by
  have haccepted := map.accepted
  obtain ⟨last, hlast⟩ := exists_getLast? haccepted.nonempty
  obtain ⟨a, rest, hrecords⟩ := List.exists_cons_of_ne_nil haccepted.nonempty
  have hsorted := haccepted.sorted
  have hstop : map.stop = last.base := by rw [stop, hlast]
  have hstart : map.start = a.base := by rw [start, hrecords]; rfl
  rw [regions, hstart, hstop]
  rw [hrecords] at hsorted hlast ⊢
  exact exists_mem_regionsOf_iff hsorted hlast

/-- What an address of a region holds is what its record says. -/
theorem recordAt_of_contains {address : Nat} (hregion : region ∈ map.regions)
    (hin : region.Contains address) : ∃ record, map.recordAt address = some record
      ∧ region.kind = record.kind ∧ region.flags = record.flags :=
  lastAt_of_contains map.records_sorted hregion hin

/-- From the end of the map on, the last record is the end marker. -/
theorem kind_of_stop_le {record : BootRecord} {address : Nat} (hle : map.stop ≤ address)
    (h : map.recordAt address = some record) : record.kind = .endMarker := by
  obtain ⟨last, hlast⟩ := exists_getLast? map.accepted.nonempty
  have hpos := List.length_pos_iff.mpr map.accepted.nonempty
  have hkind := (kind_getLast_iff hlast).mpr ((map.accepted.closed _).mpr (by omega))
  rw [stop, hlast] at hle
  obtain ⟨body, hbody⟩ := List.getLast?_eq_some_iff.mp hlast
  rw [recordAt, lastAt, hbody, List.reverse_append, List.reverse_singleton, List.singleton_append,
    List.find?_cons_of_pos (by simpa using hle)] at h
  cases h
  exact hkind

/-- Below the first record no record says anything. -/
theorem recordAt_eq_none {address : Nat} (hlt : address < map.start) :
    map.recordAt address = none := by
  obtain ⟨a, rest, hrecords⟩ := List.exists_cons_of_ne_nil map.accepted.nonempty
  have hsorted := map.records_sorted
  rw [start, hrecords] at hlt
  rw [recordAt, hrecords]
  rw [hrecords] at hsorted
  refine lastAt_eq_none fun record hrecord => ?_
  rcases List.mem_cons.mp hrecord with rfl | hmem
  · exact hlt
  · exact Nat.lt_of_lt_of_le hlt ((List.pairwise_cons.mp hsorted).1 record hmem)

/-- The addresses that are recorded as free. -/
def freeAddresses (map : BootMap) : Set Nat :=
  {address | ∃ record, map.recordAt address = some record ∧ record.kind = .free}

/-- The free addresses are those of the free regions. -/
theorem mem_freeAddresses_iff {address : Nat} : address ∈ map.freeAddresses
    ↔ ∃ region ∈ map.regions.filter fun region => region.kind == .free, region.Contains address := by
  constructor
  · rintro ⟨record, hrecord, hfree⟩
    have hstart : map.start ≤ address := by
      by_contra hlt
      rw [recordAt_eq_none (Nat.lt_of_not_le hlt)] at hrecord
      cases hrecord
    have hstop : address < map.stop := by
      by_contra hge
      rw [kind_of_stop_le (Nat.le_of_not_lt hge) hrecord] at hfree
      cases hfree
    obtain ⟨region, hregion, hin⟩ := (map.exists_region_iff address).mpr ⟨hstart, hstop⟩
    obtain ⟨other, hother, hkind, -⟩ := recordAt_of_contains hregion hin
    rw [hrecord] at hother
    cases hother
    exact ⟨region, List.mem_filter.mpr ⟨hregion, by simp [hkind, hfree]⟩, hin⟩
  · rintro ⟨region, hmem, hin⟩
    obtain ⟨hregion, hfree⟩ := List.mem_filter.mp hmem
    obtain ⟨record, hrecord, hkind, -⟩ := recordAt_of_contains hregion hin
    exact ⟨record, hrecord, by rw [← hkind]; simpa using hfree⟩

/-- Regions in order hold as many addresses as their sizes add up to. -/
theorem encard_contained {regions : List BootRegion}
    (h : regions.Pairwise fun r r' => r.stop ≤ r'.base) :
    {address | ∃ region ∈ regions, region.Contains address}.encard
      = ((regions.map BootRegion.size).foldr (· + ·) 0 : Nat) := by
  induction regions with
  | nil => simp
  | cons region rest ih =>
    obtain ⟨hfirst, hrest⟩ := List.pairwise_cons.mp h
    have hset : {address | ∃ r ∈ region :: rest, r.Contains address}
        = {address | region.Contains address} ∪ {address | ∃ r ∈ rest, r.Contains address} := by
      ext address
      simp
    have hone : {address | region.Contains address}.encard = region.size := by
      have hinterval : {address | region.Contains address}
          = (Finset.Ico region.base region.stop : Set Nat) := by
        ext address
        simp [BootRegion.Contains]
      rw [hinterval, Set.encard_coe_eq_coe_finsetCard, Nat.card_Ico]
      show ((region.base + region.size - region.base : Nat) : ENat) = _
      rw [Nat.add_sub_cancel_left]
    have hapart : Disjoint {address | region.Contains address}
        {address | ∃ r ∈ rest, r.Contains address} := by
      rw [Set.disjoint_left]
      rintro address ⟨-, hstop⟩ ⟨other, hother, hbase, -⟩
      have hle := hfirst other hother
      omega
    rw [hset, Set.encard_union_eq hapart, hone, ih hrest, List.map_cons, List.foldr_cons,
      Nat.cast_add]

/-- Free bytes are the addresses recorded as free. -/
theorem encard_freeAddresses (map : BootMap) : map.freeAddresses.encard = map.freeBytes := by
  have hset : map.freeAddresses = {address | ∃ region ∈
      map.regions.filter fun region => region.kind == .free, region.Contains address} := by
    ext address
    exact mem_freeAddresses_iff
  rw [hset, encard_contained (map.regions_apart.filter _), freeBytes]

/-- There is no more free memory than the map is long. -/
theorem freeBytes_le_stop (map : BootMap) : map.freeBytes ≤ map.stop := by
  have hsubset : map.freeAddresses ⊆ (Finset.range map.stop : Set Nat) := by
    intro address hfree
    obtain ⟨region, hmem, hin⟩ := mem_freeAddresses_iff.mp hfree
    have hbelow := (map.exists_region_iff address).mp ⟨region, (List.mem_filter.mp hmem).1, hin⟩
    simpa using hbelow.2
  have hle := Set.encard_le_encard hsubset
  rw [encard_freeAddresses, Set.encard_coe_eq_coe_finsetCard, Finset.card_range] at hle
  exact_mod_cast hle

/-! ## Arithmetic -/

/-- A sum of sizes that is a word is reached without leaving the words. -/
theorem foldlM_add_eq {sizes : List Nat} {total : Nat}
    (h : total + sizes.foldr (· + ·) 0 < Word.bound) :
    sizes.foldlM Word.add total = .ok (total + sizes.foldr (· + ·) 0) := by
  induction sizes generalizing total with
  | nil => rfl
  | cons size rest ih =>
    rw [List.foldr_cons] at h ⊢
    rw [List.foldlM_cons, Word.add_eq (by omega), ok_bind, ih (by omega), Nat.add_assoc]

theorem checkedFreeBytes_eq (hword : map.stop < Word.bound) :
    map.checkedFreeBytes = .ok map.freeBytes := by
  have hle := Nat.lt_of_le_of_lt map.freeBytes_le_stop hword
  rw [checkedFreeBytes, checkedRegionsOf_eq map.records_sorted, ok_bind]
  rw [freeBytes] at hle ⊢
  show (((map.regions.filter _).map BootRegion.size).foldlM Word.add 0) = _
  rw [foldlM_add_eq (by omega), Nat.zero_add]

/-- The end of a map is the base of one of its records. -/
theorem exists_record_stop (map : BootMap) : ∃ record ∈ map.records, record.base = map.stop := by
  obtain ⟨last, hlast⟩ := exists_getLast? map.accepted.nonempty
  exact ⟨last, List.mem_of_getLast? hlast, by rw [stop, hlast]⟩

/-! ## All of it -/

/-- How the regions of a map divide memory. -/
structure Partitioned (map : BootMap) : Prop where
  nonempty : ∀ region ∈ map.regions, 0 < region.size
  increasing : map.regions.Pairwise fun r r' => r.base < r'.base
  disjoint : map.regions.Pairwise fun r r' => ∀ a, ¬ (r.Contains a ∧ r'.Contains a)
  contiguous : map.regions.IsChain fun r r' => r.stop = r'.base
  covers : ∀ a, (∃ region ∈ map.regions, region.Contains a) ↔ map.start ≤ a ∧ a < map.stop
  recorded : ∀ region ∈ map.regions, ∀ a, region.Contains a →
    ∃ record, map.recordAt a = some record
      ∧ region.kind = record.kind ∧ region.flags = record.flags
  free : map.freeAddresses.encard = map.freeBytes

/-- That reading off regions, their ends, the end of the map and its free bytes stays within the
words. -/
structure WithinWords (map : BootMap) : Prop where
  regions : checkedRegionsOf map.records = .ok map.regions
  stops : ∀ region ∈ map.regions, region.region.checkedStop = .ok region.stop
  stop : map.stop < Word.bound
  freeBytes : map.checkedFreeBytes = .ok map.freeBytes

theorem partitioned (map : BootMap) : Partitioned map where
  nonempty := by
    intro region hregion
    have hlt : region.base < region.base + region.size := (bounds_of_mem hregion).1
    exact Nat.pos_of_lt_add_right hlt
  increasing := map.regions_apart.imp_of_mem fun {r _} hr _ hle =>
    Nat.lt_of_lt_of_le (bounds_of_mem hr).1 hle
  disjoint := by
    refine map.regions_apart.imp fun {r r'} hle => ?_
    rintro a ⟨⟨-, hstop⟩, hbase, -⟩
    omega
  contiguous := isChain_regionsOf map.records_sorted
  covers := map.exists_region_iff
  recorded _ hregion _ hin := recordAt_of_contains hregion hin
  free := map.encard_freeAddresses

theorem withinWords (hwords : ∀ record ∈ map.records, record.base < Word.bound) :
    WithinWords map := by
  have hstop : map.stop < Word.bound := by
    obtain ⟨record, hrecord, hbase⟩ := map.exists_record_stop
    rw [← hbase]
    exact hwords record hrecord
  refine ⟨checkedRegionsOf_eq map.records_sorted, fun region hregion => ?_, hstop,
    checkedFreeBytes_eq hstop⟩
  exact if_pos (Nat.lt_of_le_of_lt (region_stop_le hregion) hstop)

/-- A list of records is accepted exactly where it is a map, and refused for the first reason
that applies otherwise.  The regions of a map divide the addresses from its first record to its
end, each of them as the last record at or below it says.  Nothing overflows on the way. -/
theorem ofRecords_partitions (hlength : records.length < Word.bound)
    (hwords : ∀ record ∈ records, record.base < Word.bound) :
    checkedProblem records = .ok (problem records)
      ∧ ((∃ map, ofRecords records = .ok map) ↔ Accepted records)
      ∧ (∀ error, ofRecords records = .error error ↔ Refused records error)
      ∧ ∀ map, ofRecords records = .ok map →
          map.records = records ∧ Partitioned map ∧ WithinWords map := by
  refine ⟨checkedProblem_eq hlength, exists_ofRecords_iff, fun _ => ofRecords_eq_error_iff, ?_⟩
  intro map hmap
  obtain rfl := records_of_ofRecords hmap
  exact ⟨rfl, map.partitioned, withinWords hwords⟩

/-- Records with a repeated base and a hole that is not mapped, up to the last page of the
address space. -/
def sampleRecords : List BootRecord :=
  [⟨0x800, .reserved, .none⟩, ⟨0x1000, .device, ⟨true, false⟩⟩, ⟨0x1000, .free, .none⟩,
    ⟨0x9000, .bad, ⟨false, true⟩⟩, ⟨0x9FFF, .free, .none⟩, ⟨0xFFFFFFFFFFFFFFFF, .endMarker, .none⟩]

theorem ofRecords_partitions_sample :
    sampleRecords.length < Word.bound ∧ (∀ record ∈ sampleRecords, record.base < Word.bound)
      ∧ checkedProblem sampleRecords = .ok (problem sampleRecords)
      ∧ ((∃ map, ofRecords sampleRecords = .ok map) ↔ Accepted sampleRecords)
      ∧ (∀ error, ofRecords sampleRecords = .error error ↔ Refused sampleRecords error)
      ∧ ∃ map, ofRecords sampleRecords = .ok map ∧ Partitioned map ∧ WithinWords map := by
  have hlength : sampleRecords.length < Word.bound := by decide
  have hwords : ∀ record ∈ sampleRecords, record.base < Word.bound := by decide
  obtain ⟨hproblem, haccepted, hrefused, hmap⟩ := ofRecords_partitions hlength hwords
  have hvalid : problem sampleRecords = none := by decide
  obtain ⟨-, hpartitioned, hwithin⟩ := hmap _ (ofRecords_eq_ok hvalid)
  exact ⟨hlength, hwords, hproblem, haccepted, hrefused, _, ofRecords_eq_ok hvalid, hpartitioned,
    hwithin⟩

end BootMap

end KernelMemory
