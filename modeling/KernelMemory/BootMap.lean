/-
  KernelMemory.BootMap — the memory map handed over at boot.

  The map is a list of records in address order.  A record's region runs up to the base of
  the next record; the last record is an end marker, whose base is the top of physical
  memory.  A `BootMap` is a list of records together with the fact that nothing is wrong
  with it (`BootMap.problem`).
-/

import KernelMemory.Log
import KernelMemory.Region

namespace KernelMemory

/-! ## Records -/

/-- One record of the map. -/
structure BootRecord where
  base : Nat
  kind : RegionKind
  flags : RegionFlags := RegionFlags.none
  deriving DecidableEq, Repr

namespace BootRecord

/-- The record with the given numeric kind and flags. -/
def ofRaw (base tag flags : Nat) : BootRecord :=
  ⟨base, RegionKind.ofTag tag, RegionFlags.ofBits flags⟩

/-- Technical form of a record. -/
def debug (record : BootRecord) : String :=
  s!"BootRecord \x7b base: {record.base}, kind: {record.kind.name}, flags: {record.flags.debug} \x7d"

end BootRecord

/-- What can be wrong with a list of records. -/
inductive BootMapError where
  | empty
  | missingEndMarker
  /-- The record at `index` starts below the one before it. -/
  | unordered (index : Nat)
  /-- The record at `index` follows an end marker. -/
  | recordAfterEnd (index : Nat)
  deriving DecidableEq, Repr

/-- The text of a map error. -/
def BootMapError.message : BootMapError → String
  | empty => "boot memory map has no records"
  | missingEndMarker => "boot memory map is not terminated by an end marker"
  | unordered index => s!"boot record {index} starts below the record before it"
  | recordAfterEnd index => s!"boot record {index} follows the end marker"

/-- The word a map error goes by. -/
def BootMapError.name : BootMapError → String
  | empty => "Empty"
  | missingEndMarker => "MissingEndMarker"
  | unordered _ => "Unordered"
  | recordAfterEnd _ => "RecordAfterEnd"

/-! ## Regions -/

/-- A region of the map, with what it holds. -/
structure BootRegion where
  region : MemoryRegion
  kind : RegionKind
  flags : RegionFlags
  deriving DecidableEq, Repr

namespace BootRegion

/-- First address of the region. -/
def base (region : BootRegion) : PhysAddr := region.region.base

/-- Number of bytes in the region. -/
def size (region : BootRegion) : Nat := region.region.size

/-- First address after the region. -/
def stop (region : BootRegion) : Nat := region.region.stop

/-- Whether the memory manager maps the region when it starts. -/
def isMapped (region : BootRegion) : Bool := region.kind.isKernelOwned && !region.flags.noMap

/-- Whether the region is mapped with caching disabled. -/
def isUncached (region : BootRegion) : Bool :=
  region.kind == .device || region.flags.uncached

/-- The line that describes the region in the log. -/
def summary (region : BootRegion) : String :=
  s!"  {hex region.base}..{hex region.stop} {region.kind.name} {region.flags.debug} ({Size.text region.size})"

end BootRegion

/-! ## Validation -/

namespace BootMap

/-- Index of the first record that is below its predecessor, the first of `records`
having index `index`. -/
def firstDescent (index : Nat) : List BootRecord → Option Nat
  | a :: b :: rest => if b.base < a.base then some (index + 1) else firstDescent (index + 1) (b :: rest)
  | _ => none

/-- What is wrong with a list of records, if anything: in this order, that it is empty,
that something follows an end marker, that the last record is no end marker, that bases
descend. -/
def problem (records : List BootRecord) : Option BootMapError :=
  match records.getLast? with
  | none => some .empty
  | some last =>
    match records.dropLast.findIdx? (fun record => record.kind == .endMarker) with
    | some index => some (.recordAfterEnd (index + 1))
    | none =>
      if last.kind = .endMarker then (firstDescent 0 records).map .unordered
      else some .missingEndMarker

end BootMap

/-- A list of boot records with nothing wrong. -/
structure BootMap where
  records : List BootRecord
  valid : BootMap.problem records = none

namespace BootMap

/-- The map made of a list of records, or the first thing wrong with the list. -/
def ofRecords (records : List BootRecord) : Except BootMapError BootMap :=
  match h : problem records with
  | none => .ok ⟨records, h⟩
  | some error => .error error

/-- The non-empty regions between neighbouring records. -/
def regionsOf : List BootRecord → List BootRegion
  | a :: b :: rest =>
    if b.base - a.base = 0 then regionsOf (b :: rest)
    else ⟨⟨a.base, b.base - a.base⟩, a.kind, a.flags⟩ :: regionsOf (b :: rest)
  | _ => []

/-- The regions of the map in address order; empty ones are left out. -/
def regions (map : BootMap) : List BootRegion := regionsOf map.records

/-- The top of physical memory. -/
def stop (map : BootMap) : PhysAddr :=
  match map.records.getLast? with
  | some last => last.base
  | none => 0

/-- Number of bytes of free memory. -/
def freeBytes (map : BootMap) : Nat :=
  ((map.regions.filter fun region => region.kind == .free).map BootRegion.size).foldr (· + ·) 0

/-- The records that describe the map in the log. -/
def describe (map : BootMap) : List LogRecord :=
  ⟨.debug, s!"boot memory map, {Size.text map.freeBytes} free:"⟩ ::
    map.regions.map fun region => ⟨.debug, region.summary⟩

end BootMap

end KernelMemory
