/-
  KernelMemory.BootMap.Checked — the boot map with every step of arithmetic checked.

  Validation, regions and totals of `BootMap` are written on numbers that neither overflow nor
  run short.  These are the same on machine words: every index, size and sum is one that can
  fail.
-/

import KernelMemory.Frames.Checked

namespace KernelMemory

namespace BootMap

/-- Index of the first item for which `test` holds, the first of `items` having index `index`. -/
def checkedPosition {α : Type} (test : α → Bool) : (items : List α) → (index : Nat) →
    Except Fault (Option Nat)
  | [], _ => .ok none
  | item :: rest, index =>
    if test item then .ok (some index) else do checkedPosition test rest (← Word.add index 1)

/-- Whether the second record of a pair is below the first. -/
def descends (pair : BootRecord × BootRecord) : Bool := decide (pair.2.base < pair.1.base)

/-- `problem`. -/
def checkedProblem (records : List BootRecord) : Except Fault (Option BootMapError) :=
  match records.getLast? with
  | none => .ok (some .empty)
  | some last => do
    match ← checkedPosition (fun record => record.kind == .endMarker) records.dropLast 0 with
    | some index => return some (.recordAfterEnd (← Word.add index 1))
    | none =>
      if last.kind = .endMarker then
        match ← checkedPosition descends (records.zip records.tail) 0 with
        | some index => return some (.unordered (← Word.add index 1))
        | none => return none
      else return some .missingEndMarker

/-- `freeBytes`. -/
def checkedFreeBytes (map : BootMap) : Except Fault Nat := do
  let regions ← checkedRegionsOf map.records
  ((regions.filter fun region => region.kind == .free).map BootRegion.size).foldlM Word.add 0

end BootMap

end KernelMemory
