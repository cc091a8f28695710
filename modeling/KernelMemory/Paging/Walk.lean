/-
  KernelMemory.Paging.Walk — the walk down the tables, from the root to the entry that
  covers an address.

  Mapping a range makes tables on the way where they are missing and uses large pages
  where alignment and length allow.  It stops at the first refusal; what was mapped before
  stays mapped.  Virtual page 0 is never mapped.
-/

import KernelMemory.Paging.Store

namespace KernelMemory

/-! ## Requests and results -/

/-- A range to map. -/
structure MapRequest where
  root : TableId
  virt : VirtAddr
  phys : PhysAddr
  size : Nat
  flags : PageFlags
  /-- No new slot may be made in the root. -/
  rootSealed : Bool
  /-- New tables let user code pass. -/
  user : Bool
  largePages : Bool
  deriving DecidableEq, Repr

/-- What mapping one page did. -/
inductive MapStep where
  /-- A new entry was written. -/
  | installed
  /-- The page was mapped just so already. -/
  | unchanged
  /-- The page was mapped to the same frame, with other attributes. -/
  | updated
  deriving DecidableEq, Repr

/-- How often each step was made in a range. -/
structure MapSummary where
  installed : Nat := 0
  updated : Nat := 0
  unchanged : Nat := 0
  deriving DecidableEq, Repr

namespace MapSummary

/-- Counts one more step. -/
def record (summary : MapSummary) : MapStep → MapSummary
  | .installed => { summary with installed := summary.installed + 1 }
  | .updated => { summary with updated := summary.updated + 1 }
  | .unchanged => { summary with unchanged := summary.unchanged + 1 }

/-- Whether an entry that the processor may remember was changed. -/
def changed (summary : MapSummary) : Bool := 0 < summary.installed + summary.updated

end MapSummary

/-- The whole pages that cover `size` bytes at a virtual and a physical address: where they
start in each, and their length; unless the length needs more than 64 bits. -/
def pageBounds (virt : VirtAddr) (phys : PhysAddr) (size : Nat) :
    Option (VirtAddr × PhysAddr × Nat) := do
  let bytes ← Word.add? virt.pageOffset size
  let length ← Word.mul? ((bytes + (frameSize - 1)) / frameSize) frameSize
  return (floorTo frameSize virt, floorTo frameSize phys, length)

namespace Walk

open TableStore

/-! ## Mapping one page -/

/-- Where the way down to a level ends. -/
inductive Descent where
  /-- At the table of that level. -/
  | reached (table : TableId)
  /-- Above it, where a large page maps the address as requested. -/
  | covered
  deriving DecidableEq, Repr

/-- Goes down `steps` levels from a table to the one at level `target`, making tables that
are missing. -/
def descend (format : Format) (request : MapRequest) (virt : VirtAddr) (phys : PhysAddr)
    (target : Nat) : (steps : Nat) → TableId → TableSteps Descent
  | 0, id => return .reached id
  | steps + 1, id => do
    let level := target + steps + 1
    let index := format.index virt level
    match ← slot id index with
    | .table child => descend format request virt phys target steps child
    | .empty =>
      if request.rootSealed && level == format.topLevel then
        Steps.refuse .bootstrapOnly
      else
        let child ← addTable format (level - 1) request.user
        setSlot id index (.table child)
        descend format request virt phys target steps child
    | .large existing =>
      let expected ← Word.add existing.frame (virt % format.span level)
      if expected = phys ∧ existing.flags = request.flags then
        return .covered
      else
        write .warn s!"{hex virt} -> {hex phys} conflicts with large page {existing.debug} at level {level}"
        Steps.refuse .incompatible
    | .leaf _ => Steps.refuse .incompatible

/-- The slot that maps a page at a level. -/
def pageSlot (target : Nat) (mapping : Mapping) : Slot :=
  if target = 0 then .leaf mapping else .large mapping

/-- Maps a page where the slot at `index` holds a mapping already: another frame is refused,
other attributes replace the old ones. -/
def remap (request : MapRequest) (virt : VirtAddr) (phys : PhysAddr) (target : Nat)
    (id index : Nat) (existing : Mapping) : TableSteps MapStep := do
  if existing.frame ≠ phys then
    write .warn s!"{hex virt} -> {hex phys} conflicts with existing mapping {existing.debug}"
    Steps.refuse .incompatible
  else if existing.flags = request.flags then
    return .unchanged
  else
    setSlot id index (pageSlot target ⟨phys, request.flags⟩)
    return .updated

/-- Maps a page in a table at level `target`.  No result means that its slot holds a
table. -/
def install (format : Format) (request : MapRequest) (virt : VirtAddr) (phys : PhysAddr)
    (target : Nat) (id : TableId) : TableSteps (Option MapStep) := do
  let index := format.index virt target
  match ← slot id index with
  | .empty =>
    if request.rootSealed && target == format.topLevel then
      Steps.refuse .bootstrapOnly
    else
      setSlot id index (pageSlot target ⟨phys, request.flags⟩)
      return some .installed
  | .table _ => return none
  | .leaf existing => return some (← remap request virt phys target id index existing)
  | .large existing => return some (← remap request virt phys target id index existing)

/-- Maps one page of level `target`.  No result means that its place is taken by a table. -/
def mapPage (format : Format) (request : MapRequest) (virt : VirtAddr) (phys : PhysAddr)
    (target : Nat) : TableSteps (Option MapStep) := do
  match ← descend format request virt phys target (format.topLevel - target) request.root with
  | .covered => return some .unchanged
  | .reached id => install format request virt phys target id

/-! ## Mapping a range -/

/-- Whether a large page may be tried at this point of a range. -/
def fitsLarge (format : Format) (request : MapRequest) (virt : VirtAddr) (phys : PhysAddr)
    (remaining : Nat) : Bool :=
  let large := format.span Format.largeLevel
  request.largePages && large ≤ remaining && virt % large == 0 && phys % large == 0

/-- Maps the page at the start of what remains of a range, a large one if possible; tells
what was done and how many bytes that covers. -/
def mapNext (format : Format) (request : MapRequest) (virt : VirtAddr) (phys : PhysAddr)
    (remaining : Nat) : TableSteps (MapStep × Nat) := do
  let promoted ←
    if fitsLarge format request virt phys remaining then
      mapPage format request virt phys Format.largeLevel
    else pure none
  match promoted with
  | some step => return (step, format.span Format.largeLevel)
  | none =>
    match ← mapPage format request virt phys 0 with
    | some step => return (step, frameSize)
    | none => Steps.stop .tableAtLeafLevel

/-- Maps what remains of a range page by page.  Each round covers a frame at least, so as
many rounds as frames remain are enough. -/
def mapPages (format : Format) (request : MapRequest) :
    (rounds : Nat) → VirtAddr → PhysAddr → (remaining : Nat) → MapSummary →
      TableSteps MapSummary
  | 0, _, _, _, summary => return summary
  | rounds + 1, virt, phys, remaining, summary => do
    if remaining = 0 then
      return summary
    else
      let (step, advance) ← mapNext format request virt phys remaining
      let summary := summary.record step
      let remaining := remaining - advance
      if remaining = 0 then
        return summary
      else
        let virt ← Word.add virt advance
        let phys ← Word.add phys advance
        mapPages format request rounds virt phys remaining summary

/-- Maps a range. -/
def mapRange (format : Format) (request : MapRequest) : TableSteps MapSummary := do
  match pageBounds request.virt request.phys request.size with
  | none => Steps.refuse .addressOutOfRange
  | some (virt, phys, length) =>
    if virt = 0 ∧ 0 < length then
      let phys ← Word.add phys frameSize
      let length := length - frameSize
      mapPages format request (length / frameSize) frameSize phys length {}
    else
      mapPages format request (length / frameSize) virt phys length {}

/-! ## Looking up -/

/-- The leaf mapping of an address below a table at level `steps`. -/
def leafFrom (format : Format) (arena : Arena) (virt : VirtAddr) :
    (steps : Nat) → TableId → Except Fault (Option Mapping)
  | 0, id => do
    match ← arena.slot id (format.index virt 0) with
    | .leaf mapping => return some mapping
    | _ => return none
  | steps + 1, id => do
    match ← arena.slot id (format.index virt (steps + 1)) with
    | .table child => leafFrom format arena virt steps child
    | _ => return none

/-- The leaf mapping of an address; none where a level is missing or a large page covers
the address. -/
def leaf (format : Format) (arena : Arena) (root : TableId) (virt : VirtAddr) :
    Except Fault (Option Mapping) :=
  leafFrom format arena virt format.topLevel root

/-- The mapping that covers an address, and its level, below a table at level
`steps - 1`. -/
def coverFrom (format : Format) (arena : Arena) (virt : VirtAddr) :
    (steps : Nat) → TableId → Except Fault (Option (Mapping × Nat))
  | 0, _ => return none
  | level + 1, id => do
    match ← arena.slot id (format.index virt level) with
    | .table child => coverFrom format arena virt level child
    | .leaf mapping => return some (mapping, level)
    | .large mapping => return some (mapping, level)
    | .empty => return none

/-- The mapping that covers an address, and its level. -/
def cover (format : Format) (arena : Arena) (root : TableId) (virt : VirtAddr) :
    Except Fault (Option (Mapping × Nat)) :=
  coverFrom format arena virt format.levels root

/-- The physical address that an address is translated to. -/
def resolve (format : Format) (arena : Arena) (root : TableId) (virt : VirtAddr) :
    Except Fault (Option PhysAddr) := do
  match ← cover format arena root virt with
  | none => return none
  | some (mapping, level) =>
    return some (← Word.add mapping.frame (virt % format.span level))

/-! ## Tearing down -/

/-- Removes what hangs from `count` slots of a table, starting at `index`; tells how many
tables that were. -/
def releaseSlots (release : TableId → TableSteps Nat) (id : TableId) :
    (count index : Nat) → TableSteps Nat
  | 0, _ => return 0
  | count + 1, index => do
    match ← slot id index with
    | .table child =>
      let below ← release child
      let after ← releaseSlots release id count (index + 1)
      return below + after
    | _ => releaseSlots release id count (index + 1)

/-- Removes a table and everything below it, following no more than `depth` tables down. -/
def releaseTree (format : Format) : (depth : Nat) → TableId → TableSteps Nat
  | 0, _ => Steps.stop .cyclicTables
  | depth + 1, id => do
    let level := (← table id).level
    let below ←
      if 0 < level then releaseSlots (releaseTree format depth) id format.entries 0
      else pure 0
    removeTable id
    return below + 1

/-- Removes everything below the private lower half of a root, then the root.  The shared
upper half stays.  Tells how many tables were removed.

What hangs from a slot is gone before the next slot is looked at.  So a way down that comes
back to a table it passed goes the same way again, until it meets a table removed meanwhile,
which is a fault, or comes back a second time and never ends.  A way that ends is thus no
longer than two rounds through all tables and one step more. -/
def releasePrivate (format : Format) (root : TableId) : TableSteps Nat := do
  let depth := 2 * (← get).arena.tables.size + 1
  let below ← releaseSlots (releaseTree format depth) root format.userSplit 0
  removeTable root
  return below + 1

end Walk

end KernelMemory
