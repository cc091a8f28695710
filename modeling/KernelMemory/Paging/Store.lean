/-
  KernelMemory.Paging.Store — the state that building page tables works on: the
  frame allocator that tables come from, the arena that holds them, and the log.

  Steps on it are the small operations of which the table walk is made.
-/

import KernelMemory.Outcome
import KernelMemory.Paging.Arena

namespace KernelMemory

/-- Frames, tables and the log. -/
structure TableStore where
  frames : FrameAllocator
  arena : Arena
  /-- Every record written, in order. -/
  log : Array LogRecord

/-- Steps on frames and tables. -/
abbrev TableSteps := Steps TableStore

namespace TableStore

/-- The store with nothing in it. -/
def empty : TableStore := ⟨{}, Arena.empty, #[]⟩

instance : Inhabited TableStore := ⟨empty⟩

/-- Adds a record to the log. -/
def write (level : LogLevel) (text : String) : TableSteps Unit :=
  modify fun s => { s with log := s.log.push ⟨level, text⟩ }

/-- Adds records to the log. -/
def writeAll (records : List LogRecord) : TableSteps Unit :=
  modify fun s => { s with log := s.log.appendList records }

/-! ## Frames -/

/-- Hands out the lowest free frame. -/
def allocatePage : TableSteps (Except FrameError PhysAddr) := do
  let result ← modifyGet fun s =>
    let (result, frames) := s.frames.allocatePage
    (result, { s with frames := frames })
  match result with
  | .ok address => write .trace s!"allocated frame {address.frame}"
  | .error _ => pure ()
  return result

/-- Hands out the lowest block of `2 ^ order` frames in a zone. -/
def allocateBlock (order : Nat) (zone : Zone) : TableSteps (Except FrameError PhysAddr) := do
  let result ← modifyGet fun s =>
    let (result, frames) := s.frames.allocateBlock order zone
    (result, { s with frames := frames })
  match result with
  | .ok address =>
    write .trace s!"allocated order-{order} block at frame {address.frame} ({zone.name})"
  | .error .outOfMemory =>
    let free := Size.text ((← get).frames.available zone * frameSize)
    write .warn s!"no free order-{order} block in {zone.name} zone ({free} free)"
  | .error _ => pure ()
  return result

/-- Takes back a block of `2 ^ order` frames. -/
def freeBlock (address : PhysAddr) (order : Nat) : TableSteps Unit := do
  let freed ← modifyGet fun s =>
    let (freed, frames) := s.frames.freeBlock address order
    (freed, { s with frames := frames })
  match freed with
  | some count => write .trace s!"freed {count} frames at {hex address}"
  | none => pure ()

/-- Takes back one frame. -/
def freePage (address : PhysAddr) : TableSteps Unit := freeBlock address 0

/-! ## Tables -/

/-- Reads a slot. -/
def slot (id index : Nat) : TableSteps Slot := fun s =>
  match s.arena.slot id index with
  | .ok slot => .ok slot s
  | .error fault => .error (.fault fault) s

/-- Reads a table. -/
def table (id : TableId) : TableSteps Table := fun s =>
  match s.arena.table id with
  | .ok table => .ok table s
  | .error fault => .error (.fault fault) s

/-- Overwrites a slot.  Released names are ignored; names never given out are a fault. -/
def setSlot (id index : Nat) (slot : Slot) : TableSteps Unit := fun s =>
  match s.arena.slotProblem id index with
  | some fault => .error (.fault fault) s
  | none => .ok () { s with arena := s.arena.put id index slot }

/-- Takes a frame and puts an empty table into it. -/
def addTable (format : Format) (level : Nat) (user : Bool) : TableSteps TableId := do
  if level < format.levels then
    match ← allocatePage with
    | .error error => Steps.refuse (.ofFrameError error)
    | .ok frame =>
      let id ← modifyGet fun s =>
        let (id, arena) := s.arena.add (.blank frame level user format.entries)
        (id, { s with arena := arena })
      write .trace s!"level-{level} table at {hex frame}"
      return id
  else
    Steps.stop .levelOutOfRange

/-- Removes a table and gives its frame back.  Names not in use are ignored. -/
def removeTable (id : TableId) : TableSteps Unit := do
  let frame ← modifyGet fun s =>
    let (frame, arena) := s.arena.remove id
    (frame, { s with arena := arena })
  match frame with
  | some address => freePage address
  | none => pure ()

/-- Removes `count` tables from name `id` on. -/
def removeFrom (id : TableId) : (count : Nat) → TableSteps Unit
  | 0 => pure ()
  | count + 1 => do
    removeTable id
    removeFrom (id + 1) count

/-- Removes every table. -/
def removeAll : TableSteps Unit := do
  removeFrom 0 (← get).arena.tables.size
  modify fun s => { s with arena := s.arena.clearPending }

end TableStore

end KernelMemory
