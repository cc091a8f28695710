/-
  KernelMemory.Paging.Arena — the page tables of all trees, in one store.

  A table is named by its position in the store; names of released tables are used again.
  Slots hold what an entry means (`Slot`); the bits are produced only when the tables that
  changed are written to memory (`commit`).

  The view of an arena is `get? : TableId → Option Table`.  Results stated here:
    * `get?_modify_same`, `get?_modify_other` — a changed table is the only one that changes.
-/

import Std.Data.TreeMap
import KernelMemory.Memory
import KernelMemory.Paging.Entry

namespace KernelMemory

/-- Names a table of an arena. -/
abbrev TableId := Nat

/-- A frame and the attributes it is mapped with. -/
structure Mapping where
  frame : PhysAddr
  flags : PageFlags
  deriving DecidableEq, Repr

/-- Technical form of a mapping. -/
def Mapping.debug (mapping : Mapping) : String :=
  s!"Mapping \x7b frame: {mapping.frame.debug}, flags: {mapping.flags.debug} \x7d"

/-- What one entry of a table stands for. -/
inductive Slot where
  | empty
  /-- The table one level down. -/
  | table (child : TableId)
  /-- One frame; in leaf tables. -/
  | leaf (mapping : Mapping)
  /-- A large page; above the leaf tables. -/
  | large (mapping : Mapping)
  deriving DecidableEq, Repr, Inhabited

/-- A page table. -/
structure Table where
  /-- The frame it is written to. -/
  frame : PhysAddr
  level : Nat
  /-- Entries that point at it let user code pass. -/
  user : Bool
  /-- Whether it waits to be written. -/
  dirty : Bool
  slots : Array Slot
  deriving DecidableEq, Repr

/-- The table of `entries` empty slots. -/
def Table.blank (frame : PhysAddr) (level : Nat) (user : Bool) (entries : Nat) : Table :=
  ⟨frame, level, user, false, Array.replicate entries .empty⟩

/-- All tables, and the indexes kept beside them. -/
structure Arena where
  /-- Tables by name; released ones leave a gap. -/
  tables : Array (Option Table)
  /-- Names free for use again, the next one first. -/
  vacant : List TableId
  /-- The table last placed in each frame. -/
  byFrame : Std.TreeMap PhysAddr TableId
  /-- Tables waiting to be written, in the order in which they changed. -/
  pending : Array TableId

namespace Arena

/-- The arena without tables. -/
def empty : Arena := ⟨#[], [], ∅, #[]⟩

/-! ## Reading -/

/-- The table of a name, unless it is released or was never given out. -/
def get? (a : Arena) (id : TableId) : Option Table := a.tables.getD id none

/-- The table of a name that must be in use. -/
def table (a : Arena) (id : TableId) : Except Fault Table :=
  match a.get? id with
  | some table => .ok table
  | none => .error (.staleTable id)

/-- A slot of a table that must be in use. -/
def slot (a : Arena) (id index : Nat) : Except Fault Slot :=
  match a.get? id with
  | none => .error (.staleTable id)
  | some table =>
    match table.slots[index]? with
    | some slot => .ok slot
    | none => .error (.indexOutOfBounds table.slots.size index)

/-- The table placed in a frame. -/
def find? (a : Arena) (frame : PhysAddr) : Option TableId := a.byFrame[frame]?

/-- Number of frames that hold tables. -/
def size (a : Arena) : Nat := a.byFrame.size

/-! ## Changing -/

/-- Changes a table in use. -/
def modify (a : Arena) (id : TableId) (change : Table → Table) : Arena :=
  { a with tables := a.tables.modify id (Option.map change) }

/-- Notes that a table has to be written, once until it is. -/
def touch (a : Arena) (id : TableId) : Arena :=
  match (a.get? id).map Table.dirty with
  | some false =>
    { a with
      tables := a.tables.modify id (Option.map fun table => { table with dirty := true })
      pending := a.pending.push id }
  | _ => a

/-- Puts a new table in the place of a name, or at the end if the name is new. -/
def place (a : Arena) (id : TableId) (table : Table) : Arena :=
  { a with
    tables := if id < a.tables.size then a.tables.setIfInBounds id (some table)
      else a.tables.push (some table)
    byFrame := a.byFrame.insert table.frame id }

/-- Adds a table, under the name released last if there is one. -/
def add (a : Arena) (table : Table) : TableId × Arena :=
  match a.vacant with
  | id :: vacant => (id, ({ a with vacant := vacant }.place id table).touch id)
  | [] =>
    let id := a.tables.size
    (id, (a.place id table).touch id)

/-- Removes a table, and tells the frame it was in.  Its slots are not followed. -/
def remove (a : Arena) (id : TableId) : Option PhysAddr × Arena :=
  match (a.get? id).map Table.frame with
  | none => (none, a)
  | some frame =>
    (some frame,
      { a with
        tables := a.tables.setIfInBounds id none
        byFrame := a.byFrame.erase frame
        vacant := id :: a.vacant })

/-- What is wrong with writing to a slot: the name was never given out, or a table in use
has no such slot. -/
def slotProblem (a : Arena) (id index : Nat) : Option Fault :=
  if id < a.tables.size then
    match (a.get? id).map fun table => table.slots.size with
    | none => none
    | some length => if index < length then none else some (.indexOutOfBounds length index)
  else some (.indexOutOfBounds a.tables.size id)

/-- Overwrites a slot, and notes that the table has to be written. -/
def put (a : Arena) (id index : Nat) (slot : Slot) : Arena :=
  (a.modify id fun table => { table with slots := table.slots.setIfInBounds index slot }).touch id

/-- Forgets which tables wait to be written. -/
def clearPending (a : Arena) : Arena := { a with pending := #[] }

/-! ## Writing to memory -/

/-- The entry that a slot of a table at `level` is written as. -/
def rawEntry (format : Format) (a : Arena) (level : Nat) : Slot → Except Fault RawEntry
  | .empty => .ok 0
  | .table child => do
    let table ← a.table child
    return format.encodeTable table.frame table.user
  | .leaf mapping => .ok (format.encodePage mapping.frame mapping.flags 0)
  | .large mapping => .ok (format.encodePage mapping.frame mapping.flags level)

/-- The page that a table is written as. -/
def image (format : Format) (a : Arena) (id : TableId) : Except Fault Page := do
  let table ← a.table id
  let raw ← table.slots.mapM (a.rawEntry format table.level)
  return Page.ofEntries format.entryBytes raw

/-- Writes one waiting table, and counts it; released ones are passed over. -/
def commitOne (format : Format) (done : Nat × Arena × Memory) (id : TableId) :
    Except Fault (Nat × Arena × Memory) :=
  let (count, a, memory) := done
  match (a.get? id).map Table.frame with
  | none => .ok (count, a, memory)
  | some frame => do
    let a := a.modify id fun table => { table with dirty := false }
    let page ← a.image format id
    let memory ← memory.checkedWrite frame page
    return (count + 1, a, memory)

/-- Writes all waiting tables to their frames; tells how many were written. -/
def commit (format : Format) (a : Arena) (memory : Memory) : Except Fault (Nat × Arena × Memory) :=
  a.pending.toList.foldlM (commitOne format) (0, a.clearPending, memory)

/-! ## The view -/

@[simp] theorem get?_empty (id : TableId) : empty.get? id = none := by simp [empty, get?]

theorem get?_modify_same (a : Arena) (id : TableId) (change : Table → Table) :
    (a.modify id change).get? id = (a.get? id).map change := by
  simp only [get?, modify, Array.getD_eq_getD_getElem?, Array.getElem?_modify]
  cases h : a.tables[id]? <;> simp

theorem get?_modify_other (a : Arena) {id other : TableId} (change : Table → Table)
    (h : other ≠ id) : (a.modify id change).get? other = a.get? other := by
  simp [get?, modify, Array.getD_eq_getD_getElem?, Array.getElem?_modify, Ne.symm h]

theorem slot_eq_ok_iff {a : Arena} {id index : Nat} {s : Slot} :
    a.slot id index = .ok s ↔ ∃ table, a.get? id = some table ∧ table.slots[index]? = some s := by
  unfold slot
  split
  · simp_all
  · rename_i table h
    split <;> simp_all

end Arena

end KernelMemory
