/-
  KernelMemory.Paging.Format — the two shapes of page tables.

  Tables form a tree.  Levels count from the leaf tables (level 0) up to the root
  (`topLevel`); a table at level `l` splits its range into `entries` parts of `span l`
  bytes each.  Large pages are mapped by entries at `largeLevel`.

  Results stated here:
    * `span_succ` — a table entry covers exactly the range of one table below it;
    * `span_mod_frameSize`, `entries_pos`, `span_pos` — the sizes every walk divides by;
    * `index_lt` — an index stays inside its table;
    * `span_topLevel_mul_entries` — the root covers `2 ^ (12 + levels * indexBits)` bytes.
-/

import KernelMemory.Address

namespace KernelMemory

/-- A shape of page tables. -/
inductive Format where
  /-- Two levels of 1024 entries of 4 bytes; 4 MiB large pages. -/
  | narrow
  /-- Four levels of 512 entries of 8 bytes; 2 MiB large pages and no-execute. -/
  | wide
  deriving DecidableEq, Repr

namespace Format

/-! ## Parameters -/

/-- The word used in the log. -/
def name : Format → String
  | narrow => "narrow"
  | wide => "wide"

/-- The word for the processor mode that runs the format. -/
def modeName : Format → String
  | narrow => "Narrow"
  | wide => "Wide"

/-- Number of levels of tables. -/
def levels : Format → Nat
  | narrow => 2
  | wide => 4

/-- Address bits that one level consumes. -/
def indexBits : Format → Nat
  | narrow => 10
  | wide => 9

/-- Bytes of one encoded entry. -/
def entryBytes : Format → Nat
  | narrow => 4
  | wide => 8

/-- Entries of a table. -/
def entries : Format → Nat
  | narrow => 1024
  | wide => 512

/-- The level of the root table. -/
def topLevel (format : Format) : Nat := format.levels - 1

/-- The level whose entries map large pages. -/
def largeLevel : Nat := 1

/-- Root entries below this index belong to one address space, the others to all. -/
def userSplit (format : Format) : Nat := format.entries / 2

/-- First physical address that no entry can name. -/
def physicalEnd : Format → Nat
  | narrow => 2 ^ 32
  | wide => 2 ^ 52

/-- End of the lowest run of valid virtual addresses, beyond which nothing can be mapped
at its own address. -/
def identityEnd : Format → Nat
  | narrow => 2 ^ 32
  | wide => 2 ^ 47

/-! ## Dividing addresses -/

/-- Bytes covered by one entry at a level. -/
def span (format : Format) (level : Nat) : Nat := 2 ^ (frameShift + level * format.indexBits)

/-- The entry that covers an address in a table at the given level. -/
def index (format : Format) (address : VirtAddr) (level : Nat) : Nat :=
  address / format.span level % format.entries

/-- First virtual address above the private lower half. -/
def userEnd (format : Format) : VirtAddr := format.userSplit * format.span format.topLevel

/-- The shift that brings the index bits of a level to the bottom. -/
def checkedShift (format : Format) (level : Nat) : Except Fault Nat := do
  Word.add frameShift (← Word.mul level format.indexBits)

/-- `index` for any level, also ones beyond the word. -/
def checkedIndex (format : Format) (address : VirtAddr) (level : Nat) : Except Fault Nat := do
  return (← Word.shiftRight address (← format.checkedShift level)) % format.entries

/-- `span` for any level, also ones beyond the word. -/
def checkedSpan (format : Format) (level : Nat) : Except Fault Nat := do
  Word.shiftLeft 1 (← format.checkedShift level)

/-! ## Ranges the format can express -/

/-- Whether the format can translate a virtual address: any below 4 GiB for `narrow`, any
whose bits from 47 up are equal for `wide`. -/
def virtualInRange : Format → VirtAddr → Bool
  | narrow, address => address < 2 ^ 32
  | wide, address => address / 2 ^ 47 == 0 || address / 2 ^ 47 == 2 ^ 17 - 1

/-- Whether the two ends of a range are usable and in one run of valid addresses. -/
def virtualRangeInRange (format : Format) (first last : VirtAddr) : Bool :=
  first ≤ last && format.virtualInRange first && format.virtualInRange last &&
    match format with
    | narrow => true
    | wide => first / 2 ^ 63 == last / 2 ^ 63

/-- Whether an entry can name a physical address. -/
def physicalInRange (format : Format) (address : PhysAddr) : Bool :=
  address < format.physicalEnd

/-! ## Facts about the parameters -/

theorem entries_eq (format : Format) : format.entries = 2 ^ format.indexBits := by
  cases format <;> rfl

theorem entries_pos (format : Format) : 0 < format.entries := by cases format <;> decide

theorem span_pos (format : Format) (level : Nat) : 0 < format.span level := Nat.two_pow_pos _

@[simp] theorem span_zero (format : Format) : format.span 0 = frameSize := by
  simp [span, frameShift, frameSize]

theorem span_succ (format : Format) (level : Nat) :
    format.span (level + 1) = format.span level * format.entries := by
  rw [span, span, entries_eq, ← Nat.pow_add, Nat.succ_mul, Nat.add_assoc]

theorem frameSize_dvd_span (format : Format) (level : Nat) : frameSize ∣ format.span level :=
  ⟨2 ^ (level * format.indexBits), by simp [span, Nat.pow_add, frameShift, frameSize]⟩

theorem index_lt (format : Format) (address : VirtAddr) (level : Nat) :
    format.index address level < format.entries := Nat.mod_lt _ format.entries_pos

theorem span_topLevel_mul_entries (format : Format) :
    format.span format.topLevel * format.entries =
      2 ^ (frameShift + format.levels * format.indexBits) := by
  cases format <;> rfl

theorem topLevel_pos (format : Format) : 0 < format.topLevel := by cases format <;> decide

theorem largeLevel_le_topLevel (format : Format) : largeLevel ≤ format.topLevel := by
  cases format <;> decide

theorem entries_mul_entryBytes (format : Format) :
    format.entries * format.entryBytes = frameSize := by cases format <;> rfl

end Format

end KernelMemory
