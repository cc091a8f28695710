/-
  KernelMemory.Fault — how an operation can break its contract, and the checked
  64-bit arithmetic that reports it.

  A `Fault` is not an answer to the caller: it says that the code was used outside its
  contract (an overflow, an index past the end, a table that no longer exists).  The
  errors that callers are expected to handle are separate types (`FrameError`,
  `MemoryError`, `BootMapError`).

  Words are natural numbers below `Word.bound`; every operation that could leave that
  range says so.
-/

namespace KernelMemory

-- Powers of numbers are the built-in ones, also where a library brings others along.
attribute [instance (high)] instPowNat
attribute [default_instance (high + 1)] instPowNat

/-- A broken contract. -/
inductive Fault where
  | addOverflow
  | subOverflow
  | mulOverflow
  | shiftLeftOverflow
  | shiftRightOverflow
  | alignmentNotPowerOfTwo
  | frameMisaligned
  | levelOutOfRange
  /-- A table was used after it was released, or never existed. -/
  | staleTable (id : Nat)
  | indexOutOfBounds (length index : Nat)
  /-- A leaf table points at another table. -/
  | tableAtLeafLevel
  /-- A table is reachable from itself. -/
  | cyclicTables
  /-- A condition the kernel declared fatal. -/
  | contractViolated (text : String)
  deriving DecidableEq, Repr

namespace Fault

/-- The text a fault stops the kernel with. -/
def message : Fault → String
  | addOverflow => "attempt to add with overflow"
  | subOverflow => "attempt to subtract with overflow"
  | mulOverflow => "attempt to multiply with overflow"
  | shiftLeftOverflow => "attempt to shift left with overflow"
  | shiftRightOverflow => "attempt to shift right with overflow"
  | alignmentNotPowerOfTwo => "alignment must be a power of two"
  | frameMisaligned => "frame address must be aligned"
  | levelOutOfRange => "assertion failed: level < F::LEVELS"
  | staleTable id => s!"stale table slab SlabId({id})"
  | indexOutOfBounds length index =>
    s!"index out of bounds: the len is {length} but the index is {index}"
  | tableAtLeafLevel =>
    "internal error: entered unreachable code: level 0 slots never hold tables"
  | cyclicTables => "page tables form a cycle"
  | contractViolated text => text

end Fault

/-! ## Checked word arithmetic -/

namespace Word

/-- Words are the naturals below this bound. -/
abbrev bound : Nat := 2 ^ 64

/-- The largest word. -/
abbrev max : Nat := 2 ^ 64 - 1

/-- Number of bits in a word. -/
abbrev bits : Nat := 64

/-- Sum, unless it needs more than 64 bits. -/
def add? (a b : Nat) : Option Nat :=
  if a + b < bound then some (a + b) else none

/-- Difference, unless it is negative. -/
def sub? (a b : Nat) : Option Nat :=
  if b ≤ a then some (a - b) else none

/-- Product, unless it needs more than 64 bits. -/
def mul? (a b : Nat) : Option Nat :=
  if a * b < bound then some (a * b) else none

/-- Sum; too large a sum is a fault. -/
def add (a b : Nat) : Except Fault Nat :=
  if a + b < bound then .ok (a + b) else .error .addOverflow

/-- Difference; a negative one is a fault. -/
def sub (a b : Nat) : Except Fault Nat :=
  if b ≤ a then .ok (a - b) else .error .subOverflow

/-- Product; too large a product is a fault. -/
def mul (a b : Nat) : Except Fault Nat :=
  if a * b < bound then .ok (a * b) else .error .mulOverflow

/-- Sum of signed words; one that is no signed word is a fault. -/
def addSigned (a b : Int) : Except Fault Int :=
  if -(2 ^ 63) ≤ a + b ∧ a + b < 2 ^ 63 then .ok (a + b) else .error .addOverflow

/-- Shift by fewer than 64 places; bits that leave the word are dropped. -/
def shiftLeft (a places : Nat) : Except Fault Nat :=
  if places < bits then .ok (a * 2 ^ places % bound) else .error .shiftLeftOverflow

/-- Shift by fewer than 64 places. -/
def shiftRight (a places : Nat) : Except Fault Nat :=
  if places < bits then .ok (a / 2 ^ places) else .error .shiftRightOverflow

/-- Sum, cut off at the largest word. -/
def saturatingAdd (a b : Nat) : Nat := min (a + b) max

theorem add_eq_ok_iff {a b c : Nat} : add a b = .ok c ↔ a + b < bound ∧ c = a + b := by
  unfold add
  split
  · rename_i h; simp [h, eq_comm]
  · rename_i h; simp [h]

theorem mul_eq_ok_iff {a b c : Nat} : mul a b = .ok c ↔ a * b < bound ∧ c = a * b := by
  unfold mul
  split
  · rename_i h; simp [h, eq_comm]
  · rename_i h; simp [h]

theorem add?_eq_some_iff {a b c : Nat} : add? a b = some c ↔ a + b < bound ∧ c = a + b := by
  unfold add?
  split
  · rename_i h; simp [h, eq_comm]
  · rename_i h; simp [h]

theorem sub?_eq_some_iff {a b c : Nat} : sub? a b = some c ↔ b ≤ a ∧ c = a - b := by
  unfold sub?
  split
  · rename_i h; simp [h, eq_comm]
  · rename_i h; simp [h]

end Word

end KernelMemory
