/-
  KernelMemory.Address — physical and virtual byte addresses, alignment, frames.

  Both kinds of address are 64-bit words.  Which of them a paging format can
  express is the format's business, so an address by itself is not validated.

  Alignment to a power of two is rounding on the naturals (`floorTo`, `ceilTo`); the
  checked forms in `Address` refuse any other unit.
-/

import KernelMemory.Fault
import KernelMemory.Size

namespace KernelMemory

/-- A physical byte address: a word. -/
abbrev PhysAddr := Nat

/-- A virtual byte address: a word. -/
abbrev VirtAddr := Nat

/-- The number of a physical frame, counted from address zero. -/
abbrev FrameNumber := Nat

/-- Number of address bits inside a frame. -/
abbrev frameShift : Nat := 12

/-- Bytes in a physical frame and in a page table. -/
abbrev frameSize : Nat := 4096

/-- The largest multiple of `unit` that is at most `n`. -/
def floorTo (unit n : Nat) : Nat := n / unit * unit

/-- The smallest multiple of `unit` that is at least `n`. -/
def ceilTo (unit n : Nat) : Nat := (n + (unit - 1)) / unit * unit

theorem floorTo_le (unit n : Nat) : floorTo unit n ≤ n := Nat.div_mul_le_self n unit

theorem lt_floorTo_add {unit : Nat} (h : 0 < unit) (n : Nat) : n < floorTo unit n + unit := by
  have := Nat.lt_div_mul_add (a := n) h
  simpa [floorTo] using this

theorem floorTo_mod (unit n : Nat) : floorTo unit n % unit = 0 := Nat.mul_mod_left _ _

theorem ceilTo_mod (unit n : Nat) : ceilTo unit n % unit = 0 := Nat.mul_mod_left _ _

theorem floorTo_add_mod (unit n : Nat) : floorTo unit n + n % unit = n := by
  rw [floorTo, Nat.mul_comm]; exact Nat.div_add_mod n unit

theorem floorTo_eq_self {unit n : Nat} (h : n % unit = 0) : floorTo unit n = n := by
  have := floorTo_add_mod unit n; omega

theorem le_ceilTo {unit : Nat} (h : 0 < unit) (n : Nat) : n ≤ ceilTo unit n := by
  have := lt_floorTo_add h (n + (unit - 1))
  simp only [floorTo, ceilTo] at *; omega

theorem ceilTo_lt_add {unit : Nat} (h : 0 < unit) (n : Nat) : ceilTo unit n < n + unit := by
  have := floorTo_le unit (n + (unit - 1))
  simp only [floorTo, ceilTo] at *; omega

/-- Whether `n` is a power of two. -/
def isPowerOfTwo (n : Nat) : Bool := n == 2 ^ n.log2

namespace Address

/-- Whether the address is a multiple of `align`. -/
def isAligned (address align : Nat) : Except Fault Bool :=
  if isPowerOfTwo align then .ok (address % align == 0) else .error .alignmentNotPowerOfTwo

/-- The address rounded down to a multiple of `align`. -/
def alignDown (address align : Nat) : Except Fault Nat :=
  if isPowerOfTwo align then .ok (floorTo align address) else .error .alignmentNotPowerOfTwo

/-- The address rounded up to a multiple of `align`; near the top of the address space
the highest such word. -/
def alignUp (address align : Nat) : Except Fault Nat :=
  if isPowerOfTwo align then .ok (floorTo align (Word.saturatingAdd address (align - 1)))
  else .error .alignmentNotPowerOfTwo

end Address

namespace PhysAddr

/-- Technical form of a physical address. -/
def debug (address : PhysAddr) : String := s!"PhysicalAddress({hex address})"

/-- The frame that holds the address. -/
def frame (address : PhysAddr) : FrameNumber := address / frameSize

end PhysAddr

namespace VirtAddr

/-- Technical form of a virtual address. -/
def debug (address : VirtAddr) : String := s!"VirtualAddress({hex address})"

/-- Offset of the address in its page. -/
def pageOffset (address : VirtAddr) : Nat := address % frameSize

/-- The virtual address equal to a physical one. -/
def identity (address : PhysAddr) : VirtAddr := address

end VirtAddr

namespace FrameNumber

/-- The address at which a frame starts; bits beyond the word are dropped. -/
def start (frame : FrameNumber) : PhysAddr := frame * frameSize % Word.bound

/-- Technical form of a frame number. -/
def debug (frame : FrameNumber) : String := s!"FrameNumber({frame})"

theorem start_eq {frame : FrameNumber} (h : frame * frameSize < Word.bound) :
    start frame = frame * frameSize := Nat.mod_eq_of_lt h

end FrameNumber

end KernelMemory
