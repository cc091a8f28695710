/-
  KernelMemory.Paging.Entry — table entries as numbers, written and read.

  An entry carries flag bits below bit 12, the frame's address bits above them, and in the
  wide format the no-execute bit at the top.  `encodeTable` and `encodePage` write entries,
  `RawEntry` reads them the way the processor does: present, large, address, attributes.

  Results stated here:
    * `encodePage_lt`, `encodeTable_lt` — an entry fits into its `entryBytes`.
-/

import KernelMemory.Paging.Flags
import KernelMemory.Paging.Format

namespace KernelMemory

/-- A flag at bit `place` of a number. -/
def flagBit (flag : Bool) (place : Nat) : Nat := if flag then 2 ^ place else 0

theorem flagBit_le (flag : Bool) (place : Nat) : flagBit flag place ≤ 2 ^ place := by
  cases flag <;> simp [flagBit]

namespace Format

/-! ## Writing entries -/

/-- Number of low bits of a physical address that an entry can hold. -/
def addressBits : Format → Nat
  | narrow => 32
  | wide => 52

/-- The unit to which an entry at `level` cuts its frame: the large page in the narrow
format, otherwise the frame. -/
def addressUnit : Format → Nat → Nat
  | narrow, level => if level = 0 then frameSize else 2 ^ 22
  | wide, _ => frameSize

/-- The address field of an entry at `level`. -/
def addressField (format : Format) (level : Nat) (frame : PhysAddr) : Nat :=
  floorTo (format.addressUnit level) (frame % 2 ^ format.addressBits)

/-- An entry that points at a lower table: present and writable, for user code if told. -/
def encodeTable (format : Format) (frame : PhysAddr) (user : Bool) : Nat :=
  format.addressField 0 frame + (flagBit true 0 + flagBit true 1 + flagBit user 2)

/-- The flag bits that both formats share. -/
def commonFlags (flags : PageFlags) : Nat :=
  flagBit true 0 + flagBit flags.writable 1 + flagBit flags.user 2 +
    flagBit flags.writeThrough 3 + flagBit flags.noCache 4 + flagBit flags.global 8

/-- The flag bits above the address field: no-execute, in the wide format alone. -/
def highFlags : Format → PageFlags → Nat
  | narrow, _ => 0
  | wide, flags => flagBit flags.noExecute 63

/-- An entry that maps a page at `level`; above level 0 a large one. -/
def encodePage (format : Format) (frame : PhysAddr) (flags : PageFlags) (level : Nat) : Nat :=
  format.addressField level frame +
    (commonFlags flags + flagBit (0 < level) 7) + format.highFlags flags

end Format

/-! ## Reading entries -/

/-- An entry as it stands in memory. -/
abbrev RawEntry := Nat

namespace RawEntry

/-- Whether the entry is in use. -/
def isPresent (raw : RawEntry) : Bool := raw.testBit 0

/-- Whether the entry maps a large page; read above level 0 only. -/
def isLarge (raw : RawEntry) : Bool := raw.testBit 7

/-- Whether user code may pass through the entry. -/
def isUser (raw : RawEntry) : Bool := raw.testBit 2

/-- The frame an entry at `level` names. -/
def frame (format : Format) (level : Nat) (raw : RawEntry) : PhysAddr :=
  format.addressField level raw

/-- The attributes in an entry that maps a page; no-execute is read in the wide format
alone. -/
def flags (format : Format) (raw : RawEntry) : PageFlags :=
  { writable := raw.testBit 1
    user := raw.testBit 2
    noExecute := format == .wide && raw.testBit 63
    global := raw.testBit 8
    writeThrough := raw.testBit 3
    noCache := raw.testBit 4 }

end RawEntry

/-! ## Sizes -/

namespace Format

theorem addressField_lt (format : Format) (level : Nat) (frame : PhysAddr) :
    format.addressField level frame < 2 ^ format.addressBits :=
  Nat.lt_of_le_of_lt (floorTo_le _ _) (Nat.mod_lt _ (Nat.two_pow_pos _))

theorem addressField_mod (format : Format) (level : Nat) (frame : PhysAddr) :
    format.addressField level frame % frameSize = 0 := by
  have h : frameSize ∣ format.addressUnit level := by
    cases format
    · by_cases hl : level = 0
      · simp [addressUnit, hl]
      · simp only [addressUnit, hl, if_false]; exact ⟨1024, rfl⟩
    · simp [addressUnit]
  exact Nat.mod_eq_zero_of_dvd (Nat.dvd_trans h (Nat.dvd_mul_left _ _))

theorem encodeTable_lt (format : Format) (frame : PhysAddr) (user : Bool) :
    format.encodeTable frame user < 2 ^ format.addressBits := by
  have hlt := format.addressField_lt 0 frame
  have hmod := format.addressField_mod 0 frame
  have hu := flagBit_le user 2
  simp only [encodeTable, frameSize, show flagBit true 0 = 1 from rfl, show flagBit true 1 = 2 from rfl] at *
  cases format <;> simp only [addressBits] at * <;> omega

theorem commonFlags_lt (flags : PageFlags) : commonFlags flags < 2 ^ 9 := by
  rcases flags with ⟨w, u, x, g, t, c⟩
  cases w <;> cases u <;> cases g <;> cases t <;> cases c <;> simp [commonFlags, flagBit]

theorem encodePage_lt (format : Format) (frame : PhysAddr) (flags : PageFlags) (level : Nat) :
    format.encodePage frame flags level < 2 ^ (8 * format.entryBytes) := by
  have hlt := format.addressField_lt level frame
  have hmod := format.addressField_mod level frame
  have hf := commonFlags_lt flags
  have h7 := flagBit_le (0 < level) 7
  have hx := flagBit_le flags.noExecute 63
  simp only [encodePage, frameSize] at *
  cases format <;> simp only [addressBits, entryBytes, highFlags] at * <;> omega

end Format

end KernelMemory
