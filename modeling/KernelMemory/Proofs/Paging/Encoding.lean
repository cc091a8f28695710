/-
  KernelMemory.Proofs.Paging.Encoding — entries read back.

  An entry is an address field that ends in twelve zero bits, flags below it, and in the wide
  format no-execute above it.  So each reader finds what the writer put there.

  Main results:
    * `isPresent_encodeTable`, `addressField_encodeTable` — an entry that points at a table;
    * `isLarge_encodePage`, `addressField_encodePage`, `flags_encodePage` — an entry that maps
      a page.
-/

import KernelMemory.Paging.Entry

namespace KernelMemory

/-- The attributes as entries of a format hold them: no-execute in the wide format alone. -/
def PageFlags.heldBy (flags : PageFlags) (format : Format) : PageFlags :=
  { flags with noExecute := format == .wide && flags.noExecute }

namespace Format

/-- The flag bits of an entry that maps a page, below its address field. -/
def lowFlags (flags : PageFlags) (large : Bool) : Nat := commonFlags flags + flagBit large 7

theorem lowFlags_lt (flags : PageFlags) (large : Bool) : lowFlags flags large < 2 ^ 12 := by
  have hcommon := commonFlags_lt flags
  have hlarge := flagBit_le large 7
  simp only [lowFlags]
  omega

/-- The flags, bit by bit. -/
theorem testBit_lowFlags (flags : PageFlags) (large : Bool) :
    (lowFlags flags large).testBit 0 = true ∧ (lowFlags flags large).testBit 1 = flags.writable
      ∧ (lowFlags flags large).testBit 2 = flags.user
      ∧ (lowFlags flags large).testBit 3 = flags.writeThrough
      ∧ (lowFlags flags large).testBit 4 = flags.noCache
      ∧ (lowFlags flags large).testBit 7 = large
      ∧ (lowFlags flags large).testBit 8 = flags.global := by
  obtain ⟨writable, user, noExecute, global, writeThrough, noCache⟩ := flags
  simp only [lowFlags, commonFlags]
  -- no-execute is not among these bits; the others are few enough to try them all
  clear noExecute
  revert writable user global writeThrough noCache large
  decide

/-- An entry that maps a page, as no-execute, frame number and flags. -/
theorem encodePage_eq (format : Format) (frame : Nat) (flags : PageFlags) (level : Nat) :
    ∃ number, format.addressField level frame = 2 ^ 12 * number
      ∧ 2 ^ 12 * number + lowFlags flags (0 < level) < 2 ^ 63
      ∧ format.encodePage frame flags level = 2 ^ 63 * (format == .wide && flags.noExecute).toNat
          + (2 ^ 12 * number + lowFlags flags (0 < level)) := by
  have hmod := format.addressField_mod level frame
  have hlt := format.addressField_lt level frame
  have hlow := lowFlags_lt flags (0 < level)
  have hbits : format.addressBits ≤ 52 := by cases format <;> decide
  have hlt : format.addressField level frame < 2 ^ 52 :=
    Nat.lt_of_lt_of_le hlt (Nat.pow_le_pow_right (by decide) hbits)
  refine ⟨format.addressField level frame / 2 ^ 12, ?_, ?_, ?_⟩
  · simp only [frameSize] at hmod; omega
  · omega
  · simp only [frameSize] at hmod
    -- the field ends in twelve zero bits, so it is a number of frames
    have hfield : 2 ^ 12 * (format.addressField level frame / 2 ^ 12)
        = format.addressField level frame := by omega
    rw [hfield, encodePage, ← lowFlags]
    cases format with
    | narrow => simp [highFlags, show (narrow == wide) = false from rfl]
    | wide =>
      cases hx : flags.noExecute
      · simp [highFlags, hx, flagBit]
      · simp only [highFlags, hx, flagBit, if_true, Bool.and_true, beq_self_eq_true, Bool.toNat_true]
        omega

theorem testBit_encodePage (format : Format) (frame : Nat) (flags : PageFlags) (level : Nat)
    {j : Nat} (hj : j < 12) :
    (format.encodePage frame flags level).testBit j = (lowFlags flags (0 < level)).testBit j := by
  obtain ⟨number, -, hlt, heq⟩ := format.encodePage_eq frame flags level
  rw [heq, Nat.testBit_two_pow_mul_add _ hlt, if_pos (by omega),
    Nat.testBit_two_pow_mul_add _ (lowFlags_lt _ _), if_pos hj]

theorem testBit_encodePage_top (format : Format) (frame : Nat) (flags : PageFlags) (level : Nat) :
    (format.encodePage frame flags level).testBit 63 = (format == .wide && flags.noExecute) := by
  obtain ⟨number, -, hlt, heq⟩ := format.encodePage_eq frame flags level
  rw [heq, Nat.testBit_two_pow_mul_add _ hlt, if_neg (by omega)]
  cases (format == .wide && flags.noExecute) <;> rfl

/-! ## An entry that maps a page -/

theorem isPresent_encodePage (format : Format) (frame : Nat) (flags : PageFlags) (level : Nat) :
    RawEntry.isPresent (format.encodePage frame flags level) = true := by
  rw [RawEntry.isPresent, testBit_encodePage _ _ _ _ (by decide)]
  exact (testBit_lowFlags flags _).1

theorem isLarge_encodePage (format : Format) (frame : Nat) (flags : PageFlags) (level : Nat) :
    RawEntry.isLarge (format.encodePage frame flags level) = decide (0 < level) := by
  rw [RawEntry.isLarge, testBit_encodePage _ _ _ _ (by decide)]
  exact (testBit_lowFlags flags _).2.2.2.2.2.1

/-- The attributes that were written are read. -/
theorem flags_encodePage (format : Format) (frame : Nat) (flags : PageFlags) (level : Nat) :
    RawEntry.flags format (format.encodePage frame flags level) = flags.heldBy format := by
  obtain ⟨-, hwritable, huser, hthrough, hcache, -, hglobal⟩ := testBit_lowFlags flags (0 < level)
  simp only [RawEntry.flags, PageFlags.heldBy, testBit_encodePage_top,
    testBit_encodePage _ _ _ _ (show 1 < 12 by decide),
    testBit_encodePage _ _ _ _ (show 2 < 12 by decide),
    testBit_encodePage _ _ _ _ (show 3 < 12 by decide),
    testBit_encodePage _ _ _ _ (show 4 < 12 by decide),
    testBit_encodePage _ _ _ _ (show 8 < 12 by decide), hwritable, huser, hthrough, hcache, hglobal]
  cases format <;> rfl

/-- The frame that was written is read, if the format can name it at the level. -/
theorem addressField_encodePage {format : Format} {frame level : Nat} (flags : PageFlags)
    (hlt : frame < format.physicalEnd) (hmod : frame % format.addressUnit level = 0) :
    format.addressField level (format.encodePage frame flags level) = frame := by
  have hlow := lowFlags_lt flags (0 < level)
  rw [encodePage, ← lowFlags]
  cases format with
  | narrow =>
    have hlt : frame < 2 ^ 32 := hlt
    simp only [addressField, addressBits, floorTo,
      addressUnit, highFlags, frameSize] at *
    split at hmod
    · rw [if_pos ‹_›]; omega
    · rw [if_neg ‹_›]; omega
  | wide =>
    have hlt : frame < 2 ^ 52 := hlt
    have hx := flagBit_le flags.noExecute 63
    have hx' : flagBit flags.noExecute 63 % 2 ^ 52 = 0 := by
      cases flags.noExecute <;> rfl
    simp only [addressField, addressBits, floorTo,
      addressUnit, highFlags, frameSize] at *
    omega

/-! ## An entry that points at a table -/

theorem encodeTable_eq (format : Format) (frame : Nat) (user : Bool) :
    ∃ number, format.encodeTable frame user = 2 ^ 12 * number + (3 + flagBit user 2) := by
  have hmod := format.addressField_mod 0 frame
  refine ⟨format.addressField 0 frame / 2 ^ 12, ?_⟩
  simp only [encodeTable, flagBit, if_true, frameSize] at *
  omega

theorem testBit_encodeTable (format : Format) (frame : Nat) (user : Bool) {j : Nat} (hj : j < 12) :
    (format.encodeTable frame user).testBit j = (3 + flagBit user 2).testBit j := by
  obtain ⟨number, heq⟩ := format.encodeTable_eq frame user
  have hlt : 3 + flagBit user 2 < 2 ^ 12 := by
    have := flagBit_le user 2
    omega
  rw [heq, Nat.testBit_two_pow_mul_add _ hlt, if_pos hj]

theorem isPresent_encodeTable (format : Format) (frame : Nat) (user : Bool) :
    RawEntry.isPresent (format.encodeTable frame user) = true := by
  rw [RawEntry.isPresent, testBit_encodeTable _ _ _ (by decide)]
  cases user <;> rfl

theorem isLarge_encodeTable (format : Format) (frame : Nat) (user : Bool) :
    RawEntry.isLarge (format.encodeTable frame user) = false := by
  rw [RawEntry.isLarge, testBit_encodeTable _ _ _ (by decide)]
  cases user <;> rfl

theorem addressField_encodeTable {format : Format} {frame : Nat} (user : Bool)
    (hlt : frame < format.physicalEnd) (hmod : frame % frameSize = 0) :
    format.addressField 0 (format.encodeTable frame user) = frame := by
  have huser := flagBit_le user 2
  rw [encodeTable, show flagBit true 0 = 1 from rfl, show flagBit true 1 = 2 from rfl]
  cases format with
  | narrow =>
    have hlt : frame < 2 ^ 32 := hlt
    simp only [addressField, addressBits, floorTo, addressUnit, if_true, frameSize] at *
    omega
  | wide =>
    have hlt : frame < 2 ^ 52 := hlt
    simp only [addressField, addressBits, floorTo, addressUnit, frameSize] at *
    omega

end Format

end KernelMemory
