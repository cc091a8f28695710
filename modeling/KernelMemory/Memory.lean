/-
  KernelMemory.Memory — the contents of physical memory, one frame at a time.

  Memory is sparse: frames are kept once written, and a frame never written reads as zeros.
  A page is the 4096 bytes of one frame; tables are read from it as little-endian entries.

  Main results:
    * `read_write_same`, `read_write_other` — a write changes its own frame and no other;
    * `Page.entry_ofEntries` — a page written as entries reads back as those entries.
-/

import Std.Data.TreeMap
import KernelMemory.Address

namespace KernelMemory

/-! ## Pages -/

/-- The contents of one frame. -/
abbrev Page := Vector UInt8 frameSize

/-- The number written by `count` bytes, the lowest first. -/
def ofBytes (byte : Nat → UInt8) : Nat → Nat
  | 0 => 0
  | count + 1 => (byte 0).toNat + 256 * ofBytes (fun i => byte (i + 1)) count

/-- Byte `place` of a number, counted from the lowest. -/
def byteOf (n place : Nat) : UInt8 := UInt8.ofNat (n / 256 ^ place)

namespace Page

/-- A page of zeros. -/
def zero : Page := Vector.replicate frameSize 0

/-- The page that holds the given entries of `width` bytes, one after the other; entries
that are not given are zero. -/
def ofEntries (width : Nat) (entries : Array Nat) : Page :=
  Vector.ofFn fun i => byteOf (entries.getD (i.val / width) 0) (i.val % width)

/-- Entry `index` of a page split into entries of `width` bytes. -/
def entry (width : Nat) (page : Page) (index : Nat) : Nat :=
  ofBytes (fun i => page[index * width + i]?.getD 0) width

/-- All entries of a page split into entries of `width` bytes. -/
def entries (width : Nat) (page : Page) : List Nat :=
  (List.range (frameSize / width)).map (entry width page)

end Page

/-! ## Frames -/

/-- The frames written so far, by frame number. -/
structure Memory where
  frames : Std.TreeMap FrameNumber Page

namespace Memory

/-- Memory in which nothing was written. -/
def blank : Memory := ⟨∅⟩

/-- Overwrites the frame at an address. -/
def write (memory : Memory) (address : PhysAddr) (page : Page) : Memory :=
  ⟨memory.frames.insert address.frame page⟩

/-- The contents of the frame at an address. -/
def read (memory : Memory) (address : PhysAddr) : Page :=
  memory.frames.getD address.frame Page.zero

/-- `write`, for an address that must be the start of a frame. -/
def checkedWrite (memory : Memory) (address : PhysAddr) (page : Page) : Except Fault Memory :=
  if address % frameSize = 0 then .ok (memory.write address page) else .error .frameMisaligned

/-- `read`, for an address that must be the start of a frame. -/
def checkedRead (memory : Memory) (address : PhysAddr) : Except Fault Page :=
  if address % frameSize = 0 then .ok (memory.read address) else .error .frameMisaligned

/-- Number of frames ever written. -/
def resident (memory : Memory) : Nat := memory.frames.size

@[simp] theorem read_blank (address : PhysAddr) : blank.read address = Page.zero := by
  simp [blank, read]

@[simp] theorem read_write_same (memory : Memory) (address : PhysAddr) (page : Page) :
    (memory.write address page).read address = page := by
  simp [read, write]

theorem read_write_other (memory : Memory) {a b : PhysAddr} (page : Page)
    (h : a.frame ≠ b.frame) : (memory.write a page).read b = memory.read b := by
  simp [read, write, Std.TreeMap.getD_insert, h]

end Memory

/-! ## Entries read back -/

theorem toNat_byteOf (n place : Nat) : (byteOf n place).toNat = n / 256 ^ place % 256 := by
  simp [byteOf]

theorem ofBytes_byteOf (n count : Nat) :
    ∀ place, ofBytes (fun i => byteOf n (place + i)) count = n / 256 ^ place % 256 ^ count := by
  induction count with
  | zero => intro place; simp [ofBytes, Nat.mod_one]
  | succ count ih =>
    intro place
    have hshift : (fun i => byteOf n (place + (i + 1))) = fun i => byteOf n (place + 1 + i) := by
      funext i; congr 1; omega
    simp only [ofBytes, Nat.add_zero, toNat_byteOf, hshift, ih]
    rw [Nat.pow_succ 256 place, ← Nat.div_div_eq_div_mul, Nat.pow_succ', Nat.mod_mul]

theorem ofBytes_congr {f g : Nat → UInt8} :
    ∀ {count : Nat}, (∀ i, i < count → f i = g i) → ofBytes f count = ofBytes g count := by
  intro count
  induction count generalizing f g with
  | zero => intro _; rfl
  | succ count ih =>
    intro h
    simp only [ofBytes, h 0 (Nat.succ_pos _)]
    rw [ih fun i hi => h (i + 1) (by omega)]

/-- Entry `index` of a page made of entries is the given entry, cut to its width. -/
theorem Page.entry_ofEntries {width index : Nat} (entries : Array Nat)
    (hfit : index * width + width ≤ frameSize) :
    (Page.ofEntries width entries).entry width index = entries.getD index 0 % 256 ^ width := by
  have hbytes : ∀ i, i < width →
      (Page.ofEntries width entries)[index * width + i]?.getD 0 =
        byteOf (entries.getD index 0) (0 + i) := by
    intro i hi
    have hlt : index * width + i < frameSize := by omega
    have hdiv : (index * width + i) / width = index := by
      rw [Nat.mul_comm, Nat.mul_add_div (by omega), Nat.div_eq_of_lt hi, Nat.add_zero]
    have hmod : (index * width + i) % width = i := by
      rw [Nat.mul_comm, Nat.mul_add_mod, Nat.mod_eq_of_lt hi]
    simp [Page.ofEntries, Vector.getElem?_eq_getElem hlt, hdiv, hmod]
  rw [Page.entry, ofBytes_congr hbytes, ofBytes_byteOf]
  simp

end KernelMemory
