/-
  KernelMemory.Size — byte counts and hexadecimal numbers as text.

  A size is shown in the largest binary unit that is not larger than it, with at most
  two decimals, cut off and without trailing zeros.  Integer arithmetic only.
-/

import KernelMemory.Fault

namespace KernelMemory

/-- A number in lower-case hexadecimal with the usual leading mark. -/
def hex (n : Nat) : String := "0x" ++ String.ofList (Nat.toDigits 16 n)

namespace Size

/-- Binary units in ascending order; each is 1024 times the one before it. -/
def units : List String := ["B", "KiB", "MiB", "GiB", "TiB", "PiB", "EiB"]

/-- Position in `units` of the largest unit that fits into `bytes`. -/
def unitOf (bytes : Nat) : Nat := min (bytes.log2 / 10) 6

/-- Hundredths of a unit beyond the whole ones, cut off. -/
def hundredths (bytes : Nat) : Nat :=
  let divisor := 2 ^ (10 * unitOf bytes)
  bytes % divisor * 100 / divisor

/-- The decimals after the whole number: none, one or two digits. -/
def decimals (h : Nat) : String :=
  if h = 0 then ""
  else if h % 10 = 0 then s!".{h / 10}"
  else if h < 10 then s!".0{h}"
  else s!".{h}"

/-- The size in words a person reads, such as `1.5KiB`. -/
def text (bytes : Nat) : String :=
  let whole := bytes / 2 ^ (10 * unitOf bytes)
  let unit := units.getD (unitOf bytes) ""
  s!"{whole}{decimals (hundredths bytes)}{unit}"

theorem unitOf_lt (bytes : Nat) : unitOf bytes < units.length := by
  simp only [unitOf, units, List.length_cons, List.length_nil]; omega

theorem hundredths_lt (bytes : Nat) : hundredths bytes < 100 := by
  have hpos : 0 < 2 ^ (10 * unitOf bytes) := Nat.two_pow_pos _
  unfold hundredths
  rw [Nat.div_lt_iff_lt_mul hpos]
  have := Nat.mod_lt bytes hpos
  omega

end Size

end KernelMemory
