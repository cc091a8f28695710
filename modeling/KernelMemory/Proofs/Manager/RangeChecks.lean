/-
  KernelMemory.Proofs.Manager.RangeChecks — the checks that a range goes through before it is mapped.

  Of a range only its first and last addresses are looked at.  The addresses a format can translate
  are one run or, with a gap between them, two; so the ends being in one run is as good as every
  address being in range.  The runs are made of whole pages, and so the pages that cover a range are
  in range when it is.

  Main results:
    * `PageCover.inRange_iff` — the cover of a range is in range exactly if the range is;
    * `checkRange_eq_ok_iff`, `checkRange_eq_error_iff` — which ranges are let through;
    * `range_checks_exact` — both checks are exact.
-/

import KernelMemory.Proofs.Manager.PageCover

namespace KernelMemory

open Manager

variable {format : Format} {first last virt phys size v length : Nat}

/-- A format can express a range of bytes and its frames: neither leaves the word, and it has entries
for all of them. -/
structure Expressible (format : Format) (virt phys size : Nat) : Prop where
  virtEnd : virt + (size - 1) < Word.bound
  physEnd : phys + (size - 1) < Word.bound
  virtual : ∀ a, virt ≤ a → a < virt + size → format.virtualInRange a = true
  physical : ∀ b, phys ≤ b → b < phys + size → b < format.physicalEnd

/-- The check lets through what the format can express. -/
theorem checkRange_eq_ok_iff (hsize : 0 < size) :
    checkRange format virt phys size = .ok () ↔ Expressible format virt phys size := by
  constructor
  · intro h
    obtain ⟨hvirt, hphys, hrange⟩ := checkRange_eq_ok hsize h
    have hall := (Format.virtualRangeInRange_iff.mp hrange).2
    have hword := lt_bound_of_checkRange hsize h
    exact ⟨hvirt, by omega, fun a ha ha' => hall a ha (by omega), fun b _ hb => by omega⟩
  · intro h
    have hlast := h.physical (phys + (size - 1)) (Nat.le_add_right _ _) (by omega)
    exact checkRange_of_inRange hsize h.virtual (by omega)

/-- It refuses all else. -/
theorem checkRange_eq_error_iff (hsize : 0 < size) :
    checkRange format virt phys size = .error .addressOutOfRange
      ↔ ¬ Expressible format virt phys size := by
  rw [← checkRange_eq_ok_iff hsize]
  cases hcheck : checkRange format virt phys size with
  | ok _ => simp
  | error error => simp [error_of_checkRange hcheck]

/-- The cover of a range is in range exactly if the range is, since each of its pages holds an
address of the range. -/
theorem PageCover.inRange_iff (h : PageCover virt size v length) (hsize : 0 < size) :
    (∀ a, v ≤ a → a < v + length → format.virtualInRange a = true)
      ↔ ∀ a, virt ≤ a → a < virt + size → format.virtualInRange a = true := by
  have hpage := h.page
  have hcovers := h.covers
  constructor
  · intro hall a ha ha'
    exact hall a (Nat.le_trans hpage.le ha) (by omega)
  · intro hall w hw hw'
    obtain ⟨a, ⟨ha, ha'⟩, hsame⟩ :=
      exists_mem_page hsize hpage.aligned hpage.le hpage.lt h.pages h.end_lt hw hw'
    exact Format.inRange_page hsame (hall a ha ha')

/-- What the format can express has pages that cover it, all in range. -/
theorem Expressible.exists_bounds (h : Expressible format virt phys size) (hsize : 0 < size) :
    ∃ v p length, pageBounds virt phys size = some (v, p, length) ∧ PageCover virt size v length
      ∧ ∀ a, v ≤ a → a < v + length → format.virtualInRange a = true := by
  have hlast := h.physical (phys + (size - 1)) (Nat.le_add_right _ _) (by omega)
  have hend := format.physicalEnd_le
  have hsmall : size ≤ 2 ^ 52 := by omega
  obtain ⟨v, p, length, hbounds⟩ := exists_pageBounds virt phys hsmall
  have hcover := pageCover_of_bounds hbounds
  exact ⟨v, p, length, hbounds, hcover, (hcover.inRange_iff hsize).mpr h.virtual⟩

/-! ## Exact checks -/

/-- What is checked of the ends of a range, and of a range and its frames, is so of every address. -/
structure ExactChecks (format : Format) (first last virt phys size : Nat) : Prop where
  ends : format.virtualRangeInRange first last = true
    ↔ first ≤ last ∧ ∀ a, first ≤ a → a ≤ last → format.virtualInRange a = true
  passes : checkRange format virt phys size = .ok () ↔ Expressible format virt phys size
  refuses : checkRange format virt phys size = .error .addressOutOfRange
    ↔ ¬ Expressible format virt phys size
  /-- A range that passes can be rounded out to pages, which are in range too. -/
  cover : checkRange format virt phys size = .ok () →
    ∃ v p length, pageBounds virt phys size = some (v, p, length) ∧ PageCover virt size v length
      ∧ ∀ a, v ≤ a → a < v + length → format.virtualInRange a = true

/-- The checks are exact for all ends and for all ranges that are not empty. -/
theorem range_checks_exact (format : Format) (first last virt phys : Nat) {size : Nat}
    (hsize : 0 < size) : ExactChecks format first last virt phys size where
  ends := Format.virtualRangeInRange_iff
  passes := checkRange_eq_ok_iff hsize
  refuses := checkRange_eq_error_iff hsize
  cover := fun h => ((checkRange_eq_ok_iff hsize).mp h).exists_bounds hsize

/-- The last bytes below the gap pass the check, and the ends of a range across the gap do not. -/
theorem range_checks_exact_gap :
    0 < 0x800 ∧ ExactChecks .wide 0x7ffffffff000 0xffff800000000000 0x7ffffffff800 0x1000 0x800
      ∧ Expressible .wide 0x7ffffffff800 0x1000 0x800
      ∧ ¬ ∀ a, 0x7ffffffff000 ≤ a → a ≤ 0xffff800000000000 → Format.wide.virtualInRange a = true := by
  have hsize : 0 < 0x800 := by decide
  have h := range_checks_exact .wide 0x7ffffffff000 0xffff800000000000 0x7ffffffff800 0x1000 hsize
  refine ⟨hsize, h, h.passes.mp (by decide), fun hall => ?_⟩
  have hends := h.ends.mpr ⟨by decide, hall⟩
  exact absurd hends (by decide)

end KernelMemory
