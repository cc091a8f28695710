/-
  KernelMemory.Proofs.Paging.Indexing — indices and addresses.

  The indices of an address at the levels from some level up say in which block of that
  level the address lies; two addresses a format can translate lie in one block exactly when
  they have these indices in common.  Ranges are rounded out to pages; a range that passed
  its check stays in range when it is.

  Main results:
    * `together_iff_div` — indices in common are a block in common;
    * `index_top_lt_iff` — the lower half of the root is the lower half of the addresses;
    * `virtualRangeInRange_iff` — what the ends of a range tell of all its addresses;
    * `checkRange_cover`, `userRange_cover` — the pages of a range that was checked.
-/

import KernelMemory.Manager.Mapping

namespace KernelMemory

namespace Format

/-! ## Blocks -/

/-- Two addresses take the same way down to the entry of a level, and through it. -/
def Together (format : Format) (level v w : Nat) : Prop :=
  ∀ l, level ≤ l → l ≤ format.topLevel → format.index v l = format.index w l

theorem Together.mono {format : Format} {level level' v w : Nat} (hle : level ≤ level')
    (h : format.Together level v w) : format.Together level' v w :=
  fun l hl htop => h l (Nat.le_trans hle hl) htop

theorem inRange_narrow {v : Nat} : narrow.virtualInRange v = true ↔ v < 2 ^ 32 := by
  simp [virtualInRange]

theorem inRange_wide {v : Nat} :
    wide.virtualInRange v = true ↔ v / 2 ^ 47 = 0 ∨ v / 2 ^ 47 = 2 ^ 17 - 1 := by
  simp [virtualInRange]

/-- An address a format can translate is a word. -/
theorem lt_bound_of_inRange {format : Format} {v : Nat} (h : format.virtualInRange v = true) :
    v < Word.bound := by
  cases format with
  | narrow => have := inRange_narrow.mp h; simp only [Word.bound]; omega
  | wide => have := inRange_wide.mp h; simp only [Word.bound]; omega

theorem div_span_succ (format : Format) (v level : Nat) :
    v / format.span level / format.entries = v / format.span (level + 1) := by
  rw [Nat.div_div_eq_div_mul, ← span_succ]

/-- Equal root indices are a block of the root in common: both addresses are in one half,
where the bits above the index are equal too. -/
theorem div_top_eq {format : Format} {v w : Nat} (hv : format.virtualInRange v = true)
    (hw : format.virtualInRange w = true)
    (h : format.index v format.topLevel = format.index w format.topLevel) :
    v / format.span format.topLevel = w / format.span format.topLevel := by
  cases format with
  | narrow =>
    have hv := inRange_narrow.mp hv
    have hw := inRange_narrow.mp hw
    have h : v / 2 ^ 22 % 1024 = w / 2 ^ 22 % 1024 := h
    show v / 2 ^ 22 = w / 2 ^ 22
    omega
  | wide =>
    have hv := inRange_wide.mp hv
    have hw := inRange_wide.mp hw
    -- in range, the bits above the index are all clear or all set, as its highest bit is
    have hvtop : v / 2 ^ 39 < 256 ∨ 33554176 ≤ v / 2 ^ 39 ∧ v / 2 ^ 39 < 33554432 := by omega
    have hwtop : w / 2 ^ 39 < 256 ∨ 33554176 ≤ w / 2 ^ 39 ∧ w / 2 ^ 39 < 33554432 := by omega
    have h : v / 2 ^ 39 % 512 = w / 2 ^ 39 % 512 := h
    show v / 2 ^ 39 = w / 2 ^ 39
    generalize v / 2 ^ 39 = x at h hvtop ⊢
    generalize w / 2 ^ 39 = y at h hwtop ⊢
    omega

/-- From the root down, one index more in common is a smaller block in common. -/
theorem Together.div_eq {format : Format} {v w : Nat} (hv : format.virtualInRange v = true)
    (hw : format.virtualInRange w = true) :
    ∀ {steps level : Nat}, level + steps = format.topLevel → format.Together level v w →
      v / format.span level = w / format.span level := by
  intro steps
  induction steps with
  | zero =>
    intro level hlevel h
    obtain rfl : level = format.topLevel := by omega
    exact div_top_eq hv hw (h _ (Nat.le_refl _) (Nat.le_refl _))
  | succ steps ih =>
    intro level hlevel h
    have habove := ih (show level + 1 + steps = format.topLevel by omega) (h.mono (by omega))
    have hindex : v / format.span level % format.entries = w / format.span level % format.entries :=
      h level (Nat.le_refl _) (by omega)
    rw [← div_span_succ, ← div_span_succ] at habove
    -- a block is told by the block above it and the index in that
    rw [← Nat.div_add_mod (v / format.span level) format.entries, habove, hindex,
      Nat.div_add_mod]

theorem together_iff_div {format : Format} {level v w : Nat} (hlevel : level ≤ format.topLevel)
    (hv : format.virtualInRange v = true) (hw : format.virtualInRange w = true) :
    format.Together level v w ↔ v / format.span level = w / format.span level := by
  refine ⟨Together.div_eq hv hw (Nat.add_sub_cancel' hlevel), fun h l hl _ => ?_⟩
  have hspan : format.span l = format.span level * 2 ^ ((l - level) * format.indexBits) := by
    rw [span, span, ← Nat.pow_add, Nat.add_assoc, ← Nat.add_mul]
    congr 3; omega
  rw [index, index, hspan, ← Nat.div_div_eq_div_mul, ← Nat.div_div_eq_div_mul, h]

/-- The addresses of an in-range block are those that have the indices from its level up in
common. -/
theorem together_iff_mem {format : Format} {level v w : Nat} (hlevel : level ≤ format.topLevel)
    (hmod : v % format.span level = 0) (hv : format.virtualInRange v = true)
    (hw : format.virtualInRange w = true) :
    format.Together level v w ↔ v ≤ w ∧ w < v + format.span level := by
  have hpos := format.span_pos level
  obtain ⟨k, rfl⟩ := Nat.dvd_of_mod_eq_zero hmod
  rw [together_iff_div hlevel hv hw, Nat.mul_div_cancel_left _ hpos, eq_comm,
    Nat.div_eq_iff hpos, Nat.mul_comm k]
  omega

/-- Blocks are made of whole blocks of the levels below. -/
theorem span_dvd (format : Format) {level level' : Nat} (h : level ≤ level') :
    format.span level ∣ format.span level' :=
  Nat.pow_dvd_pow 2 (Nat.add_le_add_left (Nat.mul_le_mul_right _ h) _)

/-- Inside a block the offset in a larger block goes on as the address does. -/
theorem mod_span_of_mem {format : Format} {level level' v w : Nat} (hle : level ≤ level')
    (hmod : v % format.span level = 0) (hw : v ≤ w) (hlt : w < v + format.span level) :
    w % format.span level' = v % format.span level' + (w - v) := by
  obtain ⟨c, hc⟩ := format.span_dvd hle
  obtain ⟨k, rfl⟩ := Nat.dvd_of_mod_eq_zero hmod
  obtain ⟨x, rfl⟩ := Nat.exists_eq_add_of_le hw
  have hx : x < format.span level := by omega
  have hpos : 0 < format.span level := format.span_pos level
  have hcpos : 0 < c := Nat.pos_of_ne_zero fun hzero => by
    have := format.span_pos level'
    rw [hc, hzero] at this
    exact absurd this (Nat.lt_irrefl 0)
  -- the block is one of the `c` blocks that the larger one is made of
  rw [hc, Nat.add_sub_cancel_left, Nat.mul_mod_mul_left, Nat.mod_mul]
  rw [Nat.mul_add_mod, Nat.mod_eq_of_lt hx, Nat.mul_add_div hpos, Nat.div_eq_of_lt hx,
    Nat.add_zero, Nat.add_comm]

/-- The address in range with the bits that indices and offset are made of: those above them are
clear in the one format, and copies of the highest of them in the other. -/
def folded : Format → VirtAddr → Nat
  | narrow, v => v % 2 ^ 32
  | wide, v => if v % 2 ^ 48 < 2 ^ 47 then v % 2 ^ 48 else v % 2 ^ 48 + (2 ^ 16 - 1) * 2 ^ 48

theorem folded_wide (v : Nat) :
    v % 2 ^ 48 < 2 ^ 47 ∧ folded wide v = v % 2 ^ 48
      ∨ 2 ^ 47 ≤ v % 2 ^ 48 ∧ folded wide v = v % 2 ^ 48 + (2 ^ 16 - 1) * 2 ^ 48 := by
  by_cases hlow : v % 2 ^ 48 < 2 ^ 47
  · exact .inl ⟨hlow, if_pos hlow⟩
  · exact .inr ⟨Nat.not_lt.mp hlow, if_neg hlow⟩

theorem inRange_folded (format : Format) (v : Nat) :
    format.virtualInRange (format.folded v) = true := by
  cases format with
  | narrow => exact inRange_narrow.mpr (Nat.mod_lt _ (by decide))
  | wide =>
    have hfolded := folded_wide v
    exact inRange_wide.mpr (by omega)

/-- Of the addresses in range it is the only one with these bits. -/
theorem eq_folded_iff {format : Format} {v w : Nat} (hw : format.virtualInRange w = true) :
    w = format.folded v ↔ w % (format.span format.topLevel * format.entries)
      = v % (format.span format.topLevel * format.entries) := by
  cases format with
  | narrow =>
    have hw := inRange_narrow.mp hw
    show w = v % 2 ^ 32 ↔ w % 2 ^ 32 = v % 2 ^ 32
    omega
  | wide =>
    have hw := inRange_wide.mp hw
    have hfolded := folded_wide v
    show w = folded wide v ↔ w % 2 ^ 48 = v % 2 ^ 48
    omega

theorem folded_eq_self_iff {format : Format} {v : Nat} :
    format.folded v = v ↔ format.virtualInRange v = true := by
  refine ⟨fun h => h ▸ format.inRange_folded v, fun h => ?_⟩
  exact ((eq_folded_iff h).mpr rfl).symm

/-- Every address is translated like one that is in range: bits beyond those that the indices
and the offset are made of are not looked at. -/
theorem exists_inRange_alias (format : Format) (w : Nat) :
    ∃ v : Nat, format.virtualInRange v = true
      ∧ v % (format.span format.topLevel * format.entries)
        = w % (format.span format.topLevel * format.entries) :=
  ⟨format.folded w, format.inRange_folded w, (eq_folded_iff (format.inRange_folded w)).mp rfl⟩

/-- The index and the offset at a level of the tables are made of these bits. -/
theorem index_mod_span_congr {format : Format} {v w level : Nat} (hlevel : level ≤ format.topLevel)
    (h : v % (format.span format.topLevel * format.entries)
      = w % (format.span format.topLevel * format.entries)) :
    format.index v level = format.index w level
      ∧ v % format.span level = w % format.span level := by
  have hdvd : format.span level * format.entries
      ∣ format.span format.topLevel * format.entries :=
    Nat.mul_dvd_mul_right (format.span_dvd hlevel) _
  have hmod : v % (format.span level * format.entries) = w % (format.span level * format.entries) := by
    rw [← Nat.mod_mod_of_dvd v hdvd, h, Nat.mod_mod_of_dvd w hdvd]
  refine ⟨?_, ?_⟩
  · rw [index, index, ← Nat.mod_mul_right_div_self, hmod, Nat.mod_mul_right_div_self]
  · rw [← Nat.mod_mul_right_mod v _ format.entries, hmod, Nat.mod_mul_right_mod]

/-- The root index is below the split exactly in the lower half of the addresses. -/
theorem index_top_lt_iff {format : Format} {v : Nat} (hv : format.virtualInRange v = true) :
    format.index v format.topLevel < format.userSplit ↔ v < format.userEnd := by
  cases format with
  | narrow =>
    have hv := inRange_narrow.mp hv
    show v / 2 ^ 22 % 1024 < 512 ↔ v < 512 * 2 ^ 22
    omega
  | wide =>
    have hv := inRange_wide.mp hv
    show v / 2 ^ 39 % 512 < 256 ↔ v < 256 * 2 ^ 39
    omega

theorem userSplit_le_entries (format : Format) : format.userSplit ≤ format.entries := by
  cases format <;> decide

theorem topLevel_add_one (format : Format) : format.topLevel + 1 = format.levels := by
  cases format <;> rfl

theorem topLevel_lt_levels (format : Format) : format.topLevel < format.levels := by
  cases format <;> decide

theorem span_mono (format : Format) {level level' : Nat} (h : level ≤ level') :
    format.span level ≤ format.span level' :=
  Nat.pow_le_pow_right (by omega) (by have := Nat.mul_le_mul_right format.indexBits h; omega)

/-- Blocks of the tables' levels are far shorter than a word. -/
theorem span_le (format : Format) {level : Nat} (h : level ≤ format.topLevel) :
    format.span level ≤ 2 ^ 39 := by
  refine Nat.le_trans (format.span_mono h) ?_
  cases format <;> decide

/-- The words are divided into whole blocks. -/
theorem span_dvd_bound (format : Format) {level : Nat} (h : level ≤ format.topLevel) :
    format.span level ∣ Word.bound := by
  refine Nat.dvd_trans (format.span_dvd h) ?_
  cases format <;> decide

theorem physicalEnd_le (format : Format) : format.physicalEnd ≤ 2 ^ 52 := by
  cases format <;> decide

theorem physicalEnd_mod (format : Format) : format.physicalEnd % frameSize = 0 := by
  cases format <;> decide

/-- Addresses below the user end can be translated. -/
theorem inRange_of_lt_userEnd {format : Format} {v : Nat} (h : v < format.userEnd) :
    format.virtualInRange v = true := by
  cases format with
  | narrow =>
    have h : v < 512 * 2 ^ 22 := h
    exact inRange_narrow.mpr (by omega)
  | wide =>
    have h : v < 256 * 2 ^ 39 := h
    exact inRange_wide.mpr (by omega)

/-- Looking at the two ends of a range, and at the halves they are in, is as good as looking at
every address of it. -/
theorem virtualRangeInRange_iff {format : Format} {first last : Nat} :
    format.virtualRangeInRange first last = true
      ↔ first ≤ last ∧ ∀ a, first ≤ a → a ≤ last → format.virtualInRange a = true := by
  cases format with
  | narrow =>
    simp only [virtualRangeInRange, Bool.and_true, Bool.and_eq_true, decide_eq_true_eq,
      inRange_narrow]
    constructor
    · rintro ⟨⟨hle, -⟩, hlast⟩
      exact ⟨hle, fun a _ ha => by omega⟩
    · rintro ⟨hle, hall⟩
      exact ⟨⟨hle, hall first (Nat.le_refl _) hle⟩, hall last hle (Nat.le_refl _)⟩
  | wide =>
    simp only [virtualRangeInRange, Bool.and_eq_true, decide_eq_true_eq, beq_iff_eq, inRange_wide]
    constructor
    · rintro ⟨⟨⟨hle, hfirst⟩, hlast⟩, hhalf⟩
      have hhalf : first / 2 ^ 63 = last / 2 ^ 63 := hhalf
      -- ends in one half are on one side of the gap, and so is what is between them
      exact ⟨hle, fun a ha ha' => by omega⟩
    · rintro ⟨hle, hall⟩
      have hfirst := hall first (Nat.le_refl _) hle
      have hlast := hall last hle (Nat.le_refl _)
      have hhalf : first / 2 ^ 63 = last / 2 ^ 63 := by
        by_cases hsplit : first < 2 ^ 47 ∧ 2 ^ 47 ≤ last
        · -- a range with ends on both sides of the gap goes through the gap
          have hgap := hall (2 ^ 47) (by omega) hsplit.2
          omega
        · omega
      exact ⟨⟨⟨hle, hfirst⟩, hlast⟩, hhalf⟩

/-- Pages are in range as a whole or not at all. -/
theorem inRange_page {format : Format} {a b : Nat} (h : a / frameSize = b / frameSize)
    (ha : format.virtualInRange a = true) : format.virtualInRange b = true := by
  cases format with
  | narrow =>
    have ha := inRange_narrow.mp ha
    simp only [frameSize] at h
    exact inRange_narrow.mpr (by omega)
  | wide =>
    have ha := inRange_wide.mp ha
    simp only [frameSize] at h
    exact inRange_wide.mpr (by omega)

theorem exists_mul_eq_userEnd (format : Format) : ∃ k : Nat, k * frameSize = format.userEnd := by
  cases format
  · exact ⟨2 ^ 19, by decide⟩
  · exact ⟨2 ^ 35, by decide⟩

end Format

/-! ## Ranges rounded out to pages -/

/-- The bounds of a range start with the pages of its addresses, and their length is rounded up from
the first page on; there are none if that is no word. -/
theorem pageBounds_eq (virt phys size : Nat) :
    pageBounds virt phys size
      = if ceilTo frameSize (virt % frameSize + size) < Word.bound then
          some (floorTo frameSize virt, floorTo frameSize phys,
            ceilTo frameSize (virt % frameSize + size))
        else none := by
  have hle := le_ceilTo (show 0 < frameSize by decide) (virt % frameSize + size)
  unfold pageBounds
  by_cases hword : ceilTo frameSize (virt % frameSize + size) < Word.bound
  · have hbytes : Word.add? (VirtAddr.pageOffset virt) size = some (virt % frameSize + size) :=
      Word.add?_eq_some_iff.mpr ⟨Nat.lt_of_le_of_lt hle hword, rfl⟩
    have hlength : Word.mul? ((virt % frameSize + size + (frameSize - 1)) / frameSize) frameSize
        = some (ceilTo frameSize (virt % frameSize + size)) := if_pos hword
    rw [if_pos hword, hbytes]
    simp only [Option.bind_eq_bind, Option.bind_some, hlength]
    rfl
  · rw [if_neg hword]
    -- the sum may be no word already, and if it is one, its pages are not
    cases hbytes : Word.add? (VirtAddr.pageOffset virt) size with
    | none => rfl
    | some bytes =>
      obtain ⟨-, rfl⟩ := Word.add?_eq_some_iff.mp hbytes
      have hlength : Word.mul? ((virt % frameSize + size + (frameSize - 1)) / frameSize) frameSize
          = none := if_neg hword
      simp only [Option.bind_eq_bind, Option.bind_some, VirtAddr.pageOffset, hlength]
      rfl

/-- What the rounded bounds of a range are. -/
theorem pageBounds_spec {virt phys size v p length : Nat}
    (h : pageBounds virt phys size = some (v, p, length)) :
    v % frameSize = 0 ∧ p % frameSize = 0 ∧ length % frameSize = 0
      ∧ v ≤ virt ∧ virt < v + frameSize ∧ p ≤ phys ∧ phys < p + frameSize
      ∧ virt + size ≤ v + length ∧ v + length < virt + size + frameSize := by
  rw [pageBounds_eq] at h
  split at h
  · simp only [Option.some.injEq, Prod.mk.injEq] at h
    obtain ⟨rfl, rfl, rfl⟩ := h
    simp only [floorTo, ceilTo, frameSize] at *
    omega
  · cases h

/-- Every page that covers a range holds an address of it. -/
theorem exists_mem_page {virt size v length w : Nat} (hsize : 0 < size) (hv : v % frameSize = 0)
    (hle : v ≤ virt) (hlt : virt < v + frameSize) (hlength : length % frameSize = 0)
    (hend : v + length < virt + size + frameSize) (hw : v ≤ w) (hw' : w < v + length) :
    ∃ a, (virt ≤ a ∧ a < virt + size) ∧ a / frameSize = w / frameSize := by
  simp only [frameSize] at *
  by_cases hfirst : w < v + 4096
  · exact ⟨virt, ⟨Nat.le_refl _, by omega⟩, by omega⟩
  · -- beyond the first page, the first byte of the page is in the range
    exact ⟨w / 4096 * 4096, ⟨by omega, by omega⟩, by omega⟩

/-- A range no larger than physical memory can be has pages that cover it. -/
theorem exists_pageBounds {size : Nat} (virt phys : Nat) (h : size ≤ 2 ^ 52) :
    ∃ v p length, pageBounds virt phys size = some (v, p, length) := by
  have hword : ceilTo frameSize (virt % frameSize + size) < Word.bound := by
    have hoffset := Nat.mod_lt virt (show 0 < frameSize by decide)
    have hceil := ceilTo_lt_add (show 0 < frameSize by decide) (virt % frameSize + size)
    have hroom : 2 ^ 52 + (frameSize + frameSize) < Word.bound := by decide
    omega
  rw [pageBounds_eq, if_pos hword]
  exact ⟨_, _, _, rfl⟩

/-- A range of whole pages is not rounded. -/
theorem pageBounds_of_pages {virt phys size : Nat} (hvirt : virt % frameSize = 0)
    (hphys : phys % frameSize = 0) (hsize : size % frameSize = 0) (hword : size < Word.bound) :
    pageBounds virt phys size = some (virt, phys, size) := by
  have hlength : ceilTo frameSize (virt % frameSize + size) = size := by
    simp only [ceilTo, frameSize] at *
    omega
  rw [pageBounds_eq, hlength, if_pos hword, floorTo_eq_self hvirt, floorTo_eq_self hphys]

namespace Manager

theorem checkRange_eq_ok {format : Format} {virt phys size : Nat} (hsize : 0 < size)
    (h : checkRange format virt phys size = .ok ()) :
    virt + (size - 1) < Word.bound ∧ phys + (size - 1) < format.physicalEnd
      ∧ format.virtualRangeInRange virt (virt + (size - 1)) = true := by
  unfold checkRange at h
  rw [if_neg (by omega)] at h
  split at h
  · rename_i lastVirt lastPhys hv hp
    obtain ⟨hvlt, rfl⟩ := Word.add?_eq_some_iff.mp hv
    obtain ⟨-, rfl⟩ := Word.add?_eq_some_iff.mp hp
    split at h
    · rename_i hok
      simp only [Bool.and_eq_true, Format.physicalInRange, decide_eq_true_eq] at hok
      exact ⟨hvlt, hok.2, hok.1⟩
    · cases h
  · cases h

/-- The frames of a checked range end inside the word. -/
theorem lt_bound_of_checkRange {format : Format} {virt phys size : Nat} (hsize : 0 < size)
    (h : checkRange format virt phys size = .ok ()) : phys + size < Word.bound := by
  have hlast := (checkRange_eq_ok hsize h).2.1
  have hend : 2 ^ 52 < Word.bound := by decide
  have := format.physicalEnd_le
  omega

/-- A range lets itself be checked if all its addresses are in range. -/
theorem checkRange_of_inRange {format : Format} {virt phys size : Nat} (hsize : 0 < size)
    (hvirt : ∀ w, virt ≤ w → w < virt + size → format.virtualInRange w = true)
    (hphys : phys + size ≤ format.physicalEnd) : checkRange format virt phys size = .ok () := by
  have hlast := hvirt (virt + (size - 1)) (by omega) (by omega)
  have hword : phys + (size - 1) < Word.bound := by
    have hle := format.physicalEnd_le
    exact Nat.lt_of_lt_of_le (show phys + (size - 1) < 2 ^ 52 by omega) (by decide)
  have hrange : format.virtualRangeInRange virt (virt + (size - 1)) = true :=
    Format.virtualRangeInRange_iff.mpr
      ⟨Nat.le_add_right _ _, fun a ha ha' => hvirt a ha (by omega)⟩
  have hphysical : format.physicalInRange (phys + (size - 1)) = true := by
    simp only [Format.physicalInRange, decide_eq_true_eq]
    show phys + (size - 1) < format.physicalEnd
    omega
  unfold checkRange
  rw [if_neg (by omega), Word.add?_eq_some_iff.mpr ⟨Format.lt_bound_of_inRange hlast, rfl⟩,
    Word.add?_eq_some_iff.mpr ⟨hword, rfl⟩]
  simp only
  rw [hrange, hphysical]
  rfl

/-- The pages of a checked range are all in range, and their frames end at most one frame
past the physical end; not even that if both addresses have one offset in their page. -/
theorem checkRange_cover {format : Format} {virt phys size v p length : Nat} (hsize : 0 < size)
    (h : checkRange format virt phys size = .ok ())
    (hb : pageBounds virt phys size = some (v, p, length)) :
    (∀ w, v ≤ w → w < v + length → format.virtualInRange w = true)
      ∧ p + length ≤ format.physicalEnd + frameSize
      ∧ (virt % frameSize = phys % frameSize → p + length ≤ format.physicalEnd) := by
  obtain ⟨hword, hphys, hrange⟩ := checkRange_eq_ok hsize h
  obtain ⟨hv, hp, hl, hle, hlt, hple, hplt, hend, hend'⟩ := pageBounds_spec hb
  have hmod := format.physicalEnd_mod
  refine ⟨fun w hw hw' => ?_, by simp only [frameSize] at *; omega,
    fun _ => by simp only [frameSize] at *; omega⟩
  obtain ⟨a, ⟨ha, ha'⟩, hpage⟩ := exists_mem_page hsize hv hle hlt hl hend' hw hw'
  exact Format.inRange_page hpage
    ((Format.virtualRangeInRange_iff.mp hrange).2 a ha (by omega))

/-- The same for a range in the user half. -/
theorem userRange_cover {format : Format} {virt phys size v p length : Nat} (hsize : 0 < size)
    (hlast : virt + (size - 1) < format.userEnd) (hphys : phys + (size - 1) < format.physicalEnd)
    (hb : pageBounds virt phys size = some (v, p, length)) :
    v + length ≤ format.userEnd
      ∧ p + length ≤ format.physicalEnd + frameSize
      ∧ (virt % frameSize = phys % frameSize → p + length ≤ format.physicalEnd) := by
  obtain ⟨hv, hp, hl, hle, hlt, hple, hplt, hend, hend'⟩ := pageBounds_spec hb
  have hmod := format.physicalEnd_mod
  obtain ⟨k, hk⟩ := format.exists_mul_eq_userEnd
  simp only [frameSize] at *
  exact ⟨by omega, by omega, fun _ => by omega⟩

end Manager

end KernelMemory
