/-
  KernelMemory.Proofs.Manager.Aliases — addresses that a format cannot translate are looked up all the
  same.

  Requests to map an address that a format cannot translate are refused, so that nothing is ever mapped
  there.  Lookups are not refused: of any address they use the bits that indices and offset are made of,
  and these are the bits of one address in range.  What is mapped at that is found at all the addresses
  that share these bits with it.

  Main results:
    * `translate_folded`, `getEntry_folded` — lookups of any address are those of one in range;
    * `lookups_fold` — the same in every state that processors reach, and which address that is;
    * `beyond_range_translates` — a page that is found a second time, 4 GiB further up.
-/

import KernelMemory.Proofs.Manager.UserMapping

namespace KernelMemory

open Machine Manager Steps

variable {format : Format} {config : Config} {stock : Stock} {m m' : Machine} {space : AddressSpace}
  {virt phys size : Nat}

namespace Machine

theorem translate_folded (h : m.Sound format stock) (space : AddressSpace) (v : Nat) :
    m.translate format space v = m.translate format space (format.folded v) := by
  have hbits := (Format.eq_folded_iff (format.inRange_folded v)).mp rfl
  cases hroot : m.rootTable space with
  | none => rw [Machine.translate, Machine.translate, hroot]
  | some root =>
    rw [translate_eq_view h hroot, translate_eq_view h hroot, Arena.view_congr_address hbits]

theorem getEntry_folded (h : m.Sound format stock) (space : AddressSpace) (v : Nat) :
    m.getEntry format space v = m.getEntry format space (format.folded v) := by
  have hbits := (Format.eq_folded_iff (format.inRange_folded v)).mp rfl
  cases hroot : m.rootTable space with
  | none => rw [Machine.getEntry, Machine.getEntry, hroot]
  | some root =>
    rw [getEntry_eq_lookup h hroot, getEntry_eq_lookup h hroot, Arena.lookup_congr_bits hbits]

end Machine

/-- An address is looked up as another one: that is the only address in range with the bits that
indices and offset are made of, and the lookups of both have one answer. -/
structure LooksUp (format : Format) (m : Machine) (space : AddressSpace) (v w : Nat) : Prop where
  inRange : format.virtualInRange w = true
  only : ∀ u, format.virtualInRange u = true →
    (u = w ↔ u % (format.span format.topLevel * format.entries)
      = v % (format.span format.topLevel * format.entries))
  itself : w = v ↔ format.virtualInRange v = true
  translate : ∃ answer, m.translate format space v = .ok answer
    ∧ m.translate format space w = .ok answer
  getEntry : ∃ entry, m.getEntry format space v = .ok entry
    ∧ m.getEntry format space w = .ok entry

/-- In every state that processors reach, any address of any space is looked up as one that can be
translated.  So nothing is found at an address that cannot be exactly if nothing is mapped at that. -/
theorem lookups_fold {poolPages : Nat} {s : System} (h : Reachable format config AnyCall poolPages s)
    (space : AddressSpace) (v : VirtAddr) :
    ∃ w, LooksUp format s.machine space v w := by
  have hm := h.sound.machine
  obtain ⟨answer, hanswer⟩ := exists_translate hm space (format.folded v)
  obtain ⟨entry, hentry⟩ := exists_getEntry hm space (format.folded v)
  exact ⟨format.folded v, format.inRange_folded v, fun u hu => Format.eq_folded_iff hu,
    Format.folded_eq_self_iff, ⟨answer, (translate_folded hm space v).trans hanswer, hanswer⟩,
    ⟨entry, (getEntry_folded hm space v).trans hentry, hentry⟩⟩

/-! ## Mappings that are found again -/

/-- A run that maps a range of user memory, if it needs no more tables than a small machine has
frames for. -/
theorem exists_mapped_spareMap (hbase : config.kernelImageBase = none) (hpos : 0 < size)
    (hvirt : virt + (size - 1) < format.userEnd) (hphys : phys + (size - 1) < format.physicalEnd)
    (enough : tablesWanted format config virt phys size ≤ 61) :
    ∃ s s' space, Reachable format config AnyCall 0 s'
      ∧ UserMapped format space virt phys size s s'.machine := by
  obtain ⟨s, space, m', h, -, -, e, stock', h'⟩ : ∃ s space m', Reachable format config AnyCall 0 s
      ∧ _ ∧ _ ∧ mapUser format config 0 space virt phys size s.machine = .ok () m' ∧ _ :=
    exists_mapUser_spareMap hbase hpos hvirt hphys enough
  exact ⟨s.machine, _, space, h', userMapped_of_mapUser h.sound.machine h.sound.placed e⟩

/-- A page of the wide format is found a second time, where the bits above the indices differ. -/
theorem lookups_fold_noncanonical : ∃ s space, Reachable .wide {} AnyCall 0 s
    ∧ (∃ w, LooksUp .wide s.machine space 0x1000000400000 w ∧ w = 0x400000)
    ∧ s.machine.translate .wide space 0x1000000400000 = .ok (some 0x801000) := by
  have htables : tablesWanted .wide {} 0x400000 0x801000 0x1000 ≤ 61 := by decide +kernel
  obtain ⟨_, s, space, h, hmapped⟩ := exists_mapped_spareMap rfl (by decide) (by decide) (by decide) htables
  have hfound : s.machine.translate .wide space 0x400000 = .ok (some 0x801000) :=
    hmapped.translated 0 (by decide) (by decide)
  obtain ⟨w, hw⟩ := lookups_fold h space 0x1000000400000
  obtain rfl : 0x400000 = w := (hw.only 0x400000 (by decide)).mpr (by decide)
  obtain ⟨answer, hanswer, hanswer'⟩ := hw.translate
  exact ⟨s, space, h, ⟨_, hw, rfl⟩, hanswer.trans (hanswer'.symm.trans hfound)⟩

/-- A page of the narrow format is found a second time 4 GiB further up, by both lookups, at an address
that the format cannot translate. -/
theorem beyond_range_translates : ∃ s space entry, Reachable .narrow {} AnyCall 0 s
    ∧ Format.narrow.virtualInRange 0x100400000 = false
    ∧ s.machine.translate .narrow space 0x400000 = .ok (some 0x801000)
    ∧ s.machine.translate .narrow space 0x100400000 = .ok (some 0x801000)
    ∧ s.machine.getEntry .narrow space 0x100400000 = .ok (some entry) ∧ entry.frame = 0x801000 := by
  have htables : tablesWanted .narrow {} 0x400000 0x801000 0x1000 ≤ 61 := by decide +kernel
  obtain ⟨_, s, space, h, hmapped⟩ := exists_mapped_spareMap rfl (by decide) (by decide) (by decide) htables
  have hm := h.sound.machine
  have hfound : s.machine.translate .narrow space 0x400000 = .ok (some 0x801000) :=
    hmapped.translated 0 (by decide) (by decide)
  obtain ⟨entry, hentry, hframe, -⟩ := getEntry_of_apart hm hfound (by decide) (by decide)
  have hfold : Format.narrow.folded 0x100400000 = 0x400000 := by decide
  refine ⟨s, space, entry, h, by decide, hfound, ?_, ?_, hframe⟩
  · rw [translate_folded hm, hfold, hfound]
  · rw [getEntry_folded hm, hfold, hentry]

end KernelMemory
