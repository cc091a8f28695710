/-
  KernelMemory.Proofs.Paging.Paths — an address is a path through tables and an offset.

  The indices at the levels from some level up are the way down to a block of that level, and
  the bits below are the offset in it.  Put together they are the address again, but for the bits
  above the root index; in range these follow from the others.  So addresses in range and pairs of
  path and offset correspond one to one, and blocks correspond to paths.

  Main results:
    * `joined_index`, `index_joined` — taking an address apart and putting it together;
    * `exists_address` — every path and offset are those of an address in range;
    * `Arena.same_slot_iff`, `Arena.private_apart` — what this says of ways through tables;
    * `paths_faithful` — addresses in range are told apart by path and offset.
-/

import KernelMemory.Proofs.Paging.Trees

namespace KernelMemory

namespace Format

variable {format : Format} {level v w : Nat}

/-! ## Indices and offsets as bits -/

/-- The offset of an address in its block of a level: its bits below the indices from that level
up. -/
def offset (format : Format) (v : VirtAddr) (level : Nat) : Nat := v &&& (format.span level - 1)

theorem offset_eq_mod (format : Format) (v level : Nat) :
    format.offset v level = v % format.span level :=
  Nat.and_two_pow_sub_one_eq_mod v _

/-- An index is a field of the bits of the address. -/
theorem index_eq_bits (format : Format) (v level : Nat) :
    format.index v level
      = v >>> (frameShift + level * format.indexBits) &&& (format.entries - 1) := by
  rw [entries_eq, Nat.and_two_pow_sub_one_eq_mod, ← entries_eq, Nat.shiftRight_eq_div_pow]
  rfl

/-- The shift of a level of the tables stays inside the word. -/
theorem checkedShift_eq (hlevel : level < format.levels) :
    format.checkedShift level = .ok (frameShift + level * format.indexBits)
      ∧ frameShift + level * format.indexBits < Word.bits := by
  have hshift : frameShift + level * format.indexBits < Word.bits := by
    cases format with
    | narrow =>
      have hlevel : level < 2 := hlevel
      show 12 + level * 10 < 64
      omega
    | wide =>
      have hlevel : level < 4 := hlevel
      show 12 + level * 9 < 64
      omega
  have hbits : Word.bits < Word.bound := by decide
  have hmul : Word.mul level format.indexBits = .ok (level * format.indexBits) :=
    Word.mul_eq_ok_iff.mpr ⟨by omega, rfl⟩
  have hadd : Word.add frameShift (level * format.indexBits)
      = .ok (frameShift + level * format.indexBits) :=
    Word.add_eq_ok_iff.mpr ⟨by omega, rfl⟩
  refine ⟨?_, hshift⟩
  rw [checkedShift, hmul]
  exact hadd

/-- So every level of the tables has an index and a span. -/
theorem checkedIndex_eq (hlevel : level < format.levels) (v : Nat) :
    format.checkedIndex v level = .ok (format.index v level) := by
  obtain ⟨hshift, hlt⟩ := checkedShift_eq hlevel
  rw [checkedIndex, hshift]
  show (Word.shiftRight v _ >>= fun shifted => pure (shifted % format.entries)) = _
  rw [Word.shiftRight, if_pos hlt]
  rfl

theorem checkedSpan_eq (hlevel : level < format.levels) :
    format.checkedSpan level = .ok (format.span level) := by
  obtain ⟨hshift, hlt⟩ := checkedShift_eq hlevel
  have hword : 1 * 2 ^ (frameShift + level * format.indexBits) < Word.bound := by
    rw [Nat.one_mul]
    exact Nat.pow_lt_pow_right (by omega) hlt
  rw [checkedSpan, hshift]
  show Word.shiftLeft 1 _ = _
  rw [Word.shiftLeft, if_pos hlt, Nat.mod_eq_of_lt hword, Nat.one_mul]
  rfl

/-! ## Blocks -/

/-- Two addresses are in one block of a size: between a multiple of it and the next. -/
def SameBlock (size v w : Nat) : Prop :=
  ∃ base, base % size = 0 ∧ (base ≤ v ∧ v < base + size) ∧ base ≤ w ∧ w < base + size

theorem sameBlock_iff_div {size : Nat} (hpos : 0 < size) :
    SameBlock size v w ↔ v / size = w / size := by
  constructor
  · rintro ⟨base, hbase, ⟨hv, hv'⟩, hw, hw'⟩
    obtain ⟨k, rfl⟩ := Nat.dvd_of_mod_eq_zero hbase
    have hdiv : ∀ a, size * k ≤ a → a < size * k + size → a / size = k := fun a hle hlt => by
      rw [Nat.div_eq_iff hpos, Nat.mul_comm k]
      omega
    rw [hdiv v hv hv', hdiv w hw hw']
  · intro h
    have hmem : ∀ a, a / size = v / size → v / size * size ≤ a ∧ a < v / size * size + size :=
      fun a ha => by
        have := (Nat.div_eq_iff hpos).mp ha
        omega
    exact ⟨v / size * size, Nat.mul_mod_left _ _, hmem v rfl, hmem w h.symm⟩

/-! ## Paths -/

/-- The address bits of the indices of `steps` levels from `level` up, and of an offset below. -/
def joined (format : Format) (level offset : Nat) (path : Nat → Nat) : (steps : Nat) → Nat
  | 0 => offset
  | steps + 1 =>
    joined format level offset path steps + path (level + steps) * format.span (level + steps)

/-- The indices and the offset of an address are its bits. -/
theorem joined_index (format : Format) (v level : Nat) : ∀ steps : Nat,
    format.joined level (format.offset v level) (format.index v) steps
      = v % format.span (level + steps) := by
  intro steps
  induction steps with
  | zero => exact format.offset_eq_mod v level
  | succ steps ih =>
    rw [joined, ih, ← Nat.add_assoc, span_succ, Nat.mod_mul, index, Nat.mul_comm]

variable {offset : Nat} {path : Nat → Nat}

/-- A path has an entry of a table at each level. -/
def IsPath (format : Format) (level : Nat) (path : Nat → Nat) : Prop :=
  ∀ l, level ≤ l → l ≤ format.topLevel → path l < format.entries

theorem joined_lt (hoffset : offset < format.span level) : ∀ {steps : Nat},
    (∀ l, level ≤ l → l < level + steps → path l < format.entries) →
      format.joined level offset path steps < format.span (level + steps) := by
  intro steps
  induction steps with
  | zero => intro _; exact hoffset
  | succ steps ih =>
    intro hpath
    have hbelow := ih fun l hle hlt => hpath l hle (by omega)
    have hentry := hpath (level + steps) (by omega) (by omega)
    have hblocks := Nat.mul_le_mul_right (format.span (level + steps)) (Nat.succ_le_of_lt hentry)
    rw [Nat.succ_mul] at hblocks
    rw [joined, ← Nat.add_assoc, span_succ, Nat.mul_comm (format.span _)]
    omega

/-- Whole blocks of a level change nothing in the bits below them. -/
theorem offset_add_blocks {above : Nat} (h : level ≤ above) (x k : Nat) :
    format.offset (x + k * format.span above) level = format.offset x level := by
  obtain ⟨c, hc⟩ := format.span_dvd h
  rw [offset_eq_mod, offset_eq_mod, hc, Nat.mul_left_comm, Nat.add_mul_mod_self_left]

theorem index_add_blocks {above : Nat} (h : level < above) (x k : Nat) :
    format.index (x + k * format.span above) level = format.index x level := by
  obtain ⟨c, hc⟩ := format.span_dvd (Nat.succ_le_of_lt h)
  rw [hc, span_succ, index, index, Nat.mul_assoc, Nat.mul_left_comm,
    Nat.add_mul_div_left _ _ (format.span_pos level), Nat.mul_left_comm, Nat.add_mul_mod_self_left]

/-- The address bits of a path and an offset have these as their indices and their offset. -/
theorem index_joined (hoffset : offset < format.span level) : ∀ {steps : Nat},
    (∀ l, level ≤ l → l < level + steps → path l < format.entries) →
      format.offset (format.joined level offset path steps) level = offset
        ∧ ∀ l, level ≤ l → l < level + steps →
          format.index (format.joined level offset path steps) l = path l := by
  intro steps
  induction steps with
  | zero =>
    intro _
    refine ⟨?_, fun l hle hlt => by omega⟩
    rw [offset_eq_mod]
    exact Nat.mod_eq_of_lt hoffset
  | succ steps ih =>
    intro hpath
    have hbelow : ∀ l, level ≤ l → l < level + steps → path l < format.entries :=
      fun l hle hlt => hpath l hle (by omega)
    obtain ⟨ihoffset, ihindex⟩ := ih hbelow
    refine ⟨?_, fun l hle hl => ?_⟩
    · rw [joined, offset_add_blocks (Nat.le_add_right level steps), ihoffset]
    · by_cases hlast : l = level + steps
      · -- the last index is the number of whole blocks, as what is below fills less than one
        subst hlast
        have hentry := hpath (level + steps) hle hl
        rw [joined, index, Nat.add_mul_div_right _ _ (format.span_pos _),
          Nat.div_eq_of_lt (joined_lt hoffset hbelow), Nat.zero_add, Nat.mod_eq_of_lt hentry]
      · have hlt : l < level + steps := by omega
        rw [joined, index_add_blocks hlt, ihindex l hle hlt]

theorem levels_sub_add (hlevel : level ≤ format.topLevel) :
    level + (format.levels - level) = format.levels :=
  Nat.add_sub_cancel' (Nat.le_of_lt (Nat.lt_of_le_of_lt hlevel format.topLevel_lt_levels))

theorem span_levels (format : Format) :
    format.span format.levels = format.span format.topLevel * format.entries := by
  rw [← topLevel_add_one, span_succ]

/-- An address in range is what its indices and its offset are joined to. -/
theorem folded_joined (hlevel : level ≤ format.topLevel) (hv : format.virtualInRange v = true) :
    format.folded (format.joined level (format.offset v level) (format.index v)
      (format.levels - level)) = v := by
  rw [joined_index, levels_sub_add hlevel, span_levels]
  exact ((eq_folded_iff hv).mpr (Nat.mod_mod _ _).symm).symm

/-- Every path and every offset are those of an address in range. -/
theorem exists_address (hlevel : level ≤ format.topLevel) (hpath : format.IsPath level path)
    (hoffset : offset < format.span level) :
    ∃ u, format.virtualInRange u = true
      ∧ (∀ l, level ≤ l → l ≤ format.topLevel → format.index u l = path l)
      ∧ format.offset u level = offset := by
  have htop := format.topLevel_add_one
  have hlevels := levels_sub_add hlevel
  have hentries : ∀ l, level ≤ l → l < level + (format.levels - level) → path l < format.entries :=
    fun l hle hlt => hpath l hle (by omega)
  obtain ⟨hoffset', hindex⟩ := index_joined hoffset hentries
  generalize format.joined level offset path (format.levels - level) = x at hoffset' hindex
  have hbits := (eq_folded_iff (format.inRange_folded x)).mp rfl
  refine ⟨format.folded x, format.inRange_folded x, fun l hle hl => ?_, ?_⟩
  · rw [(index_mod_span_congr hl hbits).1, hindex l hle (by omega)]
  · rw [offset_eq_mod, (index_mod_span_congr hlevel hbits).2, ← offset_eq_mod, hoffset']

/-- Addresses that have not all of a path in common part at some level. -/
theorem exists_parting (h : ¬ format.Together level v w) :
    ∃ l, level ≤ l ∧ l ≤ format.topLevel ∧ format.index v l ≠ format.index w l := by
  simpa only [Together, Classical.not_forall, exists_prop] using h

/-- Addresses in range with a path and an offset in common are the same. -/
theorem together_and_offset_iff (hlevel : level ≤ format.topLevel)
    (hv : format.virtualInRange v = true) (hw : format.virtualInRange w = true) :
    format.Together level v w ∧ format.offset v level = format.offset w level ↔ v = w := by
  constructor
  · rintro ⟨together, hoffset⟩
    have hdiv := (together_iff_div hlevel hv hw).mp together
    rw [offset_eq_mod, offset_eq_mod] at hoffset
    rw [← Nat.div_add_mod v (format.span level), hdiv, hoffset, Nat.div_add_mod]
  · rintro rfl
    exact ⟨fun _ _ _ => rfl, rfl⟩

end Format

/-! ## Ways through tables -/

namespace Arena

variable {format : Format} {kernel : TableId} {a : Arena} {root root' table level v w d d' : Nat}

/-- Addresses of one block pass the same tables on the way down to it. -/
theorem node?_together (together : format.Together level v w) : ∀ {d : Nat},
    d ≤ format.topLevel - level → a.node? format root w d = a.node? format root v d := by
  intro d
  induction d with
  | zero => intro _; rfl
  | succ d ih =>
    intro hd
    rw [node?, node?, ih (by omega), together (format.topLevel - d) (by omega) (by omega)]

/-- Two addresses come to one slot exactly if they are in one block of its level. -/
theorem same_slot_iff (h : a.Shaped format kernel) (hlevel : level ≤ format.topLevel)
    (hv : format.virtualInRange v = true) (hw : format.virtualInRange w = true)
    (hroot : a.level? root = some format.topLevel)
    (hway : a.node? format root v (format.topLevel - level) = some table) :
    a.node? format root w (format.topLevel - level) = some table
        ∧ format.index w level = format.index v level
      ↔ Format.SameBlock (format.span level) v w := by
  rw [Format.sameBlock_iff_div (format.span_pos level), ← Format.together_iff_div hlevel hv hw]
  constructor
  · rintro ⟨hway', hindex⟩
    have hlast : format.topLevel - (format.topLevel - level) = level := Nat.sub_sub_self hlevel
    exact (together_of_node? h.regular hroot hroot hlevel hway hway' (by rw [hlast, hindex])).1
  · intro together
    refine ⟨?_, (together level (Nat.le_refl _) hlevel).symm⟩
    rw [node?_together together (Nat.le_refl _), hway]

/-- A table on the way of an address of the lower half is on no way down from another root. -/
theorem private_apart (h : a.Shaped format kernel) (hv : v < format.userEnd)
    (hroot : a.level? root = some format.topLevel) (hroot' : a.level? root' = some format.topLevel)
    (hway : a.node? format root v d = some table)
    (hway' : a.node? format root' w d' = some table) : root = root' := by
  obtain ⟨hd, hl⟩ := node?_level h.regular hroot hway
  obtain ⟨hd', hl'⟩ := node?_level h.regular hroot' hway'
  -- both ways are as long as the table is low
  obtain rfl : d = d' := by
    have := level_unique hl hl'
    omega
  have hlower := (Format.index_top_lt_iff (Format.inRange_of_lt_userEnd hv)).mpr hv
  rcases (node?_unique h.regular hroot hway hway').2 with heq | ⟨-, hshared⟩
  · exact heq
  · exact absurd hshared (Nat.not_le.mpr hlower)

end Arena

/-! ## Addresses told apart -/

namespace Format

/-- What paths and offsets from a level tell of two addresses. -/
structure ToldApart (format : Format) (level v w : Nat) : Prop where
  /-- At the levels of the tables there is an index, made of bits of the address, and a span. -/
  formed : ∀ l, l < format.levels → format.checkedSpan l = .ok (format.span l)
    ∧ format.checkedIndex v l
      = .ok (v >>> (frameShift + l * format.indexBits) &&& (format.entries - 1))
  /-- A path in common is a block in common. -/
  block : format.Together level v w ↔ SameBlock (format.span level) v w
  /-- A path and an offset are those of one address, -/
  determined : format.Together level v w ∧ format.offset v level = format.offset w level ↔ v = w
  /-- which they are joined to. -/
  joined : format.folded (format.joined level (format.offset v level) (format.index v)
    (format.levels - level)) = v
  /-- The lower half of the root is that of the addresses. -/
  half : format.index v format.topLevel < format.userSplit ↔ v < format.userEnd
  /-- Ways to different pages part at some level. -/
  pages : ¬ SameBlock frameSize v w →
    ∃ l, l < format.levels ∧ format.index v l ≠ format.index w l
  /-- In tables, two ways come to one slot exactly if they lead to one block. -/
  slots : ∀ {a : Arena} {kernel root table : TableId}, a.Shaped format kernel →
    a.level? root = some format.topLevel →
    a.node? format root v (format.topLevel - level) = some table →
      (a.node? format root w (format.topLevel - level) = some table
          ∧ format.index w level = format.index v level
        ↔ SameBlock (format.span level) v w)
  /-- An address of the lower half passes no table that another root leads to. -/
  tables : v < format.userEnd → ∀ {a : Arena} {kernel root root' table : TableId} {d d' : Nat},
    a.Shaped format kernel → a.level? root = some format.topLevel →
    a.level? root' = some format.topLevel → a.node? format root v d = some table →
    a.node? format root' w d' = some table → root = root'

/-- Every path and offset from a level are those of an address in range. -/
def AllTaken (format : Format) (level : Nat) : Prop :=
  ∀ path offset, format.IsPath level path → offset < format.span level →
    ∃ u, format.virtualInRange u = true
      ∧ (∀ l, level ≤ l → l ≤ format.topLevel → format.index u l = path l)
      ∧ format.offset u level = offset

/-- Addresses in range correspond to paths and offsets, at every level. -/
theorem paths_faithful (format : Format) {level v w : Nat} (hlevel : level < format.levels)
    (hv : format.virtualInRange v = true) (hw : format.virtualInRange w = true) :
    format.ToldApart level v w ∧ format.AllTaken level := by
  have htop := format.topLevel_add_one
  have hlevel : level ≤ format.topLevel := by omega
  have hblock : ∀ {l}, l ≤ format.topLevel →
      (format.Together l v w ↔ SameBlock (format.span l) v w) := fun hl => by
    rw [together_iff_div hl hv hw, sameBlock_iff_div (format.span_pos _)]
  refine ⟨⟨fun l hl => ?_, hblock hlevel, together_and_offset_iff hlevel hv hw,
    folded_joined hlevel hv, index_top_lt_iff hv, fun hpages => ?_, fun h => ?_, fun hlow => ?_⟩,
    fun path offset hpath hoffset => exists_address hlevel hpath hoffset⟩
  · rw [checkedIndex_eq hl, index_eq_bits]
    exact ⟨checkedSpan_eq hl, rfl⟩
  · -- pages are the blocks of level 0
    rw [← span_zero format, ← hblock (Nat.zero_le _)] at hpages
    obtain ⟨l, -, hl, hne⟩ := exists_parting hpages
    exact ⟨l, by omega, hne⟩
  · exact Arena.same_slot_iff h hlevel hv hw
  · intro a kernel root root' table d d' h hroot hroot' hway hway'
    exact Arena.private_apart h hlow hroot hroot' hway hway'

/-- Two pages of the upper half in one large page: one path down to it, and two offsets in it. -/
theorem paths_faithful_upperHalf :
    (1 < wide.levels ∧ wide.virtualInRange 0xffff800000203456 = true
        ∧ wide.virtualInRange 0xffff8000003ff000 = true)
      ∧ (wide.ToldApart 1 0xffff800000203456 0xffff8000003ff000 ∧ wide.AllTaken 1)
      ∧ wide.Together 1 0xffff800000203456 0xffff8000003ff000
      ∧ wide.offset 0xffff800000203456 1 = 0x3456 ∧ wide.offset 0xffff8000003ff000 1 = 0x1ff000 := by
  have hlevel : 1 < wide.levels := by decide
  have hv : wide.virtualInRange 0xffff800000203456 = true := by decide
  have hw : wide.virtualInRange 0xffff8000003ff000 = true := by decide
  have h := paths_faithful wide hlevel hv hw
  refine ⟨⟨hlevel, hv, hw⟩, h, h.1.block.mpr ?_, by decide, by decide⟩
  exact ⟨0xffff800000200000, by decide, by decide, by decide⟩

end Format

end KernelMemory
