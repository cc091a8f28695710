/-
  KernelMemory.Proofs.Frames.Checked — no step of the frame allocator can fail.

  The operations on machine words, in which every index and every step of arithmetic is checked,
  do not fail on a sound bitmap, and do what the operations frame by frame do.  A mask picks the
  bits it is meant to, and the lowest bit that is set under it is the first frame in use.

  Main results:
    * `checkedMarkRangeFree_eq`, `checkedMarkRangeUsed_eq` — updates;
    * `checkedTakeLowest_eq`, `checkedTakeRun_eq`, `checkedFreeBelow_eq` — searches and counts;
    * `checkedInit_eq` — the start, for every map of words;
    * `Carries.neverFaults` — every call of a live allocator.
-/

import KernelMemory.Frames.Checked
import KernelMemory.Proofs.Frames.Live

namespace KernelMemory

/-- Steps that follow on a value. -/
theorem ok_bind {ε α β : Type} (value : α) (next : α → Except ε β) :
    (Except.ok value >>= next) = next value := rfl

theorem pure_eq_ok {ε α : Type} (value : α) : (pure value : Except ε α) = .ok value := rfl

/-! ## Words -/

namespace Word

theorem add_eq {a b : Nat} (h : a + b < bound) : add a b = .ok (a + b) := if_pos h

theorem sub_eq {a b : Nat} (h : b ≤ a) : sub a b = .ok (a - b) := if_pos h

theorem mul_eq {a b : Nat} (h : a * b < bound) : mul a b = .ok (a * b) := if_pos h

theorem shiftLeft_one {places : Nat} (h : places < 64) : shiftLeft 1 places = .ok (2 ^ places) := by
  have hlt : 2 ^ places < bound := Nat.pow_lt_pow_right (by decide) h
  rw [shiftLeft, if_pos h, Nat.one_mul, Nat.mod_eq_of_lt hlt]

/-- The next multiple is the number rounded up. -/
theorem nextMultiple_eq {n unit : Nat} (hunit : 0 < unit) (h : ceilTo unit n < bound) :
    nextMultiple n unit = .ok (ceilTo unit n) := by
  have hmod := Nat.mod_lt n hunit
  have hdiv := Nat.div_add_mod n unit
  unfold nextMultiple
  rw [if_neg (Nat.ne_of_gt hunit)]
  split
  · rename_i hmultiple
    have hle := ceilTo_le_of_mod hunit hmultiple (Nat.le_refl n)
    have hge := le_ceilTo hunit n
    rw [Nat.le_antisymm hle hge]
  · rename_i hrest
    have hquotient : (n + (unit - 1)) / unit = n / unit + 1 := by
      have hlow : (n / unit + 1) * unit = unit * (n / unit) + unit := by
        rw [Nat.mul_comm, Nat.mul_add, Nat.mul_one]
      have hhigh : (n / unit + 1 + 1) * unit = unit * (n / unit) + unit + unit := by
        rw [Nat.add_mul, hlow, Nat.one_mul]
      exact Nat.div_eq_of_lt_le (by omega) (by omega)
    have hceil : ceilTo unit n = n + (unit - n % unit) := by
      rw [ceilTo, hquotient, Nat.mul_comm, Nat.mul_add, Nat.mul_one]
      omega
    rw [hceil] at h ⊢
    exact add_eq h

end Word

namespace FrameWord

theorem testBit_complement {word place : Nat} (h : place < 64) :
    (complement word).testBit place = !word.testBit place := by
  rw [complement, Nat.testBit_xor, FrameBitmap.testBit_full h, Bool.true_xor]

theorem complement_complement (word : Nat) : complement (complement word) = word := by
  unfold complement
  rw [← Nat.xor_assoc, Nat.xor_self, Nat.zero_xor]

/-- The lowest bit that is set is the one with no bit set below it. -/
theorem trailingZeros_eq {word place : Nat} (hplace : place < 64) (hset : word.testBit place = true)
    (hbelow : ∀ other < place, word.testBit other = false) : trailingZeros word = place := by
  unfold trailingZeros
  cases hfirst : firstFree (complement word) 64 0 with
  | none =>
    have hall := FrameBitmap.firstFree_eq_none hfirst place (Nat.zero_le _) (by omega)
    rw [testBit_complement hplace, hset] at hall
    cases hall
  | some found =>
    obtain ⟨-, hlt, hclear⟩ := FrameBitmap.firstFree_eq_some hfirst
    rw [Option.getD_some]
    rcases Nat.lt_trichotomy found place with hbefore | heq | hbehind
    · rw [testBit_complement (by omega), hbelow found hbefore] at hclear
      cases hclear
    · exact heq
    · have hskipped := FrameBitmap.testBit_of_lt_firstFree hfirst place (Nat.zero_le _) hbehind
      rw [testBit_complement hplace, hset] at hskipped
      cases hskipped

theorem trailingZeros_le (word : Nat) : trailingZeros word ≤ 64 := by
  unfold trailingZeros
  cases hfirst : firstFree (complement word) 64 0 with
  | none => exact Nat.le_refl 64
  | some place =>
    obtain ⟨-, hlt, -⟩ := FrameBitmap.firstFree_eq_some hfirst
    rw [Option.getD_some]
    omega

/-- The mask of a span has the bits of the span set, and no others. -/
theorem exists_spanMask {bit span : Nat} (hpos : 0 < span) (hend : bit + span ≤ 64) :
    ∃ mask, spanMask bit span = .ok mask
      ∧ ∀ place, mask.testBit place = (decide (bit ≤ place) && decide (place < bit + span)) := by
  unfold spanMask
  split
  · rename_i hall
    have hall : span = 64 := hall
    refine ⟨full, rfl, fun place => ?_⟩
    rw [full, Nat.testBit_two_pow_sub_one]
    have hfirst : bit = 0 := by omega
    simp [hfirst, hall]
  · rename_i hpart
    have hlt : span < 64 := Nat.lt_of_le_of_ne (by omega) hpart
    have hshift : (2 ^ span - 1) * 2 ^ bit < Word.bound := by
      calc (2 ^ span - 1) * 2 ^ bit < 2 ^ span * 2 ^ bit :=
            Nat.mul_lt_mul_of_pos_right (Nat.sub_lt (Nat.two_pow_pos _) Nat.one_pos) (Nat.two_pow_pos _)
        _ = 2 ^ (span + bit) := (Nat.pow_add 2 span bit).symm
        _ ≤ 2 ^ 64 := Nat.pow_le_pow_right (by decide) (by omega)
    refine ⟨(2 ^ span - 1) * 2 ^ bit, ?_, fun place => ?_⟩
    · rw [Word.shiftLeft_one hlt, ok_bind, Word.sub_eq (Nat.two_pow_pos _), ok_bind, Word.shiftLeft,
        if_pos (show bit < Word.bits by show bit < 64; omega), Nat.mod_eq_of_lt hshift]
    · rw [Nat.mul_comm, Nat.testBit_two_pow_mul, Nat.testBit_two_pow_sub_one]
      by_cases hle : bit ≤ place
      · simp only [hle, decide_true, Bool.true_and]
        congr 1
        apply propext
        omega
      · simp [hle]

/-- The clear bits of a word, counted together: those below `count` if only these are kept. -/
theorem ones_eq_freeBelow {word kept count : Nat} (hcount : count ≤ 64)
    (hkept : ∀ place < 64,
      kept.testBit place = (!word.testBit place && decide (place < count))) :
    ones kept = freeBelow word count := by
  have hones : ones kept
      = Nat.count (fun place => kept.testBit place = true) (count + (64 - count)) := by
    rw [show count + (64 - count) = 64 by omega]
    exact List.countP_congr fun place _ => by simp
  -- nothing is kept from `count` on, so that only the places below it are counted
  have hbehind : Nat.count (fun place => kept.testBit (count + place) = true) (64 - count) = 0 :=
    Nat.count_of_forall_not fun place hlt => by
      rw [hkept _ (by omega)]
      simp
  have hsame : ∀ place < count, kept.testBit place = true ↔ word.testBit place = false := by
    intro place hlt
    rw [hkept _ (by omega)]
    simp [hlt]
  rw [hones, Nat.count_add, hbehind, Nat.add_zero, FrameBitmap.freeBelow_eq_count word hcount]
  exact Nat.le_antisymm (Nat.count_mono_left fun place hlt => (hsame place hlt).mp)
    (Nat.count_mono_left fun place hlt => (hsame place hlt).mpr)

end FrameWord

namespace FrameBitmap

variable {b : FrameBitmap} {frame start stop count align limit : Nat}

/-! ## One bit -/

theorem checkedWord_eq (h : b.WellFormed) (hlt : frame < b.frames) :
    b.checkedWord (frame / 64) = .ok (b.words.getD (frame / 64) FrameWord.full) := by
  have hin := h.word_index_lt hlt
  rw [checkedWord, Array.getD_eq_getD_getElem?, Array.getElem?_eq_getElem hin, Option.getD_some]

theorem and_two_pow_beq_zero (word place : Nat) :
    (word &&& 2 ^ place == 0) = !word.testBit place := by
  rw [Nat.and_two_pow]
  cases word.testBit place <;> simp

/-- Reading a bit does not fail. -/
theorem checkedIsFree_eq (h : b.WellFormed) (frame : Nat) :
    b.checkedIsFree frame = .ok (b.isFree frame) := by
  unfold checkedIsFree
  split
  · rename_i hlt
    have hlt : frame < b.frames := hlt
    rw [checkedWord_eq h hlt, ok_bind, Word.shiftLeft_one (Nat.mod_lt _ (by decide)), ok_bind,
      pure_eq_ok, and_two_pow_beq_zero, isFree_eq, bit, decide_eq_true hlt, Bool.true_and]
  · rename_i hge
    rw [isFree_eq, decide_eq_false hge, Bool.false_and]

/-- A set bit is cleared with the complement of its mask. -/
theorem and_complement_two_pow {word place : Nat} (hword : word < 2 ^ 64) (hplace : place < 64)
    (hset : word.testBit place = true) :
    word &&& FrameWord.complement (2 ^ place) = word ^^^ 2 ^ place := by
  refine Nat.eq_of_testBit_eq fun other => ?_
  rw [Nat.testBit_and, Nat.testBit_xor, Nat.testBit_two_pow]
  by_cases hother : other < 64
  · rw [FrameWord.testBit_complement hother, Nat.testBit_two_pow]
    by_cases heq : place = other
    · subst heq
      simp [hset]
    · simp [heq]
  · have hpow : (2 : Nat) ^ 64 ≤ 2 ^ other := Nat.pow_le_pow_right (by decide) (by omega)
    rw [Nat.testBit_lt_two_pow (Nat.lt_of_lt_of_le hword hpow), Bool.false_and]
    simp [show place ≠ other by omega]

/-- A clear bit is set with its mask. -/
theorem or_two_pow {word place : Nat} (hclear : word.testBit place = false) :
    word ||| 2 ^ place = word ^^^ 2 ^ place := by
  refine Nat.eq_of_testBit_eq fun other => ?_
  rw [Nat.testBit_or, Nat.testBit_xor, Nat.testBit_two_pow]
  by_cases heq : place = other
  · subst heq
    simp [hclear]
  · simp [heq]

/-- Putting back the word with one bit changed is changing the bit. -/
theorem checkedPut_eq (h : b.WellFormed) (hlt : frame < b.frames) :
    b.checkedPut (frame / 64) (b.words.getD (frame / 64) FrameWord.full ^^^ 2 ^ (frame % 64))
      = .ok { b with words := flip b.words frame } := by
  have hin := h.word_index_lt hlt
  have hwords : b.words.setIfInBounds (frame / 64)
      (b.words.getD (frame / 64) FrameWord.full ^^^ 2 ^ (frame % 64)) = flip b.words frame := by
    refine Array.ext_getElem? fun i => ?_
    rw [flip, Array.getElem?_modify, Array.getElem?_setIfInBounds]
    split
    · rename_i hi
      subst hi
      simp [hin]
    · rfl
  rw [checkedPut, if_pos hin, hwords]

theorem word_getD_lt (h : b.WellFormed) (i : Nat) : b.words.getD i FrameWord.full < 2 ^ 64 := by
  rw [Array.getD_eq_getD_getElem?]
  cases hword : b.words[i]? with
  | none => decide
  | some word => exact h.word_lt i word hword

/-- Numbers of frames, and those just behind the last one, are words. -/
theorem Sound.lt_bound (h : b.Sound) {n : Nat} (hn : n ≤ b.frames + 64) : n < Word.bound := by
  have hlast : b.frames * 4096 < 2 ^ 64 := h.frames_word
  show n < 2 ^ 64
  omega

theorem free_add_one_lt (h : b.Sound) : b.free + 1 < Word.bound := by
  have hle := h.toWellFormed.free_le_frames
  exact h.lt_bound (by omega)

/-- Freeing a frame does not fail. -/
theorem checkedMarkFree_eq (h : b.Sound) (frame : Nat) : b.checkedMarkFree frame
    = .ok (!(decide (b.frames ≤ frame) || b.isFree frame), b.markFree frame) := by
  have hplace : frame % 64 < 64 := Nat.mod_lt _ (by decide)
  unfold checkedMarkFree markFree
  by_cases hpast : b.frames ≤ frame
  · simp only [hpast, decide_true, Bool.true_or, Bool.not_true, if_true]
  · have hlt : frame < b.frames := Nat.lt_of_not_le hpast
    rw [if_neg hpast, checkedIsFree_eq h.toWellFormed, ok_bind, decide_eq_false hpast,
      Bool.false_or]
    cases hfree : b.isFree frame with
    | true => rfl
    | false =>
      have hset : b.bit frame = true := by
        rw [h.bit_eq_not_isFree, hfree]
        rfl
      rw [if_neg (by simp), if_neg (by simp), checkedWord_eq h.toWellFormed hlt, ok_bind,
        Word.shiftLeft_one hplace, ok_bind,
        and_complement_two_pow (word_getD_lt h.toWellFormed _) hplace hset,
        checkedPut_eq h.toWellFormed hlt, ok_bind, Word.add_eq (free_add_one_lt h), ok_bind]
      rfl

/-- Taking a frame does not fail: a frame that is free is counted. -/
theorem checkedMarkUsed_eq (h : b.WellFormed) (frame : Nat) :
    b.checkedMarkUsed frame = .ok (b.isFree frame, b.markUsed frame) := by
  unfold checkedMarkUsed markUsed
  rw [checkedIsFree_eq h, ok_bind]
  cases hfree : b.isFree frame with
  | false => rfl
  | true =>
    have hclear : b.bit frame = false := by
      rw [h.bit_eq_not_isFree, hfree]
      rfl
    have hcounted : 1 ≤ b.free := by
      rw [h.counted]
      exact (Set.ncard_pos b.finite_freeSet).mpr ⟨frame, hfree⟩
    rw [if_pos rfl, if_pos rfl, checkedWord_eq h (lt_of_isFree hfree), ok_bind,
      Word.shiftLeft_one (Nat.mod_lt _ (by decide)), ok_bind, or_two_pow hclear,
      checkedPut_eq h (lt_of_isFree hfree), ok_bind, Word.sub_eq hcounted, ok_bind]
    rfl

/-! ## Ranges -/

theorem free_markFree (b : FrameBitmap) (frame : Nat) : (b.markFree frame).free
    = (!(decide (b.frames ≤ frame) || b.isFree frame)).toNat + b.free := by
  unfold markFree
  split
  · rename_i hskip
    rw [hskip]
    exact (Nat.zero_add _).symm
  · rename_i hchange
    rw [Bool.eq_false_iff.mpr hchange]
    exact Nat.add_comm _ _

theorem free_le_markFreeFrom (b : FrameBitmap) (start count : Nat) :
    b.free ≤ (b.markFreeFrom start count).free := by
  induction count generalizing b start with
  | zero => exact Nat.le_refl _
  | succ count ih =>
    have hrest := ih (b.markFree start) (start + 1)
    rw [free_markFree] at hrest
    exact Nat.le_trans (Nat.le_add_left _ _) hrest

theorem checkedMarkFreeFrom_eq (h : b.Sound) (start count : Nat) :
    b.checkedMarkFreeFrom start count
      = .ok ((b.markFreeFrom start count).free - b.free, b.markFreeFrom start count) := by
  induction count generalizing b start with
  | zero =>
    show Except.ok (0, b) = Except.ok (b.free - b.free, b)
    rw [Nat.sub_self]
  | succ count ih =>
    have hfirst := free_markFree b start
    have hrest := free_le_markFreeFrom (b.markFree start) (start + 1) count
    -- the sum is at most the number of free frames in the end, which is a word
    have hall := free_add_one_lt (h.markFreeFrom start (count + 1))
    rw [markFreeFrom] at hall
    rw [checkedMarkFreeFrom, checkedMarkFree_eq h, ok_bind]
    simp only
    rw [ih (h.markFree start), ok_bind]
    simp only
    rw [Word.add_eq (by omega), ok_bind, pure_eq_ok, markFreeFrom]
    congr 2
    omega

/-- Freeing a range does not fail; it counts what became free. -/
theorem checkedMarkRangeFree_eq (h : b.Sound) (start count : Nat) : b.checkedMarkRangeFree start count
    = .ok ((b.markRangeFree start count).free - b.free, b.markRangeFree start count) := by
  have hlast : b.frames * 4096 < 2 ^ 64 := h.frames_word
  -- a range that leaves the word ends behind the last frame anyway
  have hcut : min (Word.saturatingAdd start count) b.frames = min (start + count) b.frames := by
    show min (min (start + count) (2 ^ 64 - 1)) b.frames = min (start + count) b.frames
    omega
  rw [checkedMarkRangeFree, hcut, checkedMarkFreeFrom_eq h]
  rfl

theorem checkedMarkUsedFrom_eq (h : b.WellFormed) (start count : Nat) :
    b.checkedMarkUsedFrom start count = .ok (b.markUsedFrom start count) := by
  induction count generalizing b start with
  | zero => rfl
  | succ count ih =>
    rw [checkedMarkUsedFrom, checkedMarkUsed_eq h, ok_bind]
    exact ih (h.markUsed start) (start + 1)

theorem checkedSkipFull_eq {words : Array Nat} (count tail : Nat) (h : tail + count < Word.bound) :
    checkedSkipFull words count tail = .ok (skipFull words count tail) := by
  induction count generalizing tail with
  | zero => rfl
  | succ count ih =>
    rw [checkedSkipFull, skipFull]
    by_cases hfull : words[tail]? = some FrameWord.full
    · rw [if_pos hfull, if_pos (getD_zero_eq_full_iff.mpr hfull), Word.add_eq (by omega), ok_bind,
        ih (tail + 1) (by omega)]
    · rw [if_neg hfull, if_neg (fun heq => hfull (getD_zero_eq_full_iff.mp heq))]

/-- Moving the tail does not fail. -/
theorem checkedSettle_eq (h : b.Sound) : b.checkedSettle = .ok b.settle := by
  have htail := h.tail_le_size
  have hsize := h.size
  have hword : b.usedTail + (b.words.size - b.usedTail) < Word.bound := h.lt_bound (by omega)
  rw [checkedSettle, checkedSkipFull_eq _ _ hword]
  rfl

/-- Taking a range does not fail. -/
theorem checkedMarkRangeUsed_eq (h : b.Sound) (hword : start + count < Word.bound) :
    b.checkedMarkRangeUsed start count = .ok (b.markRangeUsed start count) := by
  rw [checkedMarkRangeUsed, Word.add_eq hword, ok_bind, Nat.add_sub_cancel_left,
    checkedMarkUsedFrom_eq h.toWellFormed, ok_bind, checkedSettle_eq (h.markUsedFrom start count)]
  rfl

/-! ## Searches -/

/-- The lowest clear bit of a word that is not full. -/
theorem firstFree_eq_trailingZeros (word : Nat) : (FrameWord.firstFree word 64 0).getD 64
    = FrameWord.trailingZeros (FrameWord.complement word) := by
  rw [FrameWord.trailingZeros, FrameWord.complement_complement]

/-- Taking the lowest frame does not fail. -/
theorem checkedTakeLowest_eq (h : b.Sound) : b.checkedTakeLowest = .ok b.takeLowest := by
  have hsettled := h.settle
  rw [checkedTakeLowest, checkedSettle_eq h, ok_bind, takeLowest]
  simp only
  cases hword : b.settle.words[b.settle.usedTail]? with
  | none => rfl
  | some word =>
    obtain ⟨hin, -⟩ := Array.getElem?_eq_some_iff.mp hword
    obtain ⟨place, hplace⟩ := firstFree_isSome (hsettled.word_lt _ _ hword) (settled_word_ne_full hword)
    obtain ⟨-, hlt, -⟩ := firstFree_eq_some hplace
    have htail : b.settle.usedTail < (b.frames + 63) / 64 := hsettled.size ▸ hin
    have hzeros : FrameWord.trailingZeros (FrameWord.complement word) = place := by
      rw [← firstFree_eq_trailingZeros, hplace]
      rfl
    have hframe : b.settle.usedTail * 64 + place < Word.bound := h.lt_bound (by omega)
    simp only
    rw [firstFree_eq_trailingZeros, hzeros,
      Word.mul_eq (Nat.lt_of_le_of_lt (Nat.le_add_right _ _) hframe), ok_bind, Word.add_eq hframe,
      ok_bind, checkedMarkUsed_eq hsettled.toWellFormed, ok_bind]
    rfl

theorem firstUsed_add (b : FrameBitmap) (start m n : Nat) :
    b.firstUsed start (m + n) = (b.firstUsed start m).or (b.firstUsed (start + m) n) := by
  induction m generalizing start with
  | zero => simp [firstUsed]
  | succ m ih =>
    rw [show m + 1 + n = m + n + 1 by omega, firstUsed, firstUsed, ih (start + 1),
      show start + 1 + m = start + (m + 1) by omega]
    split <;> rfl

/-- In a stretch of frames that one word holds, the first frame in use is the lowest bit that is
set under the mask. -/
theorem firstUsed_stretch (h : b.WellFormed) {span mask : Nat} (hend : start % 64 + span ≤ 64)
    (hmask : ∀ place, mask.testBit place
      = (decide (start % 64 ≤ place) && decide (place < start % 64 + span))) :
    b.firstUsed start span
      = if b.words.getD (start / 64) FrameWord.full &&& mask = 0 then none
        else some (start / 64 * 64
          + FrameWord.trailingZeros (b.words.getD (start / 64) FrameWord.full &&& mask)) := by
  -- a bit under the mask is that of a frame of the stretch
  have hinside : ∀ frame, start ≤ frame → frame < start + span →
      (b.words.getD (start / 64) FrameWord.full &&& mask).testBit (frame % 64) = b.bit frame := by
    intro frame hlow hhigh
    rw [Nat.testBit_and, hmask, decide_eq_true (by omega), decide_eq_true (by omega), Bool.and_true,
      Bool.and_true, bit, show start / 64 = frame / 64 by omega]
  have hclear : ∀ place, start % 64 ≤ place → place < start % 64 + span →
      b.isFree (start / 64 * 64 + place) = true →
        (b.words.getD (start / 64) FrameWord.full &&& mask).testBit place = false := by
    intro place hlow hhigh hfree
    have hbit := hinside (start / 64 * 64 + place) (by omega) (by omega)
    rwa [h.bit_eq_not_isFree, hfree, show (start / 64 * 64 + place) % 64 = place by omega] at hbit
  have houtside : ∀ place, ¬ (start % 64 ≤ place ∧ place < start % 64 + span) →
      (b.words.getD (start / 64) FrameWord.full &&& mask).testBit place = false := by
    intro place hout
    rw [Nat.testBit_and, hmask, ← Bool.decide_and, decide_eq_false hout, Bool.and_false]
  cases hfirst : b.firstUsed start span with
  | none =>
    have hall := firstUsed_eq_none hfirst
    have hzero : b.words.getD (start / 64) FrameWord.full &&& mask = 0 := by
      refine Nat.eq_of_testBit_eq fun place => ?_
      rw [Nat.zero_testBit]
      by_cases hin : start % 64 ≤ place ∧ place < start % 64 + span
      · exact hclear place hin.1 hin.2 (hall _ (by omega) (by omega))
      · exact houtside place hin
    rw [if_pos hzero]
  | some used =>
    obtain ⟨hlow, hhigh, hused, hbefore⟩ := firstUsed_eq_some hfirst
    have hset : (b.words.getD (start / 64) FrameWord.full &&& mask).testBit (used % 64) = true := by
      rw [hinside used hlow hhigh, h.bit_eq_not_isFree, hused]
      rfl
    have hzeros : FrameWord.trailingZeros (b.words.getD (start / 64) FrameWord.full &&& mask)
        = used % 64 := by
      refine FrameWord.trailingZeros_eq (Nat.mod_lt _ (by decide)) hset fun place hplace => ?_
      by_cases hin : start % 64 ≤ place
      · exact hclear place hin (by omega) (hbefore _ (by omega) (by omega))
      · exact houtside place fun hboth => hin hboth.1
    have hne : b.words.getD (start / 64) FrameWord.full &&& mask ≠ 0 := by
      intro hzero
      rw [hzero, Nat.zero_testBit] at hset
      cases hset
    have hplace : start / 64 * 64 + used % 64 = used := by omega
    rw [if_neg hne, hzeros, hplace]

/-- Looking for a frame in use does not fail, nor does it look past the words. -/
theorem checkedFirstUsed_eq (h : b.Sound) (hstop : stop ≤ b.frames) {frame : Nat} :
    b.checkedFirstUsed stop frame = .ok (b.firstUsed frame (stop - frame)) := by
  -- one stretch, and then the frames behind it
  induction hleft : stop - frame using Nat.strongRecOn generalizing frame with
  | ind left ih =>
    rw [checkedFirstUsed]
    split
    · rename_i hin
      have hin : frame < stop := hin
      have hspan := FrameWord.stretch_eq (Nat.le_of_lt hin)
      split
      · rename_i fault hfault
        rw [hspan] at hfault
        cases hfault
      · rename_i span hstretch
        rw [hspan] at hstretch
        injection hstretch with hstretch
        have hpos : 0 < span := by omega
        have hend : frame % 64 + span ≤ 64 := by omega
        obtain ⟨mask, hmask, hbits⟩ := FrameWord.exists_spanMask hpos hend
        have hfirst := firstUsed_stretch h.toWellFormed hend hbits
        have hsplit := firstUsed_add b frame span (left - span)
        rw [show span + (left - span) = left by omega] at hsplit
        rw [hmask, ok_bind, checkedWord_eq h.toWellFormed (by omega), ok_bind, hsplit, hfirst]
        simp only
        split
        · rw [Word.add_eq (h.lt_bound (by omega)), ok_bind, Option.none_or]
          exact ih (left - span) (by omega) (by omega)
        · have hzeros := FrameWord.trailingZeros_le
            (b.words.getD (frame / 64) FrameWord.full &&& mask)
          rw [Word.mul_eq (show frame / 64 * 64 < Word.bound from h.lt_bound (by omega)), ok_bind,
            Word.add_eq (h.lt_bound (by omega)), ok_bind]
          rfl
    · rename_i hout
      have hout : ¬ frame < stop := hout
      have hzero : left = 0 := by omega
      rw [hzero]
      rfl

/-- The next multiple behind a frame is a word. -/
theorem Sound.nextMultiple_eq (h : b.Sound) (halign : 0 < align) (hsmall : align ≤ 2 ^ maxOrder)
    {n : Nat} (hn : n ≤ b.frames + 64) : Word.nextMultiple n align = .ok (ceilTo align n) := by
  have hlast : b.frames * 4096 < 2 ^ 64 := h.frames_word
  have hsmall : align ≤ 1024 := hsmall
  have hceil := ceilTo_lt_add halign n
  exact Word.nextMultiple_eq halign (show ceilTo align n < 2 ^ 64 by omega)

/-- Looking for a run does not fail. -/
theorem checkedFindRun_eq (h : b.Sound) (halign : 0 < align) (hsmall : align ≤ 2 ^ maxOrder)
    (hlimit : limit ≤ b.frames) (tries start : Nat) :
    b.checkedFindRun count align limit tries start
      = .ok (b.findRun count align limit tries start) := by
  induction tries generalizing start with
  | zero => rfl
  | succ tries ih =>
    rw [checkedFindRun, findRun]
    by_cases hfits : start + count ≤ limit
    · have hframes : start + count ≤ b.frames + 64 := by omega
      have hstop : Word.add? start count = some (start + count) := if_pos (h.lt_bound hframes)
      rw [hstop]
      simp only
      rw [if_pos hfits, if_pos hfits, checkedFirstUsed_eq h (by omega), Nat.add_sub_cancel_left, ok_bind]
      cases hfirst : b.firstUsed start count with
      | none => rfl
      | some used =>
        obtain ⟨-, hin, -, -⟩ := firstUsed_eq_some hfirst
        have hbehind : used + 1 ≤ b.frames + 64 := Nat.le_trans hin hframes
        simp only
        rw [Word.add_eq (h.lt_bound hbehind), ok_bind, h.nextMultiple_eq halign hsmall hbehind,
          ok_bind]
        exact ih (ceilTo align (used + 1))
    · rw [if_neg hfits]
      cases hstop : Word.add? start count with
      | none => rfl
      | some stop =>
        obtain ⟨-, rfl⟩ := Word.add?_eq_some_iff.mp hstop
        simp only
        rw [if_neg hfits]

/-- Taking a run does not fail. -/
theorem checkedTakeRun_eq (h : b.Sound) (halign : 0 < align) (hsmall : align ≤ 2 ^ maxOrder)
    (count limit : Nat) : b.checkedTakeRun count align limit = .ok (b.takeRun count align limit) := by
  have htail := h.tail_le
  have hfirst : b.usedTail * 64 ≤ b.frames + 64 := by omega
  unfold checkedTakeRun takeRun
  simp only
  rw [Word.mul_eq (h.lt_bound hfirst), ok_bind, h.nextMultiple_eq halign hsmall hfirst, ok_bind,
    checkedFindRun_eq h halign hsmall (Nat.min_le_right _ _), ok_bind]
  cases hfound : b.findRun count align (min limit b.frames) (min limit b.frames + 1)
      (ceilTo align (b.usedTail * 64)) with
  | none => rfl
  | some start =>
    obtain ⟨-, hend⟩ := findRun_place (ceilTo_mod align _) hfound
    have hframes : start + count ≤ b.frames + 64 :=
      Nat.le_trans hend (Nat.le_trans (Nat.min_le_right _ _) (Nat.le_add_right _ _))
    simp only
    rw [checkedMarkRangeUsed_eq h (h.lt_bound hframes)]
    rfl

/-! ## Counting -/

theorem checkedWhole_eq (h : b.Sound) : ∀ {words : Nat}, words * 64 ≤ b.frames →
    b.checkedWhole words = .ok (words.fold
      (fun i _ total => total + FrameWord.freeBelow (b.words.getD i FrameWord.full) 64) 0) := by
  intro words
  induction words with
  | zero => intro _; rfl
  | succ words ih =>
    intro hle
    have hword : b.checkedWord words = .ok (b.words.getD words FrameWord.full) := by
      have hlt : words * 64 < b.frames := by omega
      have hin := checkedWord_eq h.toWellFormed hlt
      rwa [Nat.mul_div_cancel _ (by decide)] at hin
    have hones : FrameWord.ones (FrameWord.complement (b.words.getD words FrameWord.full))
        = FrameWord.freeBelow (b.words.getD words FrameWord.full) 64 :=
      FrameWord.ones_eq_freeBelow (Nat.le_refl 64) fun place hplace => by
        rw [FrameWord.testBit_complement hplace, decide_eq_true hplace, Bool.and_true]
    -- no more frames are counted than looked at, so the total is a word
    have htotal := h.fold_freeBelow (words + 1)
    have hcount := Nat.count_le (fun frame => b.isFree frame = true) (n := (words + 1) * 64)
    rw [← htotal, Nat.fold_succ] at hcount
    rw [Nat.fold_succ, checkedWhole, ih (by omega), ok_bind, hword, ok_bind, hones]
    exact Word.add_eq (h.lt_bound (by omega))

/-- Counting does not fail, nor does it look past the words. -/
theorem checkedFreeBelow_eq (h : b.Sound) (limit : Nat) :
    b.checkedFreeBelow limit = .ok (b.freeBelow limit) := by
  unfold checkedFreeBelow
  by_cases hall : b.frames ≤ limit
  · rw [if_pos hall, freeBelow, if_pos hall]
  · have hlt : limit < b.frames := Nat.lt_of_not_le hall
    have hvalue : b.freeBelow limit = (limit / 64).fold
        (fun i _ total => total + FrameWord.freeBelow (b.words.getD i FrameWord.full) 64) 0
        + FrameWord.freeBelow (b.words.getD (limit / 64) FrameWord.full) (limit % 64) := if_neg hall
    have hle := h.freeBelow_le limit
    rw [hvalue] at hle ⊢
    rw [if_neg hall, checkedWhole_eq h (by omega), ok_bind]
    -- a limit between two words leaves no word to be looked at in part
    by_cases hwhole : limit % 64 = 0
    · have hnone := freeBelow_eq_count (b.words.getD (limit / 64) FrameWord.full)
        (Nat.zero_le 64)
      rw [if_pos hwhole, hwhole, hnone, Nat.count_zero]
      rfl
    · have hplace : limit % 64 < 64 := Nat.mod_lt _ (by decide)
      have hones : FrameWord.ones (FrameWord.complement (b.words.getD (limit / 64) FrameWord.full)
            &&& (2 ^ (limit % 64) - 1))
          = FrameWord.freeBelow (b.words.getD (limit / 64) FrameWord.full) (limit % 64) :=
        FrameWord.ones_eq_freeBelow (Nat.le_of_lt hplace) fun place hin => by
          rw [Nat.testBit_and, FrameWord.testBit_complement hin, Nat.testBit_two_pow_sub_one]
      rw [if_neg hwhole, Word.shiftLeft_one hplace, ok_bind, Word.sub_eq (Nat.two_pow_pos _), ok_bind,
        checkedWord_eq h.toWellFormed hlt, ok_bind, hones]
      exact Word.add_eq (h.lt_bound (by omega))

/-- The bytes of the free frames below a limit are a word. -/
theorem Sound.mul_freeBelow (h : b.Sound) (limit : Nat) :
    Word.mul (b.freeBelow limit) frameSize = .ok (b.freeBelow limit * frameSize) := by
  have hle : b.freeBelow limit ≤ b.frames := by
    rw [h.freeBelow_eq_ncard]
    exact Nat.le_trans (Set.ncard_le_ncard (fun frame => And.left) b.finite_freeSet)
      (h.counted ▸ h.free_le_frames)
  exact Word.mul_eq (Nat.lt_of_le_of_lt (Nat.mul_le_mul_right _ hle) h.frames_word)

/-! ## Building the bitmap -/

theorem alignDown_frameSize (address : Nat) :
    Address.alignDown address frameSize = .ok (floorTo frameSize address) := rfl

theorem alignUp_frameSize (address : Nat) : Address.alignUp address frameSize
    = .ok (floorTo frameSize (Word.saturatingAdd address (frameSize - 1))) := rfl

theorem markRangeFree_zero (b : FrameBitmap) (start : Nat) : b.markRangeFree start 0 = b := by
  rw [markRangeFree, show min (start + 0) b.frames - start = 0 by omega]
  rfl

/-- Releasing a region does not fail, where its end is a word. -/
theorem checkedReleaseRegion_eq (h : b.Sound) {region : BootRegion} (hstop : region.stop < Word.bound) :
    b.checkedReleaseRegion region = .ok (b.releaseRegion region) := by
  unfold checkedReleaseRegion releaseRegion
  split
  · have hend : region.region.checkedStop = .ok region.stop := if_pos hstop
    have hdiv : floorTo frameSize region.stop / frameSize = region.stop / frameSize :=
      Nat.mul_div_cancel _ (by decide)
    rw [alignUp_frameSize, ok_bind, hend, ok_bind, alignDown_frameSize, ok_bind, hdiv]
    simp only
    split
    · rename_i hlt
      rw [Word.sub_eq (Nat.le_of_lt hlt), ok_bind, checkedMarkRangeFree_eq h]
      rfl
    · -- no whole frame lies in the region
      rename_i hge
      rw [Nat.sub_eq_zero_of_le (Nat.le_of_not_lt hge), markRangeFree_zero]
      rfl
  · rfl

theorem foldlM_checkedReleaseRegion (h : b.Sound) {regions : List BootRegion}
    (hstop : ∀ region ∈ regions, region.stop < Word.bound) :
    regions.foldlM checkedReleaseRegion b = .ok (regions.foldl releaseRegion b) := by
  induction regions generalizing b with
  | nil => rfl
  | cons region rest ih =>
    rw [List.foldlM_cons, checkedReleaseRegion_eq h (hstop region List.mem_cons_self), ok_bind,
      List.foldl_cons]
    exact ih (h.releaseRegion region) fun other hother =>
      hstop other (List.mem_cons_of_mem region hother)

end FrameBitmap

/-- The regions between records in address order. -/
theorem BootMap.checkedRegionsOf_eq : ∀ {records : List BootRecord},
    (records.Pairwise fun a b => a.base ≤ b.base) →
      checkedRegionsOf records = .ok (regionsOf records) := by
  intro records
  induction records with
  | nil => intro _; rfl
  | cons a rest ih =>
    intro hsorted
    cases rest with
    | nil => rfl
    | cons b rest =>
      obtain ⟨hfirst, hrest⟩ := List.pairwise_cons.mp hsorted
      rw [checkedRegionsOf, Word.sub_eq (hfirst b List.mem_cons_self), ok_bind, ih hrest, ok_bind,
        regionsOf]
      rfl

namespace FrameBitmap

variable {b : FrameBitmap} {map : BootMap}

/-- Building the bitmap of a map does not fail, where its end is a word. -/
theorem checkedOfMap_eq (hwords : map.stop < Word.bound) : checkedOfMap map = .ok (ofMap map) := by
  have hframes : map.stop / frameSize * frameSize < Word.bound :=
    Nat.lt_of_le_of_lt (Nat.div_mul_le_self _ _) hwords
  have hall := sound_allUsed hframes
  have hreleased := hall.foldl_releaseRegion map.regions
  rw [checkedOfMap, BootMap.checkedRegionsOf_eq map.records_sorted, ok_bind]
  show (map.regions.foldlM checkedReleaseRegion (allUsed (map.stop / frameSize)) >>= _) = _
  rw [foldlM_checkedReleaseRegion hall (FrameAllocator.words_of_map hwords).1, ok_bind,
    checkedMarkUsed_eq hreleased.toWellFormed, ok_bind]
  exact checkedSettle_eq (hreleased.markUsed 0)

/-- Setting a pool aside does not fail, whatever its size. -/
theorem checkedTakePool_eq (h : b.Sound) (pages : Nat) :
    b.checkedTakePool pages = .ok (b.takePool pages) := by
  have hsmall : 1 ≤ 2 ^ maxOrder := Nat.one_le_two_pow
  have hlow := h.takeRun pages 1 Zone.kernel.frameLimit
  rw [checkedTakePool, checkedTakeRun_eq h Nat.one_pos hsmall, ok_bind, takePool]
  cases htake : b.takeRun pages 1 Zone.kernel.frameLimit with
  | mk start? b' =>
    rw [htake] at hlow
    cases start? with
    | some start => rfl
    | none => exact checkedTakeRun_eq hlow Nat.one_pos hsmall pages Word.max

end FrameBitmap

namespace FrameAllocator

variable {a : FrameAllocator} {map : BootMap} {b : FrameBitmap}

/-- Setting the pool aside and publishing it does not fail. -/
theorem checkedDonate_eq (h : b.Sound) (pages : Nat) (d : Descriptor) :
    checkedDonate pages b d = .ok (donate pages b d) := by
  unfold checkedDonate donate
  split
  · rfl
  · rw [FrameBitmap.checkedTakePool_eq h, ok_bind]
    cases htake : b.takePool pages with
    | mk start? b' =>
      cases start? with
      | none => rfl
      | some start =>
        obtain ⟨-, hend, -⟩ := FrameBitmap.takePool_eq_some h.toWellFormed htake
        -- the pool ends at or before the last frame
        have hstop : start * frameSize + pages * frameSize < Word.bound := by
          rw [← Nat.add_mul]
          exact Nat.lt_of_le_of_lt (Nat.mul_le_mul_right _ hend) h.frames_word
        have hstart : FrameNumber.start start = start * frameSize :=
          FrameNumber.start_eq (Nat.lt_of_le_of_lt (Nat.le_add_right _ _) hstop)
        have hbytes : Word.mul pages frameSize = .ok (pages * frameSize) :=
          Word.mul_eq (Nat.lt_of_le_of_lt (Nat.le_add_left _ _) hstop)
        have hregion : MemoryRegion.checkedStop ⟨FrameNumber.start start, pages * frameSize⟩
            = .ok (FrameNumber.start start + pages * frameSize) := by
          rw [hstart]
          exact Word.add_eq hstop
        simp only
        rw [hbytes, ok_bind, MemoryRegion.checkedText, hregion]
        rfl

/-- Starting does not fail, whatever the records, the pool and the descriptor. -/
theorem checkedInit_eq (hwords : map.stop < Word.bound) (a : FrameAllocator) (d : Descriptor) :
    a.checkedInit map d = .ok (a.init map d) := by
  obtain ⟨pages, _ | b⟩ := a
  · have hsound := FrameBitmap.sound_ofMap hwords
    have hfree := hsound.toWellFormed.free_le_frames
    have hbytes : Word.mul ((map.stop / frameSize + 63) / 64) 8 = .ok (bitmapBytes map.stop) := by
      have hbits : ∀ n : Nat, n < 2 ^ 64 → (n / 4096 + 63) / 64 * 8 < 2 ^ 64 := by
        intro n hn
        omega
      exact Word.mul_eq (hbits map.stop hwords)
    have hbytesFree : Word.mul (FrameBitmap.ofMap map).free frameSize
        = .ok ((FrameBitmap.ofMap map).free * frameSize) :=
      Word.mul_eq (Nat.lt_of_le_of_lt (Nat.mul_le_mul_right _ hfree) hsound.frames_word)
    unfold checkedInit init
    simp only
    rw [FrameBitmap.checkedOfMap_eq hwords, ok_bind, hbytes, ok_bind, hbytesFree, ok_bind,
      checkedDonate_eq hsound, ok_bind]
    rfl
  · rfl

/-! ## Calls -/

/-- Handing a page out does not fail. -/
theorem Carries.checkedAllocatePage_eq (h : Carries map a b) :
    a.checkedAllocatePage = .ok a.allocatePage := by
  obtain ⟨pool, bitmap⟩ := a
  have hbitmap := h.bitmap
  subst hbitmap
  rw [allocatePage_eq]
  unfold checkedAllocatePage
  simp only
  rw [FrameBitmap.checkedTakeLowest_eq h.sound, ok_bind]
  cases b.takeLowest with
  | mk frame? b' => cases frame? <;> rfl

/-- Handing a block out does not fail, nor does telling why it is refused. -/
theorem Carries.checkedAllocateBlock_eq (h : Carries map a b) (order : Nat) (zone : Zone) :
    a.checkedAllocateBlock order zone = .ok (a.allocateBlock order zone) := by
  by_cases horder : order ≤ maxOrder
  · obtain ⟨pool, bitmap⟩ := a
    have hbitmap := h.bitmap
    subst hbitmap
    have hplaces : order < 64 := Nat.lt_of_le_of_lt horder (by decide)
    have hsmall : 2 ^ order ≤ 2 ^ maxOrder := Nat.pow_le_pow_right (by decide) horder
    rw [allocateBlock_eq pool b horder]
    unfold checkedAllocateBlock
    rw [if_neg (Nat.not_lt.mpr horder)]
    simp only
    rw [Word.shiftLeft_one hplaces, ok_bind,
      FrameBitmap.checkedTakeRun_eq h.sound (Nat.two_pow_pos order) hsmall, ok_bind]
    cases htake : b.takeRun (2 ^ order) (2 ^ order) zone.frameLimit with
    | mk start? b' =>
      cases start? with
      | some start => rfl
      | none =>
        -- what is counted for the log is the bitmap as it was
        have hb' := h.sound.takeRun (2 ^ order) (2 ^ order) zone.frameLimit
        rw [htake] at hb'
        simp only
        rw [FrameBitmap.checkedFreeBelow_eq hb', ok_bind, hb'.mul_freeBelow]
        rfl
  · have hlarge : maxOrder < order := Nat.lt_of_not_le horder
    rw [allocateBlock_of_lt a hlarge]
    exact if_pos hlarge

/-- Taking a block back does not fail, whatever its address and order. -/
theorem Carries.checkedFreeBlock_eq (h : Carries map a b) (address order : Nat) :
    a.checkedFreeBlock address order = .ok (a.freeBlock address order) := by
  obtain ⟨pool, bitmap⟩ := a
  have hbitmap := h.bitmap
  subst hbitmap
  unfold checkedFreeBlock freeBlock
  split
  · rfl
  · rename_i haccept
    simp only [Bool.or_eq_true, decide_eq_true_eq, not_or, Nat.not_lt] at haccept
    have hplaces : order < 64 := Nat.lt_of_le_of_lt haccept.1.2 (by decide)
    simp only
    rw [Word.shiftLeft_one hplaces, ok_bind, FrameBitmap.checkedMarkRangeFree_eq h.sound]
    rfl

/-- What a call of an allocator does on words, it does without a failure: it answers and counts
as the allocator does. -/
structure NeverFaults (a : FrameAllocator) : Prop where
  page : a.checkedAllocatePage = .ok a.allocatePage
  block : ∀ order zone, a.checkedAllocateBlock order zone = .ok (a.allocateBlock order zone)
  freed : ∀ address order, a.checkedFreeBlock address order = .ok (a.freeBlock address order)
  available : ∀ zone, a.checkedAvailable zone = .ok (a.available zone)
  used : a.checkedUsedPages = .ok a.usedPages

/-- No call of a live allocator fails. -/
theorem Carries.neverFaults (h : Carries map a b) : a.NeverFaults where
  page := h.checkedAllocatePage_eq
  block := h.checkedAllocateBlock_eq
  freed := h.checkedFreeBlock_eq
  available := fun zone => by
    unfold checkedAvailable FrameAllocator.available
    rw [h.bitmap]
    exact FrameBitmap.checkedFreeBelow_eq h.sound _
  used := by
    unfold checkedUsedPages usedPages
    rw [h.bitmap]
    exact Word.sub_eq h.sound.toWellFormed.free_le_frames

end FrameAllocator

end KernelMemory
