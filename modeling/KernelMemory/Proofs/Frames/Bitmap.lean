/-
  KernelMemory.Proofs.Frames.Bitmap — what the bitmap operations do to the set of free
  frames.

  The view is `isFree`.  A bitmap is well formed when its words are words, the bits past the
  last frame are set, the tail has only full words below it, and the count is that of the free
  frames; then every operation is described by the frames it adds to or takes from the view.

  Main results:
    * `isFree_markUsed`, `isFree_markRangeFree`, `isFree_markRangeUsed` — the updates;
    * `takeLowest_eq_some`, `takeLowest_eq_none` — the single frame handed out was free, and
      is missing only when no frame is;
    * `takeRun_eq_some`, `takeRun_place` — so was every frame of a run, and it lies where it may.
-/

import Mathlib.Data.Nat.Bitwise
import Mathlib.Data.Set.Card
import KernelMemory.Frames.Allocator

namespace KernelMemory

namespace FrameBitmap

/-- Whether the bit of a frame is set; bits past the words are. -/
def bit (b : FrameBitmap) (frame : Nat) : Bool :=
  (b.words.getD (frame / 64) FrameWord.full).testBit (frame % 64)

/-- The frames that are free. -/
def freeSet (b : FrameBitmap) : Set Nat := {frame | b.isFree frame = true}

/-- What every operation keeps of a bitmap. -/
structure WellFormed (b : FrameBitmap) : Prop where
  size : b.words.size = (b.frames + 63) / 64
  word_lt : ∀ (i w : Nat), b.words[i]? = some w → w < 2 ^ 64
  padding : ∀ frame : Nat, b.frames ≤ frame → b.bit frame = true
  tail : ∀ frame : Nat, frame / 64 < b.usedTail → b.bit frame = true
  counted : b.free = b.freeSet.ncard

theorem isFree_eq (b : FrameBitmap) (frame : Nat) :
    b.isFree frame = (decide (frame < b.frames) && !b.bit frame) := rfl

theorem lt_of_isFree {b : FrameBitmap} {frame : Nat} (h : b.isFree frame = true) :
    frame < b.frames := by
  simp only [isFree_eq, Bool.and_eq_true, decide_eq_true_eq] at h
  exact h.1

theorem finite_freeSet (b : FrameBitmap) : b.freeSet.Finite :=
  (Set.finite_lt_nat b.frames).subset fun _ h => lt_of_isFree h

/-- In a well-formed bitmap a clear bit is a free frame. -/
theorem WellFormed.isFree_eq_not_bit {b : FrameBitmap} (h : b.WellFormed) (frame : Nat) :
    b.isFree frame = !b.bit frame := by
  rw [isFree_eq]
  by_cases hlt : frame < b.frames
  · simp [hlt]
  · simp [hlt, h.padding frame (by omega)]

theorem WellFormed.bit_eq_not_isFree {b : FrameBitmap} (h : b.WellFormed) (frame : Nat) :
    b.bit frame = !b.isFree frame := by
  rw [h.isFree_eq_not_bit, Bool.not_not]

theorem WellFormed.word_index_lt {b : FrameBitmap} (h : b.WellFormed) {frame : Nat}
    (hlt : frame < b.frames) : frame / 64 < b.words.size := by
  rw [h.size]; omega

/-! ## One bit -/

theorem testBit_full {place : Nat} (h : place < 64) : FrameWord.full.testBit place = true := by
  rw [FrameWord.full, Nat.testBit_two_pow_sub_one]; simpa using h

/-- Changing one bit of the words changes the bit of that frame alone. -/
theorem testBit_flip {words : Array Nat} {frame : Nat} (h : frame / 64 < words.size)
    (other : Nat) :
    ((flip words frame).getD (other / 64) FrameWord.full).testBit (other % 64)
      = ((words.getD (other / 64) FrameWord.full).testBit (other % 64)
          ^^ decide (other = frame)) := by
  simp only [flip, Array.getD_eq_getD_getElem?, Array.getElem?_modify]
  by_cases hword : frame / 64 = other / 64
  · have hlt : other / 64 < words.size := by omega
    have hsome : words[other / 64]? = some words[other / 64] := Array.getElem?_eq_getElem hlt
    -- one word holds both bits, so they are one bit when their places are equal
    have hplace : (frame % 64 = other % 64) = (other = frame) := by
      apply propext; constructor <;> intro h <;> omega
    simp [hword, hsome, Nat.testBit_xor, Nat.testBit_two_pow, hplace]
  · have hne : other ≠ frame := by intro h; subst h; exact hword rfl
    simp [hword, hne]

theorem flip_word_lt {words : Array Nat} {frame : Nat}
    (h : ∀ (i w : Nat), words[i]? = some w → w < 2 ^ 64) (i w : Nat)
    (hw : (flip words frame)[i]? = some w) : w < 2 ^ 64 := by
  simp only [flip, Array.getElem?_modify] at hw
  split at hw
  · obtain ⟨v, hv, rfl⟩ := Option.map_eq_some_iff.mp hw
    exact Nat.xor_lt_two_pow (h i v hv)
      (Nat.pow_lt_pow_right (by omega) (Nat.mod_lt _ (by omega)))
  · exact h i w hw

@[simp] theorem frames_markUsed (b : FrameBitmap) (frame : Nat) :
    (b.markUsed frame).frames = b.frames := by
  unfold markUsed; split <;> rfl

theorem bit_markUsed {b : FrameBitmap} (h : b.WellFormed) (frame other : Nat) :
    (b.markUsed frame).bit other = (b.bit other || (decide (other = frame) && b.isFree frame)) := by
  unfold markUsed
  by_cases hfree : b.isFree frame = true
  · have hclear : b.bit frame = false := by
      rw [h.bit_eq_not_isFree, hfree]
      rfl
    -- the bit was clear, so flipping it sets it
    rw [if_pos hfree, bit, testBit_flip (h.word_index_lt (lt_of_isFree hfree)), ← bit]
    by_cases heq : other = frame
    · subst heq; simp [hclear, hfree]
    · simp [heq]
  · rw [if_neg hfree]; simp [hfree]

theorem isFree_markUsed {b : FrameBitmap} (h : b.WellFormed) (frame other : Nat) :
    (b.markUsed frame).isFree other = (b.isFree other && decide (other ≠ frame)) := by
  rw [isFree_eq, frames_markUsed, bit_markUsed h, isFree_eq b other]
  by_cases heq : other = frame
  · subst heq
    rw [isFree_eq]
    cases b.bit other <;> simp
  · simp [heq]

theorem freeSet_markUsed {b : FrameBitmap} (h : b.WellFormed) (frame : Nat) :
    (b.markUsed frame).freeSet = b.freeSet \ {frame} := by
  ext other
  show (b.markUsed frame).isFree other = true ↔ b.isFree other = true ∧ other ≠ frame
  rw [isFree_markUsed h, Bool.and_eq_true, decide_eq_true_eq]

theorem WellFormed.markUsed {b : FrameBitmap} (h : b.WellFormed) (frame : Nat) :
    (b.markUsed frame).WellFormed where
  size := by
    have := h.size
    unfold FrameBitmap.markUsed
    split <;> simpa [flip] using this
  word_lt := by
    unfold FrameBitmap.markUsed
    split
    · exact flip_word_lt h.word_lt
    · exact h.word_lt
  padding := fun other ho => by
    rw [frames_markUsed] at ho
    rw [bit_markUsed h, h.padding other ho, Bool.true_or]
  tail := fun other ho => by
    have htail : (b.markUsed frame).usedTail = b.usedTail := by
      unfold FrameBitmap.markUsed; split <;> rfl
    rw [htail] at ho
    rw [bit_markUsed h, h.tail other ho, Bool.true_or]
  counted := by
    rw [freeSet_markUsed h]
    unfold FrameBitmap.markUsed
    split
    · rename_i hfree
      rw [Set.ncard_sdiff_singleton_of_mem (show frame ∈ b.freeSet from hfree)]
      exact congrArg (· - 1) h.counted
    · rename_i hused
      rw [Set.sdiff_singleton_eq_self (show frame ∉ b.freeSet from hused)]
      exact h.counted

@[simp] theorem frames_markFree (b : FrameBitmap) (frame : Nat) :
    (b.markFree frame).frames = b.frames := by
  unfold markFree; split <;> rfl

theorem bit_markFree {b : FrameBitmap} (h : b.WellFormed) (frame other : Nat) :
    (b.markFree frame).bit other
      = (b.bit other && !(decide (other = frame) && decide (frame < b.frames))) := by
  unfold markFree
  -- frames past the end and free frames are skipped; otherwise a set bit is flipped
  by_cases hskip : b.frames ≤ frame ∨ b.isFree frame = true
  · rw [if_pos (by simpa using hskip)]
    by_cases heq : other = frame
    · subst heq
      rcases hskip with hpast | hfree
      · simp [Nat.not_lt.mpr hpast]
      · rw [h.isFree_eq_not_bit] at hfree
        simp at hfree; simp [hfree]
    · simp [heq]
  · rw [if_neg (by simpa using hskip)]
    rw [not_or] at hskip
    have hlt : frame < b.frames := by omega
    have hset : b.bit frame = true := by
      rw [h.bit_eq_not_isFree, Bool.eq_false_iff.mpr hskip.2]
      rfl
    rw [bit, testBit_flip (h.word_index_lt hlt), ← bit]
    by_cases heq : other = frame
    · subst heq; simp [hset, hlt]
    · simp [heq]

theorem isFree_markFree {b : FrameBitmap} (h : b.WellFormed) (frame other : Nat) :
    (b.markFree frame).isFree other
      = (b.isFree other || (decide (other = frame) && decide (frame < b.frames))) := by
  rw [isFree_eq, frames_markFree, bit_markFree h, isFree_eq]
  by_cases heq : other = frame
  · subst heq
    by_cases hlt : other < b.frames <;> simp [hlt]
  · simp [heq]

theorem freeSet_markFree {b : FrameBitmap} (h : b.WellFormed) {frame : Nat}
    (hlt : frame < b.frames) : (b.markFree frame).freeSet = insert frame b.freeSet := by
  ext other
  show (b.markFree frame).isFree other = true ↔ other = frame ∨ b.isFree other = true
  rw [isFree_markFree h]
  simp [hlt, or_comm]

theorem WellFormed.markFree {b : FrameBitmap} (h : b.WellFormed) (frame : Nat) :
    (b.markFree frame).WellFormed where
  size := by
    have := h.size
    unfold FrameBitmap.markFree
    split <;> simpa [flip] using this
  word_lt := by
    unfold FrameBitmap.markFree
    split
    · exact h.word_lt
    · exact flip_word_lt h.word_lt
  padding := fun other ho => by
    rw [frames_markFree] at ho
    rw [bit_markFree h, h.padding other ho]
    by_cases heq : other = frame
    · subst heq; simpa using ho
    · simp [heq]
  tail := fun other ho => by
    rw [bit_markFree h]
    -- the tail is moved below the frame that became free
    have hbound : other / 64 < b.usedTail
        ∧ ((b.frames ≤ frame ∨ b.isFree frame = true) ∨ other / 64 < frame / 64) := by
      unfold FrameBitmap.markFree at ho
      split at ho
      · rename_i hskip
        exact ⟨ho, .inl (by simpa using hskip)⟩
      · exact ⟨by simp only at ho; omega, .inr (by simp only at ho; omega)⟩
    rw [h.tail other hbound.1, Bool.true_and, Bool.not_eq_true', Bool.and_eq_false_iff]
    by_cases heq : other = frame
    · subst heq
      rcases hbound.2 with (hpast | hfree) | hlt
      · right; simpa using hpast
      · rw [h.isFree_eq_not_bit, h.tail other hbound.1] at hfree
        simp at hfree
      · omega
    · left; simpa using heq
  counted := by
    by_cases hskip : b.frames ≤ frame ∨ b.isFree frame = true
    · have hsame : b.markFree frame = b := if_pos (by simpa using hskip)
      rw [hsame]
      exact h.counted
    · rw [not_or] at hskip
      have hnot : frame ∉ b.freeSet := hskip.2
      rw [freeSet_markFree h (by omega), Set.ncard_insert_of_notMem hnot b.finite_freeSet,
        FrameBitmap.markFree, if_neg (by simpa using hskip)]
      exact congrArg (· + 1) h.counted

/-! ## Ranges -/

@[simp] theorem frames_markFreeFrom (b : FrameBitmap) (start count : Nat) :
    (b.markFreeFrom start count).frames = b.frames := by
  induction count generalizing b start with
  | zero => rfl
  | succ count ih => rw [markFreeFrom, ih, frames_markFree]

theorem WellFormed.markFreeFrom {b : FrameBitmap} (h : b.WellFormed) (start count : Nat) :
    (b.markFreeFrom start count).WellFormed := by
  induction count generalizing b start with
  | zero => exact h
  | succ count ih => exact ih (h.markFree start) (start + 1)

theorem isFree_markFreeFrom {b : FrameBitmap} (h : b.WellFormed) (start count other : Nat) :
    (b.markFreeFrom start count).isFree other = true
      ↔ b.isFree other = true ∨ (start ≤ other ∧ other < start + count ∧ other < b.frames) := by
  induction count generalizing b start with
  | zero => simp only [FrameBitmap.markFreeFrom]; constructor
            · exact .inl
            · rintro (hfree | hin)
              · exact hfree
              · omega
  | succ count ih =>
    -- the frame at `start` is freed first, the others by the rest of the loop
    rw [FrameBitmap.markFreeFrom, ih (h.markFree start), isFree_markFree h, frames_markFree]
    simp only [Bool.or_eq_true, Bool.and_eq_true, decide_eq_true_eq]
    constructor
    · rintro ((hfree | ⟨rfl, hlt⟩) | hin)
      · exact .inl hfree
      · exact .inr (by omega)
      · exact .inr (by omega)
    · rintro (hfree | hin)
      · exact .inl (.inl hfree)
      · by_cases heq : other = start
        · exact .inl (.inr ⟨heq, by omega⟩)
        · exact .inr (by omega)

@[simp] theorem frames_markRangeFree (b : FrameBitmap) (start count : Nat) :
    (b.markRangeFree start count).frames = b.frames := frames_markFreeFrom _ _ _

theorem WellFormed.markRangeFree {b : FrameBitmap} (h : b.WellFormed) (start count : Nat) :
    (b.markRangeFree start count).WellFormed := h.markFreeFrom _ _

/-- Freeing a range adds those frames of it that exist. -/
theorem isFree_markRangeFree {b : FrameBitmap} (h : b.WellFormed) (start count other : Nat) :
    (b.markRangeFree start count).isFree other = true
      ↔ b.isFree other = true ∨ (start ≤ other ∧ other < start + count ∧ other < b.frames) := by
  rw [FrameBitmap.markRangeFree, isFree_markFreeFrom h]
  constructor
  · rintro (hfree | hin)
    · exact .inl hfree
    · exact .inr (by omega)
  · rintro (hfree | hin)
    · exact .inl hfree
    · exact .inr (by omega)

@[simp] theorem frames_markUsedFrom (b : FrameBitmap) (start count : Nat) :
    (b.markUsedFrom start count).frames = b.frames := by
  induction count generalizing b start with
  | zero => rfl
  | succ count ih => rw [markUsedFrom, ih, frames_markUsed]

theorem WellFormed.markUsedFrom {b : FrameBitmap} (h : b.WellFormed) (start count : Nat) :
    (b.markUsedFrom start count).WellFormed := by
  induction count generalizing b start with
  | zero => exact h
  | succ count ih => exact ih (h.markUsed start) (start + 1)

theorem isFree_markUsedFrom {b : FrameBitmap} (h : b.WellFormed) (start count other : Nat) :
    (b.markUsedFrom start count).isFree other = true
      ↔ b.isFree other = true ∧ ¬ (start ≤ other ∧ other < start + count) := by
  induction count generalizing b start with
  | zero => simp only [FrameBitmap.markUsedFrom]; constructor
            · exact fun hfree => ⟨hfree, by omega⟩
            · exact And.left
  | succ count ih =>
    -- the frame at `start` is taken first, the others by the rest of the loop
    rw [FrameBitmap.markUsedFrom, ih (h.markUsed start), isFree_markUsed h]
    simp only [Bool.and_eq_true, decide_eq_true_eq]
    constructor
    · rintro ⟨⟨hfree, hne⟩, hout⟩
      exact ⟨hfree, by omega⟩
    · rintro ⟨hfree, hout⟩
      exact ⟨⟨hfree, by omega⟩, by omega⟩

/-! ## The tail -/

/-- Skipping full words stops at the first that is not, or at the end. -/
theorem skipFull_spec (words : Array Nat) (count tail : Nat) :
    tail ≤ skipFull words count tail ∧ skipFull words count tail ≤ tail + count
      ∧ (∀ i, tail ≤ i → i < skipFull words count tail → words.getD i 0 = FrameWord.full)
      ∧ (skipFull words count tail < tail + count →
          words.getD (skipFull words count tail) 0 ≠ FrameWord.full) := by
  induction count generalizing tail with
  | zero =>
    simp only [skipFull]
    exact ⟨by omega, by omega, fun i _ _ => by omega, fun h => by omega⟩
  | succ count ih =>
    simp only [skipFull]
    split
    · rename_i hfull
      obtain ⟨hle, hbound, hbelow, hstop⟩ := ih (tail + 1)
      refine ⟨by omega, by omega, fun i hi hlt => ?_, fun h => hstop (by omega)⟩
      by_cases heq : i = tail
      · subst heq; exact hfull
      · exact hbelow i (by omega) hlt
    · rename_i hnot
      exact ⟨by omega, by omega, fun i _ _ => by omega, fun _ => hnot⟩

@[simp] theorem frames_settle (b : FrameBitmap) : b.settle.frames = b.frames := rfl

@[simp] theorem bit_settle (b : FrameBitmap) (frame : Nat) : b.settle.bit frame = b.bit frame :=
  rfl

@[simp] theorem isFree_settle (b : FrameBitmap) (frame : Nat) :
    b.settle.isFree frame = b.isFree frame := rfl

theorem WellFormed.settle {b : FrameBitmap} (h : b.WellFormed) : b.settle.WellFormed where
  size := h.size
  word_lt := h.word_lt
  padding := h.padding
  tail := fun frame hlt => by
    obtain ⟨-, hbound, hbelow, -⟩ :=
      skipFull_spec b.words (b.words.size - b.usedTail) b.usedTail
    rw [bit_settle]
    -- below the old tail nothing changed, and words that were skipped are full
    by_cases hold : frame / 64 < b.usedTail
    · exact h.tail frame hold
    · have hword := hbelow (frame / 64) (by omega) hlt
      have hin : frame / 64 < b.words.size := by
        have hlt' : frame / 64 < skipFull b.words (b.words.size - b.usedTail) b.usedTail := hlt
        omega
      rw [Array.getD_eq_getD_getElem?, Array.getElem?_eq_getElem hin, Option.getD_some] at hword
      rw [bit, Array.getD_eq_getD_getElem?, Array.getElem?_eq_getElem hin, Option.getD_some,
        hword]
      exact testBit_full (Nat.mod_lt _ (by omega))
  counted := h.counted

@[simp] theorem frames_markRangeUsed (b : FrameBitmap) (start count : Nat) :
    (b.markRangeUsed start count).frames = b.frames := by
  rw [markRangeUsed, frames_settle, frames_markUsedFrom]

theorem WellFormed.markRangeUsed {b : FrameBitmap} (h : b.WellFormed) (start count : Nat) :
    (b.markRangeUsed start count).WellFormed := (h.markUsedFrom start count).settle

theorem isFree_markRangeUsed {b : FrameBitmap} (h : b.WellFormed) (start count other : Nat) :
    (b.markRangeUsed start count).isFree other = true
      ↔ b.isFree other = true ∧ ¬ (start ≤ other ∧ other < start + count) := by
  rw [FrameBitmap.markRangeUsed, isFree_settle, isFree_markUsedFrom h]

/-! ## Handing out -/

theorem firstFree_eq_some {word : Nat} :
    ∀ {count bit place : Nat}, FrameWord.firstFree word count bit = some place →
      bit ≤ place ∧ place < bit + count ∧ word.testBit place = false := by
  intro count
  induction count with
  | zero => intro bit place h; simp [FrameWord.firstFree] at h
  | succ count ih =>
    intro bit place h
    rw [FrameWord.firstFree] at h
    split at h
    · obtain ⟨hle, hlt, hclear⟩ := ih h
      exact ⟨by omega, by omega, hclear⟩
    · rename_i hclear
      injection h with h
      subst h
      exact ⟨by omega, by omega, by simpa using hclear⟩

/-- The bits before the one found are set. -/
theorem testBit_of_lt_firstFree {word : Nat} :
    ∀ {count bit place : Nat}, FrameWord.firstFree word count bit = some place →
      ∀ other, bit ≤ other → other < place → word.testBit other = true := by
  intro count
  induction count with
  | zero => intro bit place h; simp [FrameWord.firstFree] at h
  | succ count ih =>
    intro bit place h other hle hlt
    rw [FrameWord.firstFree] at h
    split at h
    · rename_i hset
      by_cases heq : other = bit
      · rw [heq]; exact hset
      · exact ih h other (by omega) hlt
    · injection h with h
      omega

theorem firstFree_eq_none {word : Nat} :
    ∀ {count bit : Nat}, FrameWord.firstFree word count bit = none →
      ∀ place, bit ≤ place → place < bit + count → word.testBit place = true := by
  intro count
  induction count with
  | zero => intro bit _ place _ _; omega
  | succ count ih =>
    intro bit h place hle hlt
    rw [FrameWord.firstFree] at h
    split at h
    · rename_i hset
      by_cases heq : place = bit
      · subst heq; exact hset
      · exact ih h place (by omega) (by omega)
    · exact absurd h (by simp)

/-- A word that is not full has a clear bit. -/
theorem firstFree_isSome {word : Nat} (hlt : word < 2 ^ 64) (hne : word ≠ FrameWord.full) :
    ∃ place, FrameWord.firstFree word 64 0 = some place := by
  cases h : FrameWord.firstFree word 64 0 with
  | some place => exact ⟨place, rfl⟩
  | none =>
    -- with every bit set the word would be the full one
    refine absurd (Nat.eq_of_testBit_eq fun place => ?_) hne
    by_cases hplace : place < 64
    · rw [firstFree_eq_none h place (by omega) (by omega), testBit_full hplace]
    · have hpow : (2 : Nat) ^ 64 ≤ 2 ^ place := Nat.pow_le_pow_right (by omega) (by omega)
      rw [Nat.testBit_lt_two_pow (Nat.lt_of_lt_of_le hlt hpow), FrameWord.full,
        Nat.testBit_two_pow_sub_one]
      simpa using hplace

/-- The settled tail is at a word with a free frame, or at the end. -/
theorem settled_word_ne_full {b : FrameBitmap} {word : Nat}
    (hword : b.settle.words[b.settle.usedTail]? = some word) : word ≠ FrameWord.full := by
  obtain ⟨hle, -, -, hstop⟩ := skipFull_spec b.words (b.words.size - b.usedTail) b.usedTail
  obtain ⟨hin, -⟩ := Array.getElem?_eq_some_iff.mp hword
  have hin' : skipFull b.words (b.words.size - b.usedTail) b.usedTail < b.words.size := hin
  have := hstop (by omega)
  rw [Array.getD_eq_getD_getElem?] at this
  have hword' : b.words[skipFull b.words (b.words.size - b.usedTail) b.usedTail]? = some word :=
    hword
  rwa [hword', Option.getD_some] at this

/-- The frame handed out was free, and is the only one that changes. -/
theorem takeLowest_eq_some {b b' : FrameBitmap} (h : b.WellFormed) {frame : Nat}
    (e : b.takeLowest = (some frame, b')) :
    b.isFree frame = true ∧ b'.WellFormed ∧ b'.frames = b.frames
      ∧ ∀ other : Nat, b'.isFree other = (b.isFree other && decide (other ≠ frame)) := by
  unfold takeLowest at e
  simp only at e
  split at e
  · simp at e
  · rename_i word hword
    obtain ⟨hframe, hb⟩ := Prod.mk.injEq .. ▸ e
    obtain ⟨place, hplace⟩ := firstFree_isSome (h.word_lt _ _ hword) (settled_word_ne_full hword)
    rw [hplace, Option.getD_some] at hframe hb
    injection hframe with hframe
    rw [hframe] at hb
    obtain ⟨-, hlt, hclear⟩ := firstFree_eq_some hplace
    -- the frame is the clear bit of the word at the tail
    have hdiv : frame / 64 = b.settle.usedTail := by omega
    have hmod : frame % 64 = place := by omega
    have hfree : b.isFree frame = true := by
      rw [← isFree_settle, h.settle.isFree_eq_not_bit, bit, hdiv, hmod,
        Array.getD_eq_getD_getElem?, hword, Option.getD_some, hclear]
      rfl
    subst hb
    refine ⟨hfree, h.settle.markUsed frame, by simp, fun other => ?_⟩
    rw [isFree_markUsed h.settle, isFree_settle]

/-- No frame below the one handed out was free. -/
theorem takeLowest_le {b b' : FrameBitmap} (h : b.WellFormed) {frame : Nat}
    (e : b.takeLowest = (some frame, b')) {other : Nat} (hother : b.isFree other = true) :
    frame ≤ other := by
  unfold takeLowest at e
  simp only at e
  split at e
  · simp at e
  · rename_i word hword
    obtain ⟨hframe, -⟩ := Prod.mk.injEq .. ▸ e
    obtain ⟨place, hplace⟩ := firstFree_isSome (h.word_lt _ _ hword) (settled_word_ne_full hword)
    rw [hplace, Option.getD_some] at hframe
    injection hframe with hframe
    obtain ⟨-, hlt, -⟩ := firstFree_eq_some hplace
    rw [← isFree_settle, h.settle.isFree_eq_not_bit, Bool.not_eq_true'] at hother
    apply Nat.le_of_not_lt
    intro hlower
    -- below the tail every bit is set, and in the word at the tail every bit before the place
    by_cases htail : other / 64 < b.settle.usedTail
    · rw [h.settle.tail other htail] at hother
      cases hother
    · have hdiv : other / 64 = b.settle.usedTail := by omega
      have hset := testBit_of_lt_firstFree hplace (other % 64) (Nat.zero_le _) (by omega)
      rw [bit, hdiv, Array.getD_eq_getD_getElem?, hword, Option.getD_some, hset] at hother
      cases hother

/-- The frame is missing only when no frame is free. -/
theorem takeLowest_eq_none {b b' : FrameBitmap} (h : b.WellFormed)
    (e : b.takeLowest = (none, b')) :
    b'.WellFormed ∧ b'.frames = b.frames ∧ (∀ other : Nat, b'.isFree other = b.isFree other)
      ∧ ∀ other : Nat, b.isFree other = false := by
  unfold takeLowest at e
  simp only at e
  split at e
  · rename_i hend
    obtain ⟨-, rfl⟩ := Prod.mk.injEq .. ▸ e
    refine ⟨h.settle, rfl, fun _ => rfl, fun other => ?_⟩
    -- the tail is past the last word, and a frame past that does not exist
    have hpast : b.settle.words.size ≤ b.settle.usedTail := Array.getElem?_eq_none_iff.mp hend
    by_cases hlt : other < b.frames
    · have hword : other / 64 < b.settle.words.size := h.settle.word_index_lt hlt
      have hset := h.settle.tail other (by omega)
      rw [isFree_eq, ← bit_settle, hset]
      simp
    · simp [isFree_eq, hlt]
  · simp at e

theorem firstUsed_eq_none {b : FrameBitmap} {count : Nat} :
    ∀ {start : Nat}, b.firstUsed start count = none →
      ∀ frame : Nat, start ≤ frame → frame < start + count → b.isFree frame = true := by
  induction count with
  | zero => intro start _ frame _ _; omega
  | succ count ih =>
    intro start h frame hle hlt
    rw [firstUsed] at h
    split at h
    · rename_i hfree
      by_cases heq : frame = start
      · subst heq; exact hfree
      · exact ih h frame (by omega) (by omega)
    · exact absurd h (by simp)

theorem findRun_eq_some {b : FrameBitmap} {count align limit : Nat} :
    ∀ {tries start found : Nat}, b.findRun count align limit tries start = some found →
      ∀ frame : Nat, found ≤ frame → frame < found + count → b.isFree frame = true := by
  intro tries
  induction tries with
  | zero => intro start found h; simp [findRun] at h
  | succ tries ih =>
    intro start found h
    rw [findRun] at h
    split at h
    · split at h
      · rename_i hnone
        injection h with h
        subst h
        exact firstUsed_eq_none hnone
      · exact ih h
    · exact absurd h (by simp)

/-- A run found starts at a multiple and ends below the limit. -/
theorem findRun_place {b : FrameBitmap} {count align limit : Nat} :
    ∀ {tries start found : Nat}, start % align = 0 →
      b.findRun count align limit tries start = some found →
        found % align = 0 ∧ found + count ≤ limit := by
  intro tries
  induction tries with
  | zero => intro start found _ h; simp [findRun] at h
  | succ tries ih =>
    intro start found halign h
    rw [findRun] at h
    split at h
    · rename_i hlimit
      split at h
      · injection h with h
        subst h
        exact ⟨halign, hlimit⟩
      · exact ih (ceilTo_mod align _) h
    · exact absurd h (by simp)

/-- A run handed out starts at a multiple, and ends below the limit and the last frame. -/
theorem takeRun_place {b b' : FrameBitmap} {count align limit start : Nat}
    (e : b.takeRun count align limit = (some start, b')) :
    start % align = 0 ∧ start + count ≤ limit ∧ start + count ≤ b.frames := by
  unfold takeRun at e
  simp only at e
  split at e
  · rename_i found hfound
    obtain ⟨hstart, -⟩ := Prod.mk.injEq .. ▸ e
    injection hstart with hstart
    subst hstart
    obtain ⟨halign, hlimit⟩ := findRun_place (ceilTo_mod align _) hfound
    omega
  · simp at e

/-- Every frame of a run handed out was free, and no other frame changes. -/
theorem takeRun_eq_some {b b' : FrameBitmap} (h : b.WellFormed) {count align limit start : Nat}
    (e : b.takeRun count align limit = (some start, b')) :
    (∀ frame : Nat, start ≤ frame → frame < start + count → b.isFree frame = true)
      ∧ b'.WellFormed ∧ b'.frames = b.frames
      ∧ ∀ other : Nat, b'.isFree other = true
          ↔ b.isFree other = true ∧ ¬ (start ≤ other ∧ other < start + count) := by
  unfold takeRun at e
  simp only at e
  split at e
  · rename_i found hfound
    obtain ⟨hstart, rfl⟩ := Prod.mk.injEq .. ▸ e
    injection hstart with hstart
    subst hstart
    exact ⟨findRun_eq_some hfound, h.markRangeUsed _ _, frames_markRangeUsed _ _ _,
      isFree_markRangeUsed h _ _⟩
  · simp at e

theorem takeRun_eq_none {b b' : FrameBitmap} {count align limit : Nat}
    (e : b.takeRun count align limit = (none, b')) : b' = b := by
  unfold takeRun at e
  simp only at e
  split at e
  · simp at e
  · exact (Prod.mk.injEq .. ▸ e).2.symm

end FrameBitmap

end KernelMemory
