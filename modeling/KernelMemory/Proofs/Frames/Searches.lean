/-
  KernelMemory.Proofs.Frames.Searches — what the searches of a bitmap find, that they come to an
  end, and what counting counts.

  A search for a run looks at starts in ascending order and skips those that a frame in use
  spoils; the tail only skips words without a free frame.  So what is found is the lowest run
  there is, and nothing is found only where there is none.  Both searches are loops: `RunSearch`
  and `TailSearch` are the loops as they are, without a bound on their steps, and what is derived
  in them ends.

  Main results:
    * `takeRun_some_isLeast`, `takeRun_none_empty` — the run taken is the lowest one;
    * `takeLowest_some_isLeast`, `takeLowest_none_empty` — so is the single frame;
    * `runSearch_takeRun`, `tailSearch_settle` — the loops end, with these results;
    * `freeBelow_eq_ncard` — the count below a limit is that of the free frames there.
-/

import Mathlib.Data.Nat.Count
import Mathlib.Order.Bounds.Basic
import KernelMemory.Proofs.Frames.Bitmap

namespace KernelMemory

/-! ## Rounding up -/

/-- A multiple at or above a number is at or above the number rounded up. -/
theorem ceilTo_le_of_mod {unit n m : Nat} (hunit : 0 < unit) (hmod : m % unit = 0) (h : n ≤ m) :
    ceilTo unit n ≤ m := by
  have hm : m / unit * unit = m := by
    have := floorTo_add_mod unit m
    rwa [hmod, Nat.add_zero] at this
  have hlt : n + (unit - 1) < (m / unit + 1) * unit := by
    rw [Nat.add_mul, hm]
    omega
  have hdiv : (n + (unit - 1)) / unit ≤ m / unit :=
    Nat.le_of_lt_succ ((Nat.div_lt_iff_lt_mul hunit).mpr hlt)
  calc ceilTo unit n = (n + (unit - 1)) / unit * unit := rfl
    _ ≤ m / unit * unit := Nat.mul_le_mul_right unit hdiv
    _ = m := hm

/-- Whether the `count` frames from `start` on are among `frames`. -/
def IsRun (frames : Set Nat) (start count : Nat) : Prop :=
  ∀ frame, start ≤ frame → frame < start + count → frame ∈ frames

namespace FrameBitmap

variable {b : FrameBitmap} {count align limit : Nat}

/-! ## The tail -/

/-- The loop that moves the tail past full words, and where it ends. -/
inductive TailSearch (words : Array Nat) : (tail stop : Nat) → Prop where
  | stopped {tail : Nat} (other : words[tail]? ≠ some FrameWord.full) :
      TailSearch words tail tail
  | skipped {tail stop : Nat} (full : words[tail]? = some FrameWord.full)
      (rest : TailSearch words (tail + 1) stop) : TailSearch words tail stop

/-- The default of a lookup past the words is no full word. -/
theorem getD_zero_eq_full_iff {words : Array Nat} {i : Nat} :
    words.getD i 0 = FrameWord.full ↔ words[i]? = some FrameWord.full := by
  rw [Array.getD_eq_getD_getElem?]
  cases words[i]? with
  | none => simp
  | some word => simp

theorem tailSearch_skipFull {words : Array Nat} {count : Nat} :
    ∀ {tail : Nat}, words.size ≤ tail + count →
      TailSearch words tail (skipFull words count tail) := by
  induction count with
  | zero =>
    intro tail hend
    have hpast : words[tail]? = none := Array.getElem?_eq_none hend
    exact .stopped (by rw [hpast]; simp)
  | succ count ih =>
    intro tail hend
    rw [skipFull]
    split
    · rename_i hfull
      exact .skipped (getD_zero_eq_full_iff.mp hfull) (ih (by omega))
    · rename_i hother
      exact .stopped fun hfull => hother (getD_zero_eq_full_iff.mpr hfull)

/-- Moving the tail ends. -/
theorem tailSearch_settle (b : FrameBitmap) : TailSearch b.words b.usedTail b.settle.usedTail :=
  tailSearch_skipFull (by omega)

/-- A free frame is not below the tail. -/
theorem WellFormed.tail_le_of_isFree (h : b.WellFormed) {frame : Nat}
    (hfree : b.isFree frame = true) : b.usedTail * 64 ≤ frame := by
  apply Nat.le_of_not_lt
  intro hlt
  rw [h.isFree_eq_not_bit, h.tail frame (by omega)] at hfree
  cases hfree

/-! ## The first frame in use -/

theorem firstUsed_eq_some :
    ∀ {count start used : Nat}, b.firstUsed start count = some used →
      start ≤ used ∧ used < start + count ∧ b.isFree used = false
        ∧ ∀ frame, start ≤ frame → frame < used → b.isFree frame = true := by
  intro count
  induction count with
  | zero => intro start used h; cases h
  | succ count ih =>
    intro start used h
    rw [firstUsed] at h
    split at h
    · rename_i hfree
      obtain ⟨hle, hlt, hused, hbefore⟩ := ih h
      refine ⟨by omega, by omega, hused, fun frame hlow hhigh => ?_⟩
      by_cases heq : frame = start
      · rw [heq]; exact hfree
      · exact hbefore frame (by omega) hhigh
    · rename_i hused
      injection h with h
      subst h
      exact ⟨by omega, by omega, Bool.eq_false_iff.mpr hused, fun frame _ _ => by omega⟩

/-! ## The lowest run -/

/-- The starts of runs of `count` free frames at multiples of `align` that end at or below
`limit`. -/
def runStarts (b : FrameBitmap) (count align limit : Nat) : Set Nat :=
  {start | start % align = 0 ∧ start + count ≤ limit ∧ IsRun b.freeSet start count}

/-- A frame in use spoils every start up to the next multiple behind it. -/
theorem ceilTo_le_of_mem_runStarts {start used other : Nat} (halign : 0 < align)
    (hin : used < start + count) (hused : b.isFree used = false)
    (hother : other ∈ b.runStarts count align limit) (hle : start ≤ other) :
    ceilTo align (used + 1) ≤ other := by
  obtain ⟨hmod, -, hrun⟩ := hother
  refine ceilTo_le_of_mod halign hmod (Nat.lt_of_not_le fun hbefore => ?_)
  have hfree : b.isFree used = true := hrun used hbefore (by omega)
  rw [hused] at hfree
  cases hfree

theorem findRun_le (halign : 0 < align) :
    ∀ {tries start found : Nat}, b.findRun count align limit tries start = some found →
      ∀ other ∈ b.runStarts count align limit, start ≤ other → found ≤ other := by
  intro tries
  induction tries with
  | zero => intro start found h; cases h
  | succ tries ih =>
    intro start found h other hother hle
    rw [findRun] at h
    split at h
    · split at h
      · injection h with h
        rwa [← h]
      · rename_i used hfirst
        obtain ⟨-, hin, hused, -⟩ := firstUsed_eq_some hfirst
        exact ih h other hother (ceilTo_le_of_mem_runStarts halign hin hused hother hle)
    · cases h

/-- Each start tried is behind the one before, so tries up to the limit are enough. -/
theorem not_mem_runStarts_of_findRun (halign : 0 < align) :
    ∀ {tries start : Nat}, limit < start + tries →
      b.findRun count align limit tries start = none →
        ∀ other ∈ b.runStarts count align limit, ¬ start ≤ other := by
  intro tries
  induction tries with
  | zero =>
    intro start henough _ other hother hle
    have hend := hother.2.1
    omega
  | succ tries ih =>
    intro start henough h other hother hle
    rw [findRun] at h
    split at h
    · split at h
      · cases h
      · rename_i used hfirst
        obtain ⟨hbehind, hin, hused, -⟩ := firstUsed_eq_some hfirst
        -- the next start is behind this one, so one try less is enough
        have hnext := le_ceilTo halign (used + 1)
        exact ih (by omega) h other hother
          (ceilTo_le_of_mem_runStarts halign hin hused hother hle)
    · rename_i hbeyond
      exact hbeyond (Nat.le_trans (Nat.add_le_add_right hle count) hother.2.1)

/-- Every run starts at or behind the start that the tail gives. -/
theorem WellFormed.first_le (h : b.WellFormed) (hcount : 0 < count) (halign : 0 < align)
    {other : Nat} (hother : other ∈ b.runStarts count align limit) :
    ceilTo align (b.usedTail * 64) ≤ other := by
  obtain ⟨hmod, -, hrun⟩ := hother
  exact ceilTo_le_of_mod halign hmod (h.tail_le_of_isFree (hrun other (Nat.le_refl _) (by omega)))

/-- A run of free frames ends at or below the last frame. -/
theorem runStarts_min_frames (hcount : 0 < count) :
    b.runStarts count align (min limit b.frames) = b.runStarts count align limit := by
  ext start
  constructor
  · rintro ⟨hmod, hend, hrun⟩
    exact ⟨hmod, by omega, hrun⟩
  · rintro ⟨hmod, hend, hrun⟩
    have hlast : b.isFree (start + count - 1) = true := hrun (start + count - 1) (by omega) (by omega)
    have hlt := lt_of_isFree hlast
    exact ⟨hmod, by omega, hrun⟩

/-- The run taken is the lowest one. -/
theorem takeRun_some_isLeast (h : b.WellFormed) (hcount : 0 < count) (halign : 0 < align)
    {start : Nat} {b' : FrameBitmap} (e : b.takeRun count align limit = (some start, b')) :
    IsLeast (b.runStarts count align limit) start := by
  obtain ⟨hmod, hlimit, -⟩ := takeRun_place e
  obtain ⟨hfree, -⟩ := takeRun_eq_some h e
  refine ⟨⟨hmod, hlimit, hfree⟩, fun other hother => ?_⟩
  unfold takeRun at e
  simp only at e
  split at e
  · rename_i found hfound
    obtain ⟨hstart, -⟩ := Prod.mk.injEq .. ▸ e
    injection hstart with hstart
    subst hstart
    -- the search stops at the last frame, and no run goes on behind it
    rw [← runStarts_min_frames hcount] at hother
    exact findRun_le halign hfound other hother (h.first_le hcount halign hother)
  · cases e

/-- No run is taken only where there is none. -/
theorem takeRun_none_empty (h : b.WellFormed) (hcount : 0 < count) (halign : 0 < align)
    {b' : FrameBitmap} (e : b.takeRun count align limit = (none, b')) :
    b.runStarts count align limit = ∅ := by
  unfold takeRun at e
  simp only at e
  split at e
  · cases e
  · rename_i hnone
    rw [← runStarts_min_frames hcount]
    refine Set.eq_empty_of_forall_notMem fun other hother => ?_
    exact not_mem_runStarts_of_findRun halign (by omega) hnone other hother
      (h.first_le hcount halign hother)

/-- The frame taken is the lowest free one. -/
theorem takeLowest_some_isLeast (h : b.WellFormed) {frame : Nat} {b' : FrameBitmap}
    (e : b.takeLowest = (some frame, b')) : IsLeast b.freeSet frame :=
  ⟨(takeLowest_eq_some h e).1, fun _ hother => takeLowest_le h e hother⟩

/-- No frame is taken only where none is free. -/
theorem takeLowest_none_empty (h : b.WellFormed) {b' : FrameBitmap}
    (e : b.takeLowest = (none, b')) : b.freeSet = ∅ := by
  obtain ⟨-, -, -, hnone⟩ := takeLowest_eq_none h e
  refine Set.eq_empty_of_forall_notMem fun frame hfree => ?_
  have hfree : b.isFree frame = true := hfree
  rw [hnone frame] at hfree
  cases hfree

/-! ## The search as a loop -/

/-- The loop that looks for a run from a start on, and its answer. -/
inductive RunSearch (b : FrameBitmap) (count align limit : Nat) :
    (start : Nat) → (answer : Option Nat) → Prop where
  | past {start : Nat} (beyond : ¬ start + count ≤ limit) : RunSearch b count align limit start none
  | found {start : Nat} (fits : start + count ≤ limit) (free : b.firstUsed start count = none) :
      RunSearch b count align limit start (some start)
  | skipped {start used : Nat} {answer : Option Nat} (fits : start + count ≤ limit)
      (spoilt : b.firstUsed start count = some used)
      (rest : RunSearch b count align limit (ceilTo align (used + 1)) answer) :
      RunSearch b count align limit start answer

theorem runSearch_findRun (halign : 0 < align) :
    ∀ {tries start : Nat}, limit < start + tries →
      RunSearch b count align limit start (b.findRun count align limit tries start) := by
  intro tries
  induction tries with
  | zero =>
    intro start henough
    exact .past (by omega)
  | succ tries ih =>
    intro start henough
    rw [findRun]
    split
    · rename_i hfits
      cases hfirst : b.firstUsed start count with
      | none => exact .found hfits hfirst
      | some used =>
        obtain ⟨hbehind, -, -, -⟩ := firstUsed_eq_some hfirst
        have hnext := le_ceilTo halign (used + 1)
        exact .skipped hfits hfirst (ih (by omega))
    · rename_i hbeyond
      exact .past hbeyond

/-- Looking for a run ends. -/
theorem runSearch_takeRun (b : FrameBitmap) (halign : 0 < align) :
    RunSearch b count align (min limit b.frames) (ceilTo align (b.usedTail * 64))
      (b.takeRun count align limit).1 := by
  have hsearch : RunSearch b count align (min limit b.frames) (ceilTo align (b.usedTail * 64))
      (b.findRun count align (min limit b.frames) (min limit b.frames + 1)
        (ceilTo align (b.usedTail * 64))) :=
    runSearch_findRun halign (by omega)
  unfold takeRun
  simp only
  cases hfound : b.findRun count align (min limit b.frames) (min limit b.frames + 1)
      (ceilTo align (b.usedTail * 64)) with
  | none => rwa [hfound] at hsearch
  | some start => rwa [hfound] at hsearch

/-! ## Counting -/

/-- The clear bits at the start of a word, counted one by one. -/
theorem freeBelow_eq_count (word : Nat) {count : Nat} (h : count ≤ 64) :
    FrameWord.freeBelow word count = Nat.count (fun bit => word.testBit bit = false) count := by
  unfold FrameWord.freeBelow
  split
  · rename_i hfull
    -- a full word is not looked at, and has no clear bit
    refine (Nat.count_of_forall_not fun bit hbit => ?_).symm
    rw [hfull, testBit_full (by omega)]
    simp
  · exact List.countP_congr fun bit _ => by simp

/-- What a word contributes are the free frames among its first. -/
theorem WellFormed.freeBelow_word (h : b.WellFormed) (i : Nat) {count : Nat} (hcount : count ≤ 64) :
    FrameWord.freeBelow (b.words.getD i FrameWord.full) count
      = Nat.count (fun place => b.isFree (i * 64 + place) = true) count := by
  have hplace : ∀ place < count, (b.words.getD i FrameWord.full).testBit place = false
      ↔ b.isFree (i * 64 + place) = true := by
    intro place hlt
    rw [h.isFree_eq_not_bit, bit, show (i * 64 + place) / 64 = i by omega,
      show (i * 64 + place) % 64 = place by omega, Bool.not_eq_true']
  rw [freeBelow_eq_count _ hcount]
  exact Nat.le_antisymm (Nat.count_mono_left fun place hlt => (hplace place hlt).mp)
    (Nat.count_mono_left fun place hlt => (hplace place hlt).mpr)

theorem WellFormed.fold_freeBelow (h : b.WellFormed) (n : Nat) :
    n.fold (fun i _ total => total + FrameWord.freeBelow (b.words.getD i FrameWord.full) 64) 0
      = Nat.count (fun frame => b.isFree frame = true) (n * 64) := by
  induction n with
  | zero => simp
  | succ n ih =>
    rw [Nat.fold_succ, ih, h.freeBelow_word n (Nat.le_refl 64), Nat.succ_mul, Nat.count_add]

theorem count_isFree (b : FrameBitmap) (limit : Nat) :
    Nat.count (fun frame => b.isFree frame = true) limit
      = {frame | frame ∈ b.freeSet ∧ frame < limit}.ncard := by
  have hset : {frame | frame ∈ b.freeSet ∧ frame < limit}
      = ({frame ∈ Finset.range limit | b.isFree frame = true} : Finset Nat) := by
    ext frame
    rw [Finset.mem_coe, Finset.mem_filter, Finset.mem_range]
    exact and_comm
  rw [hset, Set.ncard_coe_finset, Nat.count_eq_card_filter_range]

/-- The count below a limit is that of the free frames there. -/
theorem WellFormed.freeBelow_eq_ncard (h : b.WellFormed) (limit : Nat) :
    b.freeBelow limit = {frame | frame ∈ b.freeSet ∧ frame < limit}.ncard := by
  unfold FrameBitmap.freeBelow
  split
  · rename_i hall
    have hall : b.frames ≤ limit := hall
    have hset : {frame | frame ∈ b.freeSet ∧ frame < limit} = b.freeSet := by
      ext frame
      refine ⟨And.left, fun hfree => ⟨hfree, ?_⟩⟩
      exact Nat.lt_of_lt_of_le (lt_of_isFree hfree) hall
    rw [hset]
    exact h.counted
  · simp only
    rw [h.fold_freeBelow, h.freeBelow_word _ (by omega), ← Nat.count_add, ← count_isFree]
    congr 1
    omega

theorem WellFormed.freeBelow_le (h : b.WellFormed) (limit : Nat) : b.freeBelow limit ≤ limit := by
  rw [h.freeBelow_eq_ncard, ← count_isFree]
  exact Nat.count_le _

/-- There are no more free frames than frames. -/
theorem WellFormed.free_le_frames (h : b.WellFormed) : b.free ≤ b.frames := by
  have hle : b.freeSet.ncard ≤ (Finset.range b.frames : Set Nat).ncard :=
    Set.ncard_le_ncard fun frame hfree => Finset.mem_coe.mpr (Finset.mem_range.mpr (lt_of_isFree hfree))
  rwa [Set.ncard_coe_finset, Finset.card_range, ← h.counted] at hle

end FrameBitmap

end KernelMemory
