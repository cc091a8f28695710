/-
  KernelMemory.Proofs.Frames.Exact — requests are answered with the lowest frames there are.

  The answer to a request follows from the set of free frames alone: the lowest free frame, or
  the lowest aligned block of free frames that ends where it may; and a refusal says that there
  is none.  The bitmap keeps more than that set (its tail depends on what was handed out and
  given back before), but it only shortens the search.

  Main results:
    * `answers_allocate` — a request to a live allocator is answered as the free frames say;
    * `Answers.unique` — they say one thing only;
    * `requests_answered_exactly` — both, with the end of the searches.
-/

import KernelMemory.Proofs.Frames.Live
import KernelMemory.Proofs.Frames.Clients

namespace KernelMemory

open FrameAllocator

/-! ## Answers -/

namespace Request

/-- What is asked for are `2 ^ order` frames. -/
def order : Request → Nat
  | page => 0
  | block order _ => order

/-- The frames that what is asked for can start with, where the frames `free` are free and memory
ends at `stop`. -/
def starts (free : Set Nat) (stop : Nat) : Request → Set Nat
  | page => free
  | block order zone =>
    {start | start % 2 ^ order = 0 ∧ (start + 2 ^ order) * frameSize ≤ min zone.ceiling stop
      ∧ IsRun free start (2 ^ order)}

end Request

/-- What a request is answered with where the frames `free` are free and memory ends at `stop`,
and which frames are free afterwards. -/
inductive Answers (free : Set Nat) (stop : Nat) (request : Request) :
    Except FrameError PhysAddr → Set Nat → Prop where
  | tooLarge (large : maxOrder < request.order) :
      Answers free stop request (.error (.orderTooLarge request.order)) free
  | granted {start : Nat} (small : request.order ≤ maxOrder)
      (least : IsLeast (request.starts free stop) start) :
      Answers free stop request (.ok (start * frameSize))
        (free \ {frame | start ≤ frame ∧ frame < start + 2 ^ request.order})
  | refused (small : request.order ≤ maxOrder) (none : request.starts free stop = ∅) :
      Answers free stop request (.error .outOfMemory) free

variable {free free' left left' : Set Nat} {stop stop' : Nat} {request : Request}

/-- The free frames and the end of memory decide the answer and what is left. -/
theorem Answers.unique {answer answer' : Except FrameError PhysAddr}
    (h : Answers free stop request answer left) (h' : Answers free stop request answer' left') :
    answer = answer' ∧ left = left' := by
  cases h with
  | tooLarge large =>
    cases h' with
    | tooLarge _ => exact ⟨rfl, rfl⟩
    | granted small _ => exact absurd large (Nat.not_lt.mpr small)
    | refused small _ => exact absurd large (Nat.not_lt.mpr small)
  | granted small least =>
    cases h' with
    | tooLarge large => exact absurd large (Nat.not_lt.mpr small)
    | granted _ least' =>
      have heq := least.unique least'
      subst heq
      exact ⟨rfl, rfl⟩
    | refused _ none =>
      have hmem := least.1
      rw [none] at hmem
      exact hmem.elim
  | refused small none =>
    cases h' with
    | tooLarge large => exact absurd large (Nat.not_lt.mpr small)
    | granted _ least =>
      have hmem := least.1
      rw [none] at hmem
      exact hmem.elim
    | refused _ _ => exact ⟨rfl, rfl⟩

/-- Where free frames are below the end of memory anyway, that end does not matter. -/
theorem Request.starts_eq (hstop : ∀ frame ∈ free, (frame + 1) * frameSize ≤ stop)
    (hstop' : ∀ frame ∈ free, (frame + 1) * frameSize ≤ stop') (request : Request) :
    request.starts free stop = request.starts free stop' := by
  cases request with
  | page => rfl
  | block order zone =>
    have hpos : 0 < 2 ^ order := Nat.two_pow_pos order
    -- the last frame of a run is free
    have hend : ∀ {bound : Nat}, (∀ frame ∈ free, (frame + 1) * frameSize ≤ bound) →
        ∀ start, IsRun free start (2 ^ order) → (start + 2 ^ order) * frameSize ≤ bound := by
      intro bound hbound start hrun
      have hlast := hbound _ (hrun (start + 2 ^ order - 1) (by omega) (by omega))
      rwa [show start + 2 ^ order - 1 + 1 = start + 2 ^ order by omega] at hlast
    ext start
    constructor
    · rintro ⟨hmod, hzone, hrun⟩
      exact ⟨hmod, Nat.le_min.mpr ⟨(Nat.le_min.mp hzone).1, hend hstop' start hrun⟩, hrun⟩
    · rintro ⟨hmod, hzone, hrun⟩
      exact ⟨hmod, Nat.le_min.mpr ⟨(Nat.le_min.mp hzone).1, hend hstop start hrun⟩, hrun⟩

/-- Of the end of memory, an answer depends on what it leaves to start with. -/
theorem Answers.of_starts_eq {answer : Except FrameError PhysAddr}
    (h : Answers free stop' request answer left)
    (hstarts : request.starts free stop' = request.starts free stop) :
    Answers free stop request answer left := by
  cases h with
  | tooLarge large => exact .tooLarge large
  | granted small least => exact .granted small (hstarts ▸ least)
  | refused small none => exact .refused small (hstarts ▸ none)

/-- Memory is out exactly when there is nothing to start with. -/
theorem Answers.refused_iff {answer : Except FrameError PhysAddr}
    (h : Answers free stop request answer left) :
    answer = .error .outOfMemory ↔ request.order ≤ maxOrder ∧ request.starts free stop = ∅ := by
  constructor
  · rintro rfl
    cases h with
    | refused small none => exact ⟨small, none⟩
  · rintro ⟨small, none⟩
    exact (h.unique (.refused small none)).1

/-- The loops that a request goes through end: the tail is moved, and a run is looked for. -/
def FrameBitmap.SearchesEnd (b : FrameBitmap) : Request → Prop
  | .page => FrameBitmap.TailSearch b.words b.usedTail b.settle.usedTail
  | .block order zone =>
    b.RunSearch (2 ^ order) (2 ^ order) (min zone.frameLimit b.frames)
      (ceilTo (2 ^ order) (b.usedTail * 64)) (b.takeRun (2 ^ order) (2 ^ order) zone.frameLimit).1

theorem FrameBitmap.searchesEnd (b : FrameBitmap) (request : Request) : b.SearchesEnd request := by
  cases request with
  | page => exact b.tailSearch_settle
  | block order zone => exact b.runSearch_takeRun (Nat.two_pow_pos order)

namespace FrameAllocator

variable {a : FrameAllocator} {map : BootMap} {b : FrameBitmap}

/-! ## Live allocators -/

theorem Carries.start_eq (h : Carries map a b) {frame : Nat} (hfree : frame ∈ a.freeSet) :
    FrameNumber.start frame = frame * frameSize :=
  start_of_lt h.wellFormed (lt_totalPages hfree)

/-- A free frame ends at or below the end of the map. -/
theorem Carries.frame_end_le (h : Carries map a b) {frame : Nat} (hfree : frame ∈ a.freeSet) :
    (frame + 1) * frameSize ≤ map.stop := by
  have hlt : frame < map.stop / frameSize := h.totalPages_eq ▸ lt_totalPages hfree
  exact (Nat.le_div_iff_mul_le (by decide)).mp hlt

/-- The starts of blocks that may be handed out are those of the runs that are searched. -/
theorem Carries.starts_block (h : Carries map a b) (order : Nat) (zone : Zone) :
    (Request.block order zone).starts a.freeSet map.stop
      = b.runStarts (2 ^ order) (2 ^ order) zone.frameLimit := by
  have hpos : 0 < 2 ^ order := Nat.two_pow_pos order
  rw [← FrameBitmap.runStarts_min_frames hpos, h.frames]
  ext start
  show start % 2 ^ order = 0 ∧ (start + 2 ^ order) * frameSize ≤ min zone.ceiling map.stop
      ∧ IsRun a.freeSet start (2 ^ order)
    ↔ start % 2 ^ order = 0 ∧ start + 2 ^ order ≤ min (zone.ceiling / frameSize) (map.stop / frameSize)
      ∧ IsRun b.freeSet start (2 ^ order)
  rw [h.freeSet_eq, Nat.le_min, Nat.le_min, Nat.le_div_iff_mul_le (by decide),
    Nat.le_div_iff_mul_le (by decide)]

/-- What is left after a request was granted are the other frames. -/
theorem Granted.left_eq {a' : FrameAllocator} {start : Nat}
    (h : a.Granted (request.blockAt (start * frameSize)) a') : a'.freeSet
      = a.freeSet \ {frame | start ≤ frame ∧ frame < start + 2 ^ request.order} := by
  have hframes : (request.blockAt (start * frameSize)).frames
      = {frame | start ≤ frame ∧ frame < start + 2 ^ request.order} := by
    have hdiv : start * frameSize / frameSize = start := Nat.mul_div_cancel _ (by decide)
    cases request with
    | page =>
      show {f | start * frameSize / frameSize ≤ f ∧ f < start * frameSize / frameSize + 2 ^ 0} = _
      rw [hdiv]
      rfl
    | block order zone =>
      show {f | start * frameSize / frameSize ≤ f ∧ f < start * frameSize / frameSize + 2 ^ order} = _
      rw [hdiv]
      rfl
  rw [h.left, hframes]

/-- A request granted with the lowest start. -/
theorem Carries.answers_ok (h : Carries map a b) {a' : FrameAllocator} {start : Nat}
    (horder : request.order ≤ maxOrder)
    (hleast : IsLeast (request.starts a.freeSet map.stop) start)
    (e : a.allocate request = (.ok (start * frameSize), a')) :
    Answers a.freeSet map.stop request (a.allocate request).1 (a.allocate request).2.freeSet := by
  rw [e]
  show Answers a.freeSet map.stop request (.ok (start * frameSize)) a'.freeSet
  rw [(allocate_ok h.wellFormed e).left_eq]
  exact .granted horder hleast

/-- A request refused for want of memory. -/
theorem Carries.answers_error (h : Carries map a b) {a' : FrameAllocator}
    (horder : request.order ≤ maxOrder) (hnone : request.starts a.freeSet map.stop = ∅)
    (e : a.allocate request = (.error .outOfMemory, a')) :
    Answers a.freeSet map.stop request (a.allocate request).1 (a.allocate request).2.freeSet := by
  rw [e]
  show Answers a.freeSet map.stop request (.error .outOfMemory) a'.freeSet
  rw [(allocate_error h.wellFormed e).2.2]
  exact .refused horder hnone

theorem Carries.answers_page (h : Carries map a b) :
    Answers a.freeSet map.stop .page (a.allocate .page).1 (a.allocate .page).2.freeSet := by
  obtain ⟨pool, bitmap⟩ := a
  have hbitmap := h.bitmap
  subst hbitmap
  have hvalue : allocate ⟨pool, some b⟩ .page = _ := allocatePage_eq pool b
  cases htake : b.takeLowest with
  | mk frame? b' =>
    rw [htake] at hvalue
    cases frame? with
    | some frame =>
      have hleast := FrameBitmap.takeLowest_some_isLeast h.sound.toWellFormed htake
      have hfree : frame ∈ FrameAllocator.freeSet ⟨pool, some b⟩ := hleast.1
      rw [Option.elim_some, h.start_eq hfree] at hvalue
      exact h.answers_ok (Nat.zero_le _) hleast hvalue
    | none =>
      exact h.answers_error (Nat.zero_le _)
        (FrameBitmap.takeLowest_none_empty h.sound.toWellFormed htake) hvalue

theorem Carries.answers_block (h : Carries map a b) {order : Nat} (horder : order ≤ maxOrder)
    (zone : Zone) : Answers a.freeSet map.stop (.block order zone)
      (a.allocate (.block order zone)).1 (a.allocate (.block order zone)).2.freeSet := by
  have hpos : 0 < 2 ^ order := Nat.two_pow_pos order
  have hstarts := h.starts_block order zone
  obtain ⟨pool, bitmap⟩ := a
  have hbitmap := h.bitmap
  subst hbitmap
  have hvalue : allocate ⟨pool, some b⟩ (.block order zone) = _ :=
    allocateBlock_eq pool b horder zone
  cases htake : b.takeRun (2 ^ order) (2 ^ order) zone.frameLimit with
  | mk start? b' =>
    rw [htake] at hvalue
    cases start? with
    | some start =>
      have hleast := FrameBitmap.takeRun_some_isLeast h.sound.toWellFormed hpos hpos htake
      have hfirst : start ∈ FrameAllocator.freeSet ⟨pool, some b⟩ :=
        hleast.1.2.2 start (Nat.le_refl _) (by omega)
      rw [Option.elim_some, h.start_eq hfirst] at hvalue
      exact h.answers_ok horder (hstarts ▸ hleast) hvalue
    | none =>
      exact h.answers_error horder
        (hstarts.trans (FrameBitmap.takeRun_none_empty h.sound.toWellFormed hpos hpos htake)) hvalue

/-- A request to a live allocator is answered as its free frames say. -/
theorem answers_allocate (hwords : map.stop < Word.bound) (h : Live map a) (request : Request) :
    Answers a.freeSet map.stop request (a.allocate request).1 (a.allocate request).2.freeSet := by
  obtain ⟨b, hb⟩ := h.carries hwords
  cases request with
  | page => exact hb.answers_page
  | block order zone =>
    by_cases horder : order ≤ maxOrder
    · exact hb.answers_block horder zone
    · have hlarge : maxOrder < order := Nat.lt_of_not_le horder
      have hvalue : a.allocate (.block order zone) = _ := allocateBlock_of_lt a hlarge zone
      rw [hvalue]
      exact .tooLarge hlarge

/-- Allocators with the same free frames answer alike, whatever happened to them before and
whatever memory they cover. -/
theorem allocate_eq_of_freeSet (hwords : map.stop < Word.bound) (h : Live map a) {map' : BootMap}
    {a' : FrameAllocator} (hwords' : map'.stop < Word.bound) (h' : Live map' a')
    (hfree : a'.freeSet = a.freeSet) (request : Request) :
    (a'.allocate request).1 = (a.allocate request).1
      ∧ (a'.allocate request).2.freeSet = (a.allocate request).2.freeSet := by
  obtain ⟨b, hb⟩ := h.carries hwords
  obtain ⟨b', hb'⟩ := h'.carries hwords'
  have hanswer := answers_allocate hwords h request
  have hanswer' := answers_allocate hwords' h' request
  have hstarts : request.starts a.freeSet map'.stop = request.starts a.freeSet map.stop :=
    Request.starts_eq (fun frame hin => hb'.frame_end_le (hfree ▸ hin))
      (fun frame hin => hb.frame_end_le hin) request
  rw [hfree] at hanswer'
  exact (hanswer'.of_starts_eq hstarts).unique hanswer

/-! ## Exact answers -/

/-- How a request is answered by an allocator that was started with a map. -/
structure AnsweredExactly (map : BootMap) (a : FrameAllocator) (request : Request) : Prop where
  answer : Answers a.freeSet map.stop request (a.allocate request).1 (a.allocate request).2.freeSet
  /-- Memory is out exactly when there is nothing to start with. -/
  refused : (a.allocate request).1 = .error .outOfMemory
    ↔ request.order ≤ maxOrder ∧ request.starts a.freeSet map.stop = ∅
  /-- Any other history that left the same frames free leads to the same answer. -/
  sameAnswer : ∀ (map' : BootMap) (a' : FrameAllocator), map'.stop < Word.bound → Live map' a' →
    a'.freeSet = a.freeSet → (a'.allocate request).1 = (a.allocate request).1
      ∧ (a'.allocate request).2.freeSet = (a.allocate request).2.freeSet
  ends : ∀ b, a.bitmap = some b → b.SearchesEnd request

/-- In every state after the start, a request is answered with the lowest frames there are, as
the free frames alone decide. -/
theorem requests_answered_exactly (hwords : map.stop < Word.bound) (h : Live map a)
    (request : Request) : AnsweredExactly map a request := by
  have hanswer := answers_allocate hwords h request
  exact ⟨hanswer, hanswer.refused_iff, fun map' a' hwords' h' hfree =>
    allocate_eq_of_freeSet hwords h hwords' h' hfree request, fun b _ => b.searchesEnd request⟩

/-- Of eight frames one was set aside, two were handed out, and the lower of them was given
back. -/
def raggedEight : FrameAllocator :=
  (((init ⟨1, none⟩ Holdings.eightFrames {}).2.1.after (.allocate .page)).after
    (.allocate .page)).after (.free 0x2000 0)

theorem live_raggedEight : Live Holdings.eightFrames raggedEight :=
  (((Live.started 1 {}).after (.allocate .page)).after (.allocate .page)).after (.free 0x2000 0)

/-- A block of two frames does not start where only one frame is free; a page does. -/
theorem requests_answered_exactly_raggedEight :
    Holdings.eightFrames.stop < Word.bound ∧ Live Holdings.eightFrames raggedEight
      ∧ AnsweredExactly Holdings.eightFrames raggedEight (.block 1 .legacy)
      ∧ (raggedEight.allocate (.block 1 .legacy)).1 = .ok 0x4000
      ∧ (raggedEight.allocate .page).1 = .ok 0x2000 :=
  ⟨by decide, live_raggedEight,
    requests_answered_exactly (by decide) live_raggedEight (.block 1 .legacy),
    by decide +kernel, by decide +kernel⟩

end FrameAllocator

end KernelMemory
