/-
  KernelMemory.Proofs.Frames.Clients — frames in the hands of clients that give back what they
  hold.

  Any number of clients ask for pages and blocks, and give back blocks they hold with the order
  they were asked for, in any order.  At any moment the free frames are those of the start but
  for the frames held; what is held does not overlap, and lies where it may.

  Main results:
    * `Kept.step`, `Kept.run` — what one call keeps, and a whole run;
    * `Kept.available` — a frame is either free or held;
    * `clients_safe` — what is true at any moment.
-/

import Mathlib.Logic.Relation
import KernelMemory.Proofs.Frames.Calls

namespace KernelMemory

open FrameAllocator

/-! ## Calls of clients -/

/-- An allocator and the blocks that clients hold. -/
structure Holdings (Client : Type) where
  allocator : FrameAllocator
  held : List (Client × Block)

namespace Holdings

variable {Client : Type}

/-- One call of one client.  A page is given back as a block of order 0. -/
inductive Step : Holdings Client → Holdings Client → Prop where
  | granted {a a' : FrameAllocator} {held : List (Client × Block)} {request : Request}
      {address : PhysAddr} (client : Client)
      (answer : a.allocate request = (.ok address, a')) :
      Step ⟨a, held⟩ ⟨a', (client, request.blockAt address) :: held⟩
  | refused {a a' : FrameAllocator} {held : List (Client × Block)} {request : Request}
      {error : FrameError} (answer : a.allocate request = (.error error, a')) :
      Step ⟨a, held⟩ ⟨a', held⟩
  | gaveBack (a : FrameAllocator) (before : List (Client × Block)) (client : Client) (b : Block)
      (after : List (Client × Block)) :
      Step ⟨a, before ++ (client, b) :: after⟩
        ⟨(a.freeBlock b.address b.order).2, before ++ after⟩

/-- Gives back blocks one after another. -/
def giveBackAll (a : FrameAllocator) (held : List (Client × Block)) : FrameAllocator :=
  held.foldl (fun a p => (a.freeBlock p.2.address p.2.order).2) a

/-! ## Frames held -/

/-- The frames of blocks. -/
def heldFrames (held : List (Client × Block)) : Set Nat := {f | ∃ p ∈ held, f ∈ p.2.frames}

@[simp] theorem heldFrames_nil : heldFrames ([] : List (Client × Block)) = ∅ := by
  simp [heldFrames]

theorem heldFrames_cons (p : Client × Block) (held : List (Client × Block)) :
    heldFrames (p :: held) = p.2.frames ∪ heldFrames held := by
  ext f
  simp [heldFrames]

theorem heldFrames_perm {held held' : List (Client × Block)} (h : held.Perm held') :
    heldFrames held = heldFrames held' := by
  ext f
  show (∃ p ∈ held, f ∈ p.2.frames) ↔ ∃ p ∈ held', f ∈ p.2.frames
  simp only [h.mem_iff]

theorem finite_heldFrames (held : List (Client × Block)) : (heldFrames held).Finite := by
  induction held with
  | nil => simp
  | cons p held ih =>
    rw [heldFrames_cons]
    exact p.2.finite_frames.union ih

/-- No two blocks have a frame in common. -/
abbrev Apart (held : List (Client × Block)) : Prop :=
  held.Pairwise fun p q => ∀ f ∈ p.2.frames, f ∉ q.2.frames

theorem Apart.perm {held held' : List (Client × Block)} (h : Apart held) (hperm : held.Perm held') :
    Apart held' :=
  (hperm.pairwise_iff fun hapart f hf hf' => hapart f hf' hf).mp h

theorem Apart.not_held {p : Client × Block} {held : List (Client × Block)}
    (h : Apart (p :: held)) : ∀ f ∈ p.2.frames, f ∉ heldFrames held := by
  obtain ⟨hfirst, -⟩ := List.pairwise_cons.mp h
  intro f hf hheld
  obtain ⟨q, hq, hfq⟩ := hheld
  exact hfirst q hq f hf hfq

/-- Blocks that do not overlap have as many frames as their sizes say. -/
theorem Apart.ncard {held : List (Client × Block)} (h : Apart held) :
    (heldFrames held).ncard = (held.map fun p => p.2.size).sum := by
  induction held with
  | nil => simp
  | cons p held ih =>
    have hdisjoint := Set.disjoint_left.mpr fun f hf => h.not_held f hf
    rw [heldFrames_cons, Set.ncard_union_eq hdisjoint p.2.finite_frames (finite_heldFrames held),
      Block.ncard_frames, ih (List.pairwise_cons.mp h).2, List.map_cons, List.sum_cons]

/-! ## What every call keeps -/

/-- What every call keeps of an allocator that was started as `start`, and of the blocks held. -/
structure Kept (start : FrameAllocator) (s : Holdings Client) : Prop where
  wellFormed : s.allocator.WellFormed
  pages : s.allocator.totalPages = start.totalPages
  placed : ∀ p ∈ s.held, p.2.Placed
  apart : Apart s.held
  within : heldFrames s.held ⊆ start.freeSet
  free : s.allocator.freeSet = start.freeSet \ heldFrames s.held

section

variable {start a a' : FrameAllocator} {held : List (Client × Block)} {s s' : Holdings Client}

theorem Kept.initial (h : start.WellFormed) : Kept start (⟨start, []⟩ : Holdings Client) where
  wellFormed := h
  pages := rfl
  placed := by simp
  apart := .nil
  within := by simp
  free := by simp

/-- Nothing depends on the order in which blocks are listed. -/
theorem Kept.perm {held' : List (Client × Block)} (h : Kept start ⟨a, held⟩)
    (hperm : held.Perm held') : Kept start ⟨a, held'⟩ where
  wellFormed := h.wellFormed
  pages := h.pages
  placed := fun p hp => h.placed p (hperm.mem_iff.mpr hp)
  apart := h.apart.perm hperm
  within := by
    show heldFrames held' ⊆ start.freeSet
    rw [← heldFrames_perm hperm]
    exact h.within
  free := by
    show a.freeSet = start.freeSet \ heldFrames held'
    rw [← heldFrames_perm hperm]
    exact h.free

theorem Kept.granted (h : Kept start ⟨a, held⟩) {b : Block} (hgranted : a.Granted b a')
    (client : Client) : Kept start ⟨a', (client, b) :: held⟩ := by
  have hfree : a.freeSet = start.freeSet \ heldFrames held := h.free
  have hnew : b.frames ⊆ start.freeSet \ heldFrames held := hfree ▸ hgranted.free
  refine ⟨hgranted.wellFormed, hgranted.pages.trans h.pages, ?_, ?_, ?_, ?_⟩
  · intro p hp
    rcases List.mem_cons.mp hp with heq | hp
    · rw [heq]
      exact hgranted.placed
    · exact h.placed p hp
  · refine List.pairwise_cons.mpr ⟨fun p hp => ?_, h.apart⟩
    -- what was free is in no block held before
    intro f hf hfp
    exact (hnew hf).2 ⟨p, hp, hfp⟩
  · show heldFrames ((client, b) :: held) ⊆ start.freeSet
    rw [heldFrames_cons]
    exact Set.union_subset (fun f hf => (hnew hf).1) h.within
  · show a'.freeSet = start.freeSet \ heldFrames ((client, b) :: held)
    rw [heldFrames_cons, hgranted.left, hfree, Set.sdiff_sdiff, Set.union_comm]

theorem Kept.refused (h : Kept start ⟨a, held⟩) (hwf : a'.WellFormed)
    (hpages : a'.totalPages = a.totalPages) (hfree : a'.freeSet = a.freeSet) :
    Kept start ⟨a', held⟩ :=
  ⟨hwf, hpages.trans h.pages, h.placed, h.apart, h.within, hfree.trans h.free⟩

theorem Kept.gaveBack {p : Client × Block} (h : Kept start ⟨a, p :: held⟩) :
    Kept start ⟨(a.freeBlock p.2.address p.2.order).2, held⟩ := by
  obtain ⟨hwf, hpages⟩ := freeBlock_wellFormed h.wellFormed p.2.address p.2.order
  have hwithin : heldFrames (p :: held) ⊆ start.freeSet := h.within
  rw [heldFrames_cons] at hwithin
  obtain ⟨hblock, hrest⟩ := Set.union_subset_iff.mp hwithin
  refine ⟨hwf, hpages.trans h.pages, ?_, (List.pairwise_cons.mp h.apart).2, hrest, ?_⟩
  · exact fun q hq => h.placed q (List.mem_cons_of_mem p hq)
  · have haccepted := (h.placed p List.mem_cons_self).accepted
    have hfree : a.freeSet = start.freeSet \ heldFrames (p :: held) := h.free
    show (a.freeBlock p.2.address p.2.order).2.freeSet = start.freeSet \ heldFrames held
    rw [freeSet_freeBlock h.wellFormed, hfree, heldFrames_cons]
    ext f
    constructor
    · intro hin
      rcases hin with ⟨hstart, hnot⟩ | ⟨⟨-, hf⟩, -⟩
      · exact ⟨hstart, fun hheld => hnot (.inr hheld)⟩
      · exact ⟨hblock hf, h.apart.not_held f hf⟩
    · intro hin
      obtain ⟨hstart, hnot⟩ := hin
      by_cases hf : f ∈ p.2.frames
      · -- frames held exist, since they were free at the start
        have hlt : f < a.totalPages := by
          have hpages : a.totalPages = start.totalPages := h.pages
          rw [hpages]
          exact lt_totalPages hstart
        exact .inr ⟨⟨haccepted, hf⟩, hlt⟩
      · exact .inl ⟨hstart, fun hboth => hboth.elim hf hnot⟩

theorem Kept.step (h : Kept start s) (hstep : s.Step s') : Kept start s' := by
  cases hstep with
  | granted client answer => exact h.granted (allocate_ok h.wellFormed answer) client
  | refused answer =>
    obtain ⟨hwf, hpages, hfree⟩ := allocate_error h.wellFormed answer
    exact h.refused hwf hpages hfree
  | gaveBack a before client b after => exact (h.perm List.perm_middle).gaveBack

theorem Kept.run (h : Kept start s) (hrun : Relation.ReflTransGen Step s s') :
    Kept start s' := by
  induction hrun with
  | refl => exact h
  | tail _ hstep ih => exact ih.step hstep

/-! ## At any moment -/

/-- A frame that was available at the start is available, or held. -/
theorem Kept.available (h : Kept start s) (hstart : start.WellFormed) :
    start.available .normal
      = s.allocator.available .normal + (s.held.map fun p => p.2.size).sum := by
  rw [available_normal hstart, available_normal h.wellFormed, ← h.apart.ncard, h.free]
  exact (Set.ncard_sdiff_add_ncard_of_subset h.within (finite_freeSet start)).symm

/-- When all is given back, in whichever order, the frames are free that were at the start. -/
theorem Kept.giveBackAll : ∀ {held : List (Client × Block)} {a : FrameAllocator},
    Kept start ⟨a, held⟩ → (giveBackAll a held).freeSet = start.freeSet := by
  intro held
  induction held with
  | nil =>
    intro a h
    have hfree : a.freeSet = start.freeSet \ heldFrames ([] : List (Client × Block)) := h.free
    rwa [heldFrames_nil, Set.sdiff_empty] at hfree
  | cons p held ih => exact fun h => ih h.gaveBack

end

/-- What is true of blocks held, where the allocator was started with `map` as `start` and set
`heap` aside. -/
structure Safe (map : BootMap) (heap : Option MemoryRegion) (start : FrameAllocator)
    (s : Holdings Client) : Prop where
  apart : Apart s.held
  placed : ∀ p ∈ s.held, p.2.Placed
  offered : ∀ p ∈ s.held, ∀ frame ∈ p.2.frames, ∃ region ∈ map.regions, region.Offers frame
  outside : ∀ p ∈ s.held, ∀ region, heap = some region → ∀ frame ∈ p.2.frames,
    frame ∉ region.frames
  conserved : start.available .normal
    = s.allocator.available .normal + (s.held.map fun p => p.2.size).sum
  restored : ∀ sequence : List (Client × Block), sequence.Perm s.held →
    (giveBackAll s.allocator sequence).freeSet = start.freeSet

/-- Blocks in the hands of clients that give back what they hold do not overlap.  They lie where
they may, in free memory of the map and outside the pool; no frame is lost, and when all is
given back, what was free at the start is. -/
theorem clients_safe {pages : Nat} {map : BootMap} (hwords : map.stop < Word.bound)
    {d : Descriptor} (hheap : d.heap = none) {s : Holdings Client}
    (h : Relation.ReflTransGen Step ⟨(init ⟨pages, none⟩ map d).2.1, []⟩ s) :
    Safe map (init ⟨pages, none⟩ map d).2.2.1.heap (init ⟨pages, none⟩ map d).2.1 s := by
  have hstart := (init_wellFormed (wellFormed_unstarted pages) hwords d).1
  have hkept := (Kept.initial hstart).run h
  have hfirst : ∀ p ∈ s.held, ∀ frame ∈ p.2.frames,
      frame ∈ (init ⟨pages, none⟩ map d).2.1.freeSet :=
    fun p hp frame hframe => hkept.within ⟨p, hp, hframe⟩
  refine ⟨hkept.apart, hkept.placed, ?_, ?_, hkept.available hstart, ?_⟩
  · intro p hp frame hframe
    exact ((mem_freeSet_init hwords d frame).mp (hfirst p hp frame hframe)).1.2.2
  · intro p hp region hregion frame hframe
    rw [heap_init, hheap, Option.none_or] at hregion
    exact ((mem_freeSet_init hwords d frame).mp (hfirst p hp frame hframe)).2 region hregion
  · intro sequence hperm
    exact (hkept.perm hperm.symm).giveBackAll

/-- The map of eight frames of free memory. -/
def eightFrames : BootMap := ⟨[⟨0, .free, .none⟩, ⟨0x8000, .endMarker, .none⟩], by decide⟩

/-- The allocator of eight frames, one of them set aside, whose bits are `word`. -/
def eightAllocator (word free : Nat) : FrameAllocator := ⟨1, some ⟨#[word], 8, 0, free⟩⟩

/-- Of eight frames one is set aside.  One client takes a block and another a page; the first
gives its block back and takes a page. -/
theorem clients_safe_eightFrames :
    eightFrames.stop < Word.bound ∧ ({} : Descriptor).heap = none ∧ ∃ s : Holdings Bool,
      Relation.ReflTransGen Step ⟨(init ⟨1, none⟩ eightFrames {}).2.1, []⟩ s
        ∧ s.held = [(true, ⟨0x2000, 0, .normal⟩), (false, ⟨0x4000, 0, .normal⟩)]
        ∧ Safe eightFrames (init ⟨1, none⟩ eightFrames {}).2.2.1.heap
            (init ⟨1, none⟩ eightFrames {}).2.1 s := by
  have hstart : (init ⟨1, none⟩ eightFrames {}).2.1 = eightAllocator 0xFFFFFFFFFFFFFF03 6 := by
    decide +kernel
  have hblock : (eightAllocator 0xFFFFFFFFFFFFFF03 6).allocate (.block 1 .legacy)
      = (.ok 0x2000, eightAllocator 0xFFFFFFFFFFFFFF0F 4) := by decide +kernel
  have hpage : (eightAllocator 0xFFFFFFFFFFFFFF0F 4).allocate .page
      = (.ok 0x4000, eightAllocator 0xFFFFFFFFFFFFFF1F 3) := by decide +kernel
  have hback : ((eightAllocator 0xFFFFFFFFFFFFFF1F 3).freeBlock 0x2000 1).2
      = eightAllocator 0xFFFFFFFFFFFFFF13 5 := by decide +kernel
  have hagain : (eightAllocator 0xFFFFFFFFFFFFFF13 5).allocate .page
      = (.ok 0x2000, eightAllocator 0xFFFFFFFFFFFFFF17 4) := by decide +kernel
  have hreturn := Step.gaveBack (eightAllocator 0xFFFFFFFFFFFFFF1F 3)
    [(false, ⟨0x4000, 0, .normal⟩)] true ⟨0x2000, 1, .legacy⟩ []
  rw [hback] at hreturn
  have hrun : Relation.ReflTransGen Step ⟨(init ⟨1, none⟩ eightFrames {}).2.1, []⟩
      ⟨eightAllocator 0xFFFFFFFFFFFFFF17 4,
        [(true, ⟨0x2000, 0, .normal⟩), (false, ⟨0x4000, 0, .normal⟩)]⟩ := by
    rw [hstart]
    exact (((Relation.ReflTransGen.single (Step.granted true hblock)).tail
      (Step.granted false hpage)).tail hreturn).tail (Step.granted true hagain)
  exact ⟨by decide, rfl, _, hrun, rfl, clients_safe (by decide) rfl hrun⟩

end Holdings

end KernelMemory
