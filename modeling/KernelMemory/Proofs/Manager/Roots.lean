/-
  KernelMemory.Proofs.Manager.Roots — no processor runs on a destroyed space, or goes back to one.

  Three operations load a root, and each skips that where the root is loaded already; mapping
  user memory leaves the lock three times between its first check and its end.  Still what the
  manager notes of a processor is what is loaded there, and a space is only destroyed when no
  processor has it, now or to go back to.

  Main results:
    * `roots_alive` — so it is in every state of every run.
-/

import KernelMemory.Proofs.Manager.Populated

namespace KernelMemory

open Machine Manager Steps

/-- Processors run on spaces that exist, and go back to such. -/
structure RootsAlive (format : Format) (s : System) : Prop where
  /-- What is noted as loaded on a processor is loaded there. -/
  noted : ∀ {cpu : CpuId} {roots : CpuRoots}, s.machine.roots? cpu = some roots →
    (s.machine.cpu cpu).root = roots.loaded
  /-- The root in use is that of a space that exists, or the one after power-on. -/
  running : ∀ cpu : CpuId, s.machine.Alive ⟨(s.machine.cpu cpu).root⟩
    ∨ (s.machine.cpu cpu).root = Cpu.powerOn.root
  /-- So is the root to go back to. -/
  returning : ∀ {cpu : CpuId} {root : PhysAddr}, savedRoot s.machine cpu = some root →
    s.machine.Alive ⟨root⟩ ∨ root = Cpu.powerOn.root
  /-- The root of a space that is destroyed is in use nowhere, and nobody goes back to it,
  neither before nor after. -/
  destroyed : ∀ {cpu : CpuId} {space : AddressSpace} {m' : Machine},
    deleteSpace format cpu space s.machine = .ok () m' → ∀ other : CpuId,
      ((s.machine.cpu other).root ≠ space.root ∧ savedRoot s.machine other ≠ some space.root)
        ∧ (m'.cpu other).root ≠ space.root ∧ savedRoot m' other ≠ some space.root
  /-- Who entered the kernel space to map user memory can leave it. -/
  leaving : ∀ {cpu : CpuId}, (s.stage cpu).inside → ∃ m', leaveKernel cpu s.machine = .ok () m'

section

variable {format : Format} {config : Config} {poolPages : Nat} {cpu : CpuId} {m : Machine}
  {s : System}

/-- A root that is not in use is loaded nowhere and saved nowhere. -/
theorem ne_of_not_uses {root : PhysAddr} (h : ¬ m.Uses root) (other : CpuId) :
    (m.cpu other).root ≠ root ∧ savedRoot m other ≠ some root := by
  refine ⟨fun heq => h (.inl ⟨other, heq⟩), fun heq => ?_⟩
  obtain ⟨roots, hroots, hsaved⟩ := Option.bind_eq_some_iff.mp heq
  exact h (.inr ⟨other, roots, hroots, .inr hsaved⟩)

/-- In every state that processors reach, in any order of their sections, each runs on a space
that exists and can go back to one. -/
theorem roots_alive (h : Reachable format config AnyCall poolPages s) : RootsAlive format s where
  noted := fun hroots => (h.sound.placed.loaded hroots).symm
  running := fun cpu => (h.sound.placed.legit cpu).symm
  returning := fun {cpu root} hsaved => by
    obtain ⟨roots, hroots, hroot⟩ := Option.bind_eq_some_iff.mp hsaved
    exact (h.sound.placed.saved hroots hroot).symm
  destroyed := fun {cpu space m'} hdelete other => by
    obtain ⟨-, hsame, hnot⟩ := (ends_deleteSpace h.sound.machine h.sound.placed).of_ok hdelete
    -- the space was only destroyed because no processor used it, and processors were left alone
    have hbefore := ne_of_not_uses hnot other
    refine ⟨hbefore, ?_, ?_⟩
    · rw [hsame.root]
      exact hbefore.1
    · rw [savedRoot, hsame.noted]
      exact hbefore.2
  leaving := fun {cpu} hinside => by
    obtain ⟨saved, hsaved⟩ := h.sound.inside hinside
    have hends := ends_leaveKernel_of_saved h.sound.placed hsaved
    unfold Ends at hends
    split at hends
    · rename_i m' heq
      exact ⟨m', heq⟩
    · exact hends.elim

/-- In particular, where a processor runs on the root of a task that has memory mapped. -/
theorem roots_alive_with_task : ∃ s spaces space, Reachable .narrow mirrored AnyCall 0 s
    ∧ s.machine.Populated spaces space ∧ RootsAlive .narrow s := by
  obtain ⟨s, spaces, space, hs, hmapped⟩ :
      ∃ s spaces space, Reachable .narrow mirrored AnyCall 0 s ∧ _ :=
    exists_populated trivial trivial trivial (fun _ => trivial) fun _ => trivial
  exact ⟨s, spaces, space, hs, hmapped, roots_alive hs⟩

end

end KernelMemory
