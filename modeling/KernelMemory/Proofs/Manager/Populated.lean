/-
  KernelMemory.Proofs.Manager.Populated — a run after which kernel memory and user memory are mapped.

  The kernel owns memory in two regions, and sees it at its addresses and a second time in the upper
  half.  A task is made, which sees it there too, and is given a range of more than a large page for
  itself.  States as this one are where what holds of all spaces is not empty.

  Main results:
    * `exists_started_mixedMap` — the manager starts, and frames are left;
    * `exists_populated` — from there, a task with memory of its own.
-/

import KernelMemory.Proofs.Manager.Acceptance
import KernelMemory.Proofs.Manager.KernelTree

namespace KernelMemory

open Machine Manager Steps

/-- Memory is mapped for the kernel, in two views, and for a task, at both ends of a range of 4 MiB and
4 KiB.  The task sees the second view, and a processor runs on its root. -/
structure Machine.Populated (m : Machine) (spaces : Spaces) (space : AddressSpace) : Prop where
  known : m.spaces = some spaces
  task : space ∈ spaces.tasks
  kernel : m.translate .narrow spaces.kernel 0x2004 = .ok (some 0x2004)
  second : m.translate .narrow spaces.kernel 0x80002004 = .ok (some 0x2004)
  shared : m.translate .narrow space 0x80002004 = .ok (some 0x2004)
  first : m.translate .narrow space 0x400004 = .ok (some 0x800004)
  last : m.translate .narrow space 0x800004 = .ok (some 0xc00004)
  active : (m.cpu 0).root = space.root

section

variable {Rule : Call → Prop}

/-- The manager starts with the map, and most frames are left. -/
theorem exists_started_mixedMap (ruleFrames : Rule (.initFrames mixedMap))
    (ruleInit : Rule (.init mixedMap [])) :
    ∃ m₀ m stock kernel, Answered .narrow mirrored Rule 0
        [(0, .initFrames mixedMap), (0, .init mixedMap [])] m stock
      ∧ KernelBuilt .narrow mirrored 0 mixedMap kernel m₀ m ∧ savedRoot m 0 = none
      ∧ 16367 ≤ m.store.frames.available .normal := by
  obtain ⟨m₀, stock, h₀, initialized, hspaces, henough⟩ : ∃ m stock,
      Answered .narrow mirrored Rule 0 [(0, .initFrames mixedMap)] m stock ∧ _ ∧ _ ∧ _ :=
    exists_framed_mixedMap ruleFrames
  have hends : Ends (Manager.init .narrow mirrored 0 mixedMap []) m₀
      (fun kernel m => KernelBuilt .narrow mirrored 0 mixedMap kernel m₀ m ∧ savedRoot m 0 = none
        ∧ 16367 ≤ m.store.frames.available .normal)
      (fun _ _ => False) := by
    have hm₀ : m₀.Sound .narrow stock := h₀.reachable.sound.machine
    refine (ends_init_shown hm₀ hspaces initialized (by decide) rfl mirrored_fits).mono
      (fun kernel m hdone => ?_) fun f m hf => ?_
    · obtain ⟨hbuilt, houtside, hspent⟩ := hdone
      rw [regionTables_mixedMap] at hspent
      exact ⟨hbuilt, houtside, by omega⟩
    · cases f with
      | fault fault => exact hf
      | refused error =>
        have hshort := hf.2
        rw [regionTables_mixedMap] at hshort
        omega
  obtain ⟨kernel, m, e, hdone⟩ := exists_of_ends hends
  have hpermitted : (Call.init mixedMap []).Permitted stock.held := trivial
  exact ⟨m₀, m, _, kernel, h₀.next hpermitted ruleInit (perform_of_init e), hdone⟩

/-- A task is made, and is given its range. -/
theorem exists_populated (ruleFrames : Rule (.initFrames mixedMap))
    (ruleInit : Rule (.init mixedMap [])) (ruleSpace : Rule .createSpace)
    (ruleSwitch : ∀ space, Rule (.switchTo space))
    (ruleUser : ∀ space, Rule (.mapUser space 0x400000 0x800000 0x401000)) :
    ∃ s spaces space, Reachable .narrow mirrored Rule 0 s ∧ s.machine.Populated spaces space := by
  obtain ⟨m₀, m₁, stock₁, kernel, h₁, hbuilt, houtside, hleft⟩ :=
    exists_started_mixedMap ruleFrames ruleInit
  obtain ⟨spaces₁, hspaces₁, hkernel⟩ := Option.map_eq_some_iff.mp hbuilt.kernel
  have hstarted : m₁.spaces ≠ none := started_of_kernelSpace hbuilt.kernel
  obtain ⟨m₂, stock₂, space, h₂, hon⟩ :=
    h₁.onTask hstarted houtside (by omega) ruleSpace ruleSwitch
  have htables : tablesWanted .narrow mirrored 0x400000 0x800000 0x401000 ≤ 16000 := by
    decide +kernel
  have hspent := hon.spent
  obtain ⟨m₃, stock₃, h₃, e₃⟩ :=
    h₂.mapUser hon (by decide) (by decide) (by decide) (by omega) (ruleUser space)
  have hs₂ := h₂.reachable.sound
  have hdone := (ends_mapUser hs₂.machine hs₂.placed).of_ok e₃
  have hmapped := hdone.tables
  -- the spaces are those there were, and the task
  obtain ⟨spaces, hspaces, hcensus⟩ := hon.census
  rw [hspaces₁] at hspaces
  cases hspaces
  obtain ⟨spaces₃, hspaces₃, heq⟩ := exists_of_census (hmapped.census.trans hcensus)
  simp only [Spaces.census, Prod.mk.injEq] at heq
  obtain ⟨-, hsame, htasks⟩ := heq
  have htask : space ∈ spaces₃.tasks := by
    rw [htasks]
    exact List.mem_insert_self
  -- kernel memory is where it was
  have halive : m₁.Alive kernel := ⟨spaces₁, hspaces₁, .inl hkernel.symm⟩
  have hkept : ∀ {v a : Nat}, Format.narrow.virtualInRange v = true → a < 0x3000 →
      mirrored.Shows v a → m₃.translate .narrow spaces₃.kernel v = .ok (some a) := by
    intro v a hv ha hshows
    rw [hsame, hkernel]
    refine translate_of_mappedUser hmapped hs₂.machine ?_
    rw [(hon.others v halive).translate]
    exact translate_mixedMap hbuilt hv ha hshows
  have hsecond : m₃.translate .narrow spaces₃.kernel 0x80002004 = .ok (some 0x2004) :=
    hkept (by decide) (by decide) ⟨by decide, .inr ⟨_, rfl, rfl⟩⟩
  have hbyte : ∀ {v a i : Nat}, i < 0x401000 → 0x400000 + i = v → 0x800000 + i = a →
      m₃.translate .narrow space v = .ok (some a) := by
    rintro _ _ i hi rfl rfl
    have hnull : frameSize ≤ 0x400000 + i := Nat.le_trans (by decide) (Nat.le_add_right _ i)
    have hshift : shifted 0x400000 0x800000 = 0x800000 := shifted_eq_iff.mpr (by decide)
    rw [translated_of_mapUser hs₂.machine hs₂.placed e₃ hi hnull, hshift]
  refine ⟨_, spaces₃, space, h₃.reachable, hspaces₃, htask, ?_, hsecond, ?_, ?_, ?_,
    hdone.root.trans hon.active⟩
  · exact hkept (by decide) (by decide) ⟨by decide, .inl rfl⟩
  · exact (translate_upper h₃.reachable.sound.machine hspaces₃ htask (by decide) (by decide)).trans
      hsecond
  · exact hbyte (show 4 < 0x401000 by decide) rfl rfl
  · exact hbyte (show 0x400004 < 0x401000 by decide) rfl rfl

end

end KernelMemory
