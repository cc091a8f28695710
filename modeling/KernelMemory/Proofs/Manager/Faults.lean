/-
  KernelMemory.Proofs.Manager.Faults — what makes the manager stop.

  The manager adds to addresses in many places, and in all but one of them the sum was checked to
  stay in the word.  The exception is in mapping user memory.  A request that is refused for its
  space is refused before anyone looks at its range, and caches are told of the range all the
  same; a short one at the end of the address space then leaves the word.  To get so far, the
  root of a space that is no task has to be the one in use: that of the kernel space, or the root
  after power-on.

  Main results:
    * `overflowsIff_invalidate` — which ranges cannot be dropped page by page;
    * `overflowsIff_mapUser`, `overflowsIff_perform` — which calls break a contract;
    * `Reachable.looked` — what is known of a range when caches are told of it;
    * `faults_known` — the exception is the only one, in every state processors reach;
    * `mapUser_stops` — a run that meets it.
-/

import KernelMemory.Proofs.Manager.TreeShape

namespace KernelMemory

open Machine Manager Steps

variable {format : Format} {config : Config} {stock : Stock} {m : Machine} {cpu : CpuId}

/-! ## Dropping a range page by page -/

namespace Manager

/-- The last of the pages starts beyond the word, so one of them is not dropped. -/
theorem ends_invalidatePages_overrun {start : Nat} : ∀ {count page : Nat} {m : Machine},
    Word.bound ≤ start + (page + count) * frameSize →
      Ends (invalidatePages cpu start (count + 1) page) m (fun _ _ => False)
        (onCause True) := by
  intro count
  induction count with
  | zero =>
    intro page m hover
    rw [invalidatePages, ends_bind, ends_add]
    refine ⟨fun hlt => ?_, fun _ => ⟨rfl, trivial⟩⟩
    exact absurd hlt (Nat.not_lt.mpr hover)
  | succ count ih =>
    intro page m hover
    have hrest : Word.bound ≤ start + (page + 1 + count) * frameSize := by
      rw [Nat.add_assoc page, Nat.add_comm 1]
      exact hover
    rw [invalidatePages, ends_bind, ends_add]
    refine ⟨fun _ => ?_, fun _ => ⟨rfl, trivial⟩⟩
    rw [ends_bind, ends_onCpu]
    exact ih hrest

/-- Dropping a range leaves the word exactly if the range overruns. -/
theorem overflowsIff_invalidate (m : Machine) (cpu : CpuId) (virt size : Nat) :
    OverflowsIff (invalidate cpu virt size) m (Overruns virt size) := by
  rw [overflowsIff_iff_ends]
  by_cases hover : Overruns virt size
  · obtain ⟨hsize, hshort, hword⟩ := hover
    have hlarge : flushThreshold * frameSize ≤ 2 ^ 52 := by decide
    obtain ⟨start, phys, length, hb⟩ := exists_pageBounds virt 0 (show size ≤ 2 ^ 52 by omega)
    obtain ⟨-, hend, -, hfew⟩ := pages_of_pageBounds hb
    have hcount : ∃ count, length / frameSize = count + 1 := by
      apply Nat.exists_eq_succ_of_ne_zero
      have hmod := (pageBounds_spec hb).2.2.1
      have hspec := (pageBounds_spec hb).2.2.2
      simp only [frameSize] at *
      omega
    obtain ⟨count, hcount⟩ := hcount
    have hover : Overruns virt size := ⟨hsize, hshort, hword⟩
    unfold invalidate
    rw [if_neg hsize, hb]
    simp only
    rw [if_neg (Nat.not_lt.mpr (hfew.mpr hshort)), hcount]
    refine (ends_invalidatePages_overrun ?_).mono (fun _ _ hf => hf.elim) fun f _ hf => ?_
    · have hbound : Word.bound % frameSize = 0 := by decide
      have hstart := (pageBounds_spec hb).1
      rw [hcount] at hend
      simp only [frameSize, Nat.zero_add] at *
      omega
    · cases f with
      | refused error => exact absurd trivial hf
      | fault fault => exact ⟨hf.1, hover⟩
  · refine (ends_invalidate_fitting hover).mono (fun _ _ _ => hover) fun _ _ hf => hf.elim

/-! ## What is known of a range of user memory -/

/-- The request was refused for its space, before anyone looked at its range. -/
def RefusedForSpace (result : Except MemoryError Unit) : Prop :=
  result = .error .kernelSpace ∨ result = .error .unknownAddressSpace

/-- The range was looked at: it was turned away, or it stays in the word. -/
def Looked (virt size : Nat) (result : Except MemoryError Unit) : Prop :=
  result = .error .notUserAddress ∨ result = .error .addressOutOfRange ∨ ¬ Overruns virt size

/-- A range that was looked at is not refused for its space, unless it stays in the word. -/
theorem not_looked {virt size : Nat} {result : Except MemoryError Unit}
    (hrefused : RefusedForSpace result) (hover : Overruns virt size) :
    ¬ Looked virt size result := by
  rintro (rfl | rfl | hfits)
  · rcases hrefused with h | h <;> cases h
  · rcases hrefused with h | h <;> cases h
  · exact hfits hover

/-- A root is not found for two reasons only. -/
theorem refusedForSpace_of_taskTable {spaces : Spaces} {arena : Arena} {space : AddressSpace}
    {error : MemoryError} (h : spaces.taskTable arena space = .error error) :
    RefusedForSpace (.error error) :=
  (error_of_taskTable h).imp (congrArg Except.error) (congrArg Except.error)

/-- The range of a task is looked at, and no other. -/
theorem ends_mapTask_looked {space : AddressSpace} {virt phys size : Nat}
    (h : m.Sound format stock) (hstarted : m.spaces ≠ none) :
    Ends (attempt (mapTask format config cpu space virt phys size)) m
      (fun result m' => (MappedUser format space virt phys m m' ∧ SameRoots m m')
        ∧ (m.HasTask space ∧ Looked virt size result
          ∨ ¬ m.HasTask space ∧ RefusedForSpace result))
      (fun _ _ => False) := by
  -- that no contract is broken is known already
  suffices hlooked : Ends (mapTask format config cpu space virt phys size) m
      (fun _ _ => m.HasTask space ∧ ¬ Overruns virt size)
      (fun f _ => ∀ error, f = .refused error →
        m.HasTask space ∧ Looked virt size (.error error)
          ∨ ¬ m.HasTask space ∧ RefusedForSpace (.error error)) by
    rw [ends_attempt]
    refine ((ends_mapTask h).and hlooked).mono (fun _ _ hok => ?_) fun f _ hf => ?_
    · exact ⟨hok.1, .inl ⟨hok.2.1, .inr (.inr hok.2.2)⟩⟩
    · cases f with
      | refused error => exact ⟨hf.1, hf.2 error rfl⟩
      | fault fault => exact hf.1
  cases hspaces : m.spaces with
  | none => exact absurd hspaces hstarted
  | some spaces =>
  have htask : m.HasTask space ↔ space ∈ spaces.tasks := hasTask_of_some hspaces
  have hsound := h.spaces hspaces
  rw [mapTask_eq, Locked.mapTask, ends_bind, ends_started_some hspaces, ends_bind, ends_get, ends_bind, ends_ofResult]
  refine ⟨fun root hroot => ?_, fun e he error heq => ?_⟩
  · have hmem := htask.mpr (hsound.taskTable_eq_ok h.ledger.books hroot).1
    have hlook : ∀ {f : Failure}, (∀ error, f = .refused error → Looked virt size (.error error)) →
        ∀ error, f = .refused error → m.HasTask space ∧ Looked virt size (.error error)
          ∨ ¬ m.HasTask space ∧ RefusedForSpace (.error error) :=
      fun hf error heq => .inl ⟨hmem, hf error heq⟩
    split
    · rename_i hsize
      exact ⟨hmem, fun hover => hover.1 hsize⟩
    · rename_i hsize
      split
      · exact hlook fun error heq => .inl (by injection heq with heq; rw [heq])
      · rename_i last hlast
        obtain ⟨-, rfl⟩ := Word.add?_eq_some_iff.mp hlast
        split
        · exact hlook fun error heq => .inl (by injection heq with heq; rw [heq])
        · rename_i huser
          have hfits : ¬ Overruns virt size :=
            not_overruns_of_lt_userEnd (Nat.not_le.mp huser) hsize
          -- whatever comes of it from here on, the range stays in the word
          have hrest : ∀ {steps : MachineSteps Unit}, Ends steps m
              (fun _ _ => m.HasTask space ∧ ¬ Overruns virt size)
              (fun f _ => ∀ error, f = .refused error →
                m.HasTask space ∧ Looked virt size (.error error)
                  ∨ ¬ m.HasTask space ∧ RefusedForSpace (.error error)) := by
            intro steps
            unfold Ends
            split
            · exact ⟨hmem, hfits⟩
            · exact hlook fun _ _ => .inr (.inr hfits)
          exact hrest
  · refine .inr ⟨fun hhas => ?_, ?_⟩
    · obtain ⟨root, hroot⟩ := hsound.taskTable_of_task h.ledger.books (htask.mp hhas)
      rw [hroot] at he
      cases he
    · injection heq with heq
      rw [← heq]
      exact refusedForSpace_of_taskTable he

/-! ## Mapping user memory -/

/-- Back from the kernel space, caches are told of a range that nobody looked at exactly if the
request was refused for its space. -/
theorem overflowsIff_finishUser {virt size : Nat} {result : Except MemoryError Unit}
    (hplaced : m.Placed) {saved : PhysAddr} (hsaved : savedRoot m cpu = some saved)
    (hlooked : Looked virt size result ∨ RefusedForSpace result) :
    OverflowsIff (finishUser cpu virt size result) m
      (RefusedForSpace result ∧ Overruns virt size) := by
  unfold finishUser
  rw [overflowsIff_iff_ends, ends_bind]
  refine (ends_leaveKernel_of_saved hplaced hsaved).mono (fun _ m₁ _ => ?_) fun _ _ hf => hf.elim
  split
  · rintro ⟨h | h, -⟩ <;> cases h
  · rintro ⟨h | h, -⟩ <;> cases h
  · rename_i hnotUser hnotOut
    rw [ends_bind]
    -- of a range that does not stay in the word nobody was told
    have hcause : Overruns virt size ↔ RefusedForSpace result ∧ Overruns virt size := by
      refine ⟨fun hover => ⟨?_, hover⟩, fun h => h.2⟩
      rcases hlooked with (h | h | h) | h
      · exact absurd h hnotUser
      · exact absurd h hnotOut
      · exact absurd hover h
      · exact h
    refine (overflowsIff_iff_ends.mp (overflowsIff_invalidate m₁ cpu virt size)).mono
      (fun _ m₂ h₂ => ?_) fun f _ hf => ?_
    · rw [ends_ofResult]
      exact ⟨fun _ _ hboth => h₂ hboth.2, fun _ _ hboth => h₂ hboth.2⟩
    · cases f with
      | refused error => exact fun hboth => hf hboth.2
      | fault fault => exact ⟨hf.1, hcause.mp hf.2⟩

end Manager

/-- Caches would be told of a range that nobody looks at, and that overruns: the space is no task,
but its root is in use on the processor, outside the kernel space. -/
structure Machine.Unlooked (m : Machine) (cpu : CpuId) (range : UserRange) : Prop where
  started : m.spaces ≠ none
  active : range.space.root = (m.cpu cpu).root
  outside : savedRoot m cpu = none
  noTask : ¬ m.HasTask range.space
  overruns : Overruns range.virt range.size

namespace Manager

/-- Mapping user memory breaks a contract for that reason, and for no other. -/
theorem overflowsIff_mapUser (range : UserRange) (h : m.Sound format stock) (hplaced : m.Placed) :
    OverflowsIff (mapUser format config cpu range.space range.virt range.phys range.size) m
      (m.Unlooked cpu range) := by
  rw [overflowsIff_iff_ends, mapUser_eq_sections, ends_bind, ends_activeRoot]
  split
  · rename_i hactive
    exact fun hcause => hactive hcause.active
  · rename_i hactive
    rw [ends_bind]
    cases henter : enterKernel cpu m with
    | error f m₁ =>
      -- a processor that is turned away is in the kernel space, or there is none
      unfold Ends
      rw [henter]
      cases f with
      | refused error =>
        intro hcause
        obtain ⟨spaces, hspaces⟩ := Option.ne_none_iff_exists'.mp hcause.started
        obtain ⟨m', hlet⟩ := exists_enterKernel hspaces hcause.outside
        rw [henter] at hlet
        cases hlet
      | fault fault => exact (ends_enterKernel.of_error henter).elim
    | ok u m₁ =>
      obtain ⟨hq₁, spaces, hspaces, hmoved⟩ := ends_enterKernel.of_ok henter
      have houtside : savedRoot m cpu = none := by
        cases hsaved : savedRoot m cpu with
        | none => rfl
        | some root =>
          rw [enterKernel_nested hsaved] at henter
          cases henter
      have hstarted₁ : m₁.spaces ≠ none := by
        intro hnone
        have hcensus := hq₁.census
        rw [census_of_some hspaces, census_eq_none.mpr hnone] at hcensus
        cases hcensus
      have htask : m₁.HasTask range.space ↔ m.HasTask range.space := hasTask_congr hq₁.census
      unfold Ends
      rw [henter]
      show Ends (do
        let result ← attempt (mapTask format config cpu range.space range.virt range.phys range.size)
        finishUser cpu range.virt range.size result) m₁ _ _
      rw [ends_bind]
      refine (ends_mapTask_looked (hq₁.sound h) hstarted₁).mono (fun result m₂ h₂ => ?_)
        fun _ _ hf => hf.elim
      obtain ⟨⟨htables, hsame⟩, hlooked⟩ := h₂
      obtain ⟨hplaced₂, hsaved₂⟩ := back_of_mapped hplaced hq₁ hspaces hmoved htables hsame
      -- refused for its space is what the request of no task is
      have hcause : RefusedForSpace result ∧ Overruns range.virt range.size
          ↔ m.Unlooked cpu range := by
        constructor
        · intro hboth
          have hno : ¬ m.HasTask range.space := by
            rw [← htask]
            intro hhas
            rcases hlooked with ⟨-, hlooked⟩ | ⟨hno, -⟩
            · exact not_looked hboth.1 hboth.2 hlooked
            · exact hno hhas
          exact ⟨by rw [hspaces]; exact Option.some_ne_none _, not_not.mp hactive, houtside, hno,
            hboth.2⟩
        · intro hcause
          rcases hlooked with ⟨hhas, -⟩ | ⟨-, hrefused⟩
          · exact absurd (htask.mp hhas) hcause.noTask
          · exact ⟨hrefused, hcause.overruns⟩
      have hfinish := overflowsIff_finishUser hplaced₂ hsaved₂
        (hlooked.imp (fun hl => hl.2) fun hr => hr.2)
      rw [hcause, overflowsIff_iff_ends] at hfinish
      exact hfinish

/-- So it is with calls: the other ones break no contract. -/
theorem overflowsIff_perform {call : Call} (h : m.Sound format stock) (hplaced : m.Placed)
    (permitted : call.Permitted stock.held) :
    OverflowsIff (perform format config cpu call) m
      (∃ range : UserRange, call = range.call ∧ m.Unlooked cpu range) := by
  by_cases hcall : ∃ range : UserRange, call = range.call
  · obtain ⟨range, rfl⟩ := hcall
    have hcause : (∃ other : UserRange, range.call = other.call ∧ m.Unlooked cpu other)
        ↔ m.Unlooked cpu range := by
      constructor
      · rintro ⟨other, heq, hcause⟩
        injection heq with hspace hvirt hphys hsize
        exact ⟨hcause.started, by rw [hspace]; exact hcause.active, hcause.outside,
          by rw [hspace]; exact hcause.noTask, by rw [hvirt, hsize]; exact hcause.overruns⟩
      · intro hcause
        exact ⟨range, rfl, hcause⟩
    rw [hcause, overflowsIff_iff_ends]
    show Ends (perform format config cpu
      (.mapUser range.space range.virt range.phys range.size)) m _ _
    rw [perform, ends_bind]
    exact overflowsIff_iff_ends.mp (overflowsIff_mapUser range h hplaced)
  · apply (ends_perform_of_ne h hplaced permitted fun range heq => hcall ⟨range, heq⟩).overflowsIff
    rintro ⟨range, heq, -⟩
    exact hcall ⟨range, heq⟩

end Manager

/-! ## States of the system -/

/-- Once the manager is started, caches would be told of a range that nobody looks at where the
space is that of the kernel, and its root is in use. -/
theorem unlooked_kernel {spaces : Spaces} (hspaces : m.spaces = some spaces)
    (hsound : m.Sound format stock) (hroot : (m.cpu cpu).root = spaces.kernel.root)
    (houtside : savedRoot m cpu = none) {virt phys size : Nat} (hover : Overruns virt size) :
    m.Unlooked cpu ⟨spaces.kernel, virt, phys, size⟩ where
  started := by rw [hspaces]; exact Option.some_ne_none _
  active := hroot.symm
  outside := houtside
  noTask := fun htask => (hsound.spaces hspaces).task_root_ne hsound.ledger.books
    ((hasTask_of_some hspaces).mp htask) rfl
  overruns := hover

section

variable {Rule : Call → Prop} {poolPages : Nat} {s : System}

/-- What mapping came to, where a processor did not leave the kernel space yet. -/
def System.Looked (s : System) : Prop :=
  ∀ {cpu : CpuId} {range : UserRange} {result : Except MemoryError Unit},
    s.stage cpu = .mapped range result →
      Manager.Looked range.virt range.size result ∨ RefusedForSpace result

/-- A processor that maps user memory has looked at the range, or was refused for the space. -/
theorem Reachable.looked (h : Reachable format config Rule poolPages s) : s.Looked := by
  intro cpu range result hstage
  obtain ⟨t, m', ht, hentered, ends⟩ := h.of_mapped hstage
  -- it was in the kernel space, so the manager was started
  obtain ⟨saved, hsaved⟩ := ht.sound.inside (by rw [hentered]; trivial)
  have hstarted : t.machine.spaces ≠ none := by
    intro hnone
    rw [savedRoot, roots?, hnone] at hsaved
    cases hsaved
  have hends := (ends_mapTask_looked ht.sound.machine hstarted).of_ok ends
  exact hends.2.imp (fun hl => hl.2) fun hr => hr.2

/-- What a processor can do next, and for which cause, if any, it leaves the word; no other
contract is broken.  Questions are always answered. -/
structure System.FaultsKnown (format : Format) (config : Config) (s : System) (cpu : CpuId) :
    Prop where
  call : ∀ {call : Call}, call.Permitted s.stock.held →
    OverflowsIff (perform format config cpu call) s.machine
      (∃ range : UserRange, call = range.call ∧ s.machine.Unlooked cpu range)
  enter : OverflowsIff (enterKernel cpu) s.machine False
  map : ∀ (range : UserRange),
    OverflowsIff (mapTask format config cpu range.space range.virt range.phys range.size) s.machine False
  leave : ∀ {range : UserRange} {result : Except MemoryError Unit},
    s.stage cpu = .mapped range result →
      OverflowsIff (finishUser cpu range.virt range.size result) s.machine
        (RefusedForSpace result ∧ Overruns range.virt range.size)
  translate : ∀ (space : AddressSpace) (virt : Nat),
    ∃ answer, s.machine.translate format space virt = .ok answer
  getEntry : ∀ (space : AddressSpace) (virt : Nat),
    ∃ answer, s.machine.getEntry format space virt = .ok answer

theorem faultsKnown_of_sound (h : s.Sound format) (hlooked : s.Looked) (cpu : CpuId) :
    s.FaultsKnown format config cpu where
  call := overflowsIff_perform h.machine h.placed
  enter := ends_enterKernel.overflowsIff id
  map := fun _ => (ends_mapTask h.machine).overflowsIff id
  leave := fun hstage => by
    obtain ⟨saved, hsaved⟩ := h.inside (by rw [hstage]; trivial)
    exact overflowsIff_finishUser h.placed hsaved (hlooked hstage)
  translate := exists_translate h.machine
  getEntry := exists_getEntry h.machine

/-- In every state that processors reach, every call answers or is refused, whatever its
arguments, but for the one that has caches told of a range nobody looked at. -/
theorem faults_known (h : Reachable format config AnyCall poolPages s) (cpu : CpuId) :
    s.FaultsKnown format config cpu := faultsKnown_of_sound h.sound h.looked cpu

/-- In particular, after the start: the call that stops the manager is among them. -/
theorem faults_known_started : ∃ s, Reachable .narrow {} AnyCall 0 s ∧ s.FaultsKnown .narrow {} 0
    ∧ ∃ range, s.machine.Unlooked 0 range := by
  obtain ⟨m, stock, h, -, spaces, hspaces, -, hroot, houtside, -⟩ : ∃ m stock,
      Answered .narrow {} AnyCall 0 [(0, .initFrames smallMap), (0, .init smallMap [])] m stock
        ∧ _ ∧ _ := exists_started_smallMap rfl trivial trivial
  refine ⟨_, h.reachable, faults_known h.reachable 0,
    ⟨spaces.kernel, 0xfffffffffffff000, 0, 0x2000⟩, ?_⟩
  exact unlooked_kernel hspaces h.reachable.sound.machine hroot houtside (by decide)

/-- Mapping two pages of user memory at the end of the address space, for the kernel space while
it is the one in use: the request is to be refused, and stops the manager. -/
theorem mapUser_stops : ∃ m space,
    run .narrow {} (Machine.powerOn 0) [(0, .initFrames smallMap), (0, .init smallMap [])] = .ok m
      ∧ m.kernelSpace = some space
      ∧ ∃ m', perform .narrow {} 0 (.mapUser space 0xfffffffffffff000 0 0x2000) m
          = .error (.fault .addOverflow) m' := by
  obtain ⟨m, stock, h, -, spaces, hspaces, -, hroot, houtside, -⟩ : ∃ m stock,
      Answered .narrow {} AnyCall 0 [(0, .initFrames smallMap), (0, .init smallMap [])] m stock
        ∧ _ ∧ _ := exists_started_smallMap rfl trivial trivial
  have hsound := h.reachable.sound
  refine ⟨m, spaces.kernel, h.run, kernelSpace_of_some hspaces, ?_⟩
  have hcause : m.Unlooked 0 ⟨spaces.kernel, 0xfffffffffffff000, 0, 0x2000⟩ :=
    unlooked_kernel hspaces hsound.machine hroot houtside (by decide)
  have hcall : OverflowsIff
      (perform .narrow {} 0 (.mapUser spaces.kernel 0xfffffffffffff000 0 0x2000)) m _ :=
    overflowsIff_perform hsound.machine hsound.placed trivial
  exact (hcall .addOverflow).mpr ⟨rfl, _, rfl, hcause⟩

end

end KernelMemory
