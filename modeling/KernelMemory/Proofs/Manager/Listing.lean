/-
  KernelMemory.Proofs.Manager.Listing — the list of spaces, and the roots that processors run on.

  Which spaces exist and which roots processors have does not hang on frames and tables: it is told
  by the list that the manager keeps and by what it notes of processors.  So callers can give back
  any frames here, also such as hold tables, and still the list has no space twice, and processors
  run on spaces that exist.

  Main results:
    * `Turn.relisted` — what a call, or a section of one, does to the list and to the roots;
    * `Driven.rostered` — what holds of them after any calls.
-/

import KernelMemory.Proofs.Manager.TableFrames

namespace KernelMemory

open Machine Manager Steps

/-! ## Steps that leave the list and the roots alone -/

/-- The spaces and the roots of processors are as they were. -/
structure SameRoster (m m' : Machine) : Prop where
  census : m'.census = m.census
  roots : SameRoots m m'

theorem SameRoster.refl (m : Machine) : SameRoster m m := ⟨rfl, .refl m⟩

theorem SameRoster.trans {m m' m'' : Machine} (h : SameRoster m m') (h' : SameRoster m' m'') :
    SameRoster m m'' := ⟨h'.census.trans h.census, h.roots.trans h'.roots⟩

instance : Std.Refl SameRoster := ⟨SameRoster.refl⟩

instance : IsTrans Machine SameRoster := ⟨fun _ _ _ => SameRoster.trans⟩

theorem Machine.Still.roster {m m' : Machine} (h : Still m m') : SameRoster m m' :=
  ⟨h.quiet.census, h.same⟩

/-- Errors are not looked at here. -/
abbrev AnyError : MemoryError → Prop := fun _ => True

/-- What goes on from where such steps ended. -/
theorem Steps.Keeps.ends_bind {σ α β : Type} {R : σ → σ → Prop} {E : MemoryError → Prop}
    {steps : Steps σ α} {next : α → Steps σ β} (h : Keeps R E steps) {s : σ} {ok : β → σ → Prop}
    {refused : MemoryError → σ → Prop}
    (hnext : ∀ a s', R s s' → Ends (next a) s' ok (onReturn refused))
    (hrefused : ∀ error s', R s s' → refused error s') :
    Ends (steps >>= next) s ok (onReturn refused) := by
  rw [Steps.ends_bind]
  refine (h s).mono hnext fun f s' hs' => ?_
  cases f with
  | refused error => exact hrefused error s' hs'.1
  | fault fault => trivial

section

variable {format : Format} {config : Config} {cpu : CpuId} {space : AddressSpace}

theorem roster_onStore {α : Type} (steps : TableSteps α) :
    Keeps SameRoster AnyError (onStore steps) := by
  intro m
  have hstore : ∀ s, SameRoster m { m with store := s } :=
    fun s => ⟨rfl, ⟨fun _ => rfl, fun _ => rfl, rfl⟩⟩
  rw [ends_onStore]
  exact ends_of_forall (fun _ s => hstore s) fun _ s => ⟨hstore s, fun _ _ => trivial⟩

theorem roster_write (level : LogLevel) (text : String) :
    Keeps SameRoster AnyError (write level text) := roster_onStore _

theorem roster_commit : Keeps SameRoster AnyError (commit format) := by
  intro m
  unfold Ends commit
  cases m.store.arena.commit format m.memory with
  | error fault => exact ⟨Std.Refl.refl m, fun _ _ => trivial⟩
  | ok done => exact ⟨rfl, ⟨fun _ => rfl, fun _ => rfl, rfl⟩⟩

theorem roster_onCpu {change : Cpu → Cpu} (hroot : ∀ c, (change c).root = c.root) :
    Keeps SameRoster AnyError (onCpu cpu change) :=
  keeps_modify fun _ => (still_modifyCpu hroot).roster

theorem roster_invalidatePages {start : VirtAddr} : ∀ {count page : Nat},
    Keeps SameRoster AnyError (invalidatePages cpu start count page) := by
  intro count
  induction count with
  | zero => intro page; exact keeps_pure _
  | succ count ih =>
    intro page
    rw [invalidatePages]
    refine (keeps_lift _).bind fun address => Keeps.bind (roster_onCpu ?_) fun _ => ih
    exact fun _ => rfl

theorem roster_invalidate {virt size : Nat} :
    Keeps SameRoster AnyError (invalidate cpu virt size) := by
  unfold invalidate
  split
  · exact keeps_pure _
  · split
    · exact roster_onCpu fun _ => rfl
    · split
      · exact roster_onCpu fun _ => rfl
      · exact roster_invalidatePages

theorem roster_initFrames {map : BootMap} : Keeps SameRoster AnyError (initFrames map) :=
  fun _ => ⟨rfl, ⟨fun _ => rfl, fun _ => rfl, rfl⟩⟩

theorem roster_mapKernel {address size : Nat} {policy : CachePolicy} :
    Keeps SameRoster AnyError (mapKernel format config cpu address size policy) := by
  have hreport : ∀ result, Keeps SameRoster AnyError (reportKernel address size policy result) := by
    intro result
    cases result with
    | error error => exact keeps_refuse trivial
    | ok changed =>
      simp only [reportKernel]
      split
      · exact (keeps_lift _).bind fun _ => roster_write _ _
      · exact keeps_pure _
  rw [mapKernel_eq]
  refine (keeps_started trivial).bind fun spaces => ?_
  refine (roster_onStore _).attempt_bind fun result _ => ?_
  unfold finishKernel
  refine roster_commit.bind fun _ => ?_
  split
  · exact keeps_refuse trivial
  · apply roster_invalidate.bind
    intro _
    simp only
    split
    · exact roster_invalidate.bind fun _ => hreport _
    · exact hreport _

theorem roster_mapTask {virt phys size : Nat} :
    Keeps SameRoster AnyError (mapTask format config cpu space virt phys size) := by
  rw [mapTask_eq]
  unfold Locked.mapTask
  refine (keeps_started trivial).bind fun spaces => keeps_get.bind fun m =>
    (keeps_ofResult fun _ _ => trivial).bind fun root => ?_
  split
  · exact keeps_pure _
  · split
    · exact keeps_refuse trivial
    · split
      · exact keeps_refuse trivial
      · split
        · exact keeps_refuse trivial
        · split
          · refine (roster_onStore _).attempt_bind fun result _ => ?_
            exact roster_commit.bind fun _ =>
              (keeps_ofResult fun _ _ => trivial).bind fun _ => keeps_pure _
          · exact keeps_refuse trivial

end

/-! ## Steps that change them -/

/-- A space was added to the list. -/
structure Listed (space : AddressSpace) (m m' : Machine) : Prop where
  census : ∃ spaces, m.spaces = some spaces
    ∧ m'.census = some (spaces.kernelTable, spaces.kernel, spaces.tasks.insert space)
  roots : SameRoots m m'

/-- A space that no processor was noted on was taken off the list. -/
structure Unlisted (space : AddressSpace) (m m' : Machine) : Prop where
  census : ∃ spaces, m.spaces = some spaces ∧ space ≠ spaces.kernel ∧ space ∈ spaces.tasks
    ∧ spaces.inUse space.root = false
    ∧ m'.census = some (spaces.kernelTable, spaces.kernel, spaces.tasks.erase space)
  roots : SameRoots m m'

/-- What becomes of the list and the roots, unless a space is added. -/
inductive Relisted (m m' : Machine) : Prop where
  | same (h : SameRoster m m')
  /-- The first space, with the processor on it. -/
  | first {cpu : CpuId} {root : TableId} {frame : PhysAddr} (unstarted : m.spaces = none)
      (census : m'.census = some (root, ⟨frame⟩, [])) (moved : Moved cpu ⟨frame, none⟩ m m')
  | unlisted {space : AddressSpace} (h : Unlisted space m m')
  /-- A processor was brought to a root that it may run on, and so is the one it goes back to. -/
  | moved {cpu : CpuId} {roots : CpuRoots} (census : m'.census = m.census)
      (moved : Moved cpu roots m m') (loaded : m.Legit roots.loaded)
      (saved : ∀ {root}, roots.saved = some root → m.Legit root)

section

variable {format : Format} {config : Config} {cpu : CpuId} {space : AddressSpace}
  {m m' : Machine}

/-- The end of the start: whatever was done to the tables, the list begins with one space. -/
theorem ends_finishInit_first {m₀ : Machine} {root : TableId} {mapped : List DeviceWindow}
    (hspaces : m₀.spaces = none) (before : SameRoster m₀ m) :
    Ends (finishInit format cpu root (.ok mapped)) m (fun _ m' => Relisted m₀ m')
      (onReturn fun _ m' => Relisted m₀ m') := by
  have hdescriptor : Keeps SameRoster AnyError (modify fun m : Machine =>
      { m with descriptor := (m.descriptor.publishDeviceWindows mapped).2 } : MachineSteps Unit) :=
    keeps_modify fun _ => ⟨rfl, ⟨fun _ => rfl, fun _ => rfl, rfl⟩⟩
  rw [finishInit]
  refine hdescriptor.ends_bind (fun _ m₁ h₁ => ?_) fun _ _ h₁ => .same (before.trans h₁)
  refine roster_commit.ends_bind (fun _ m₂ h₂ => ?_) fun _ _ h₂ =>
    .same ((before.trans h₁).trans h₂)
  have hbuilt := (before.trans h₁).trans h₂
  refine (roster_onStore _).ends_bind (fun t m₃ h₃ => ?_) fun _ _ h₃ => .same (hbuilt.trans h₃)
  have hroots := (hbuilt.trans h₃).roots
  -- only now the processor is brought to the new root, and the list begins
  rw [Steps.ends_bind, ends_onCpu, Steps.ends_bind, ends_modify, Steps.ends_bind, ends_get,
    Steps.ends_bind]
  refine ends_write _ _ _ _ fun m' hstill => ?_
  rw [ends_pure]
  refine @Relisted.first _ _ cpu root t.frame hspaces ?_ ⟨?_, fun hne => ?_, fun other => ?_⟩
  · rw [hstill.quiet.census]
    rfl
  · rw [hstill.same.root]
    exact congrArg Cpu.root
      (cpu_modifyCpu_same m₃ cpu fun c => (c.loadRoot t.frame).enablePaging format)
  · rw [hstill.same.root, ← hroots.root]
    exact congrArg Cpu.root (cpu_modifyCpu_other m₃
      (fun c => (c.loadRoot t.frame).enablePaging format) (Ne.symm hne))
  · rw [hstill.same.noted, roots?_of_some rfl, roots?, hspaces]
    simp only [Std.TreeMap.getElem?_insert, Nat.compare_eq_eq, eq_comm (a := other)]
    rfl

theorem ends_init_relisted {map : BootMap} {windows : List DeviceWindow} :
    Ends (init format config cpu map windows) m (fun _ m' => Relisted m m')
      (onReturn fun _ m' => Relisted m m') := by
  cases hspaces : m.spaces with
  | some spaces =>
    unfold Ends
    rw [init_started hspaces]
    exact .same (.refl m)
  | none =>
    rw [ends_init_unstarted hspaces]
    refine (roster_onStore _).ends_bind (fun root m₁ h₁ => ?_) fun _ _ h₁ => .same h₁
    rw [Steps.ends_bind, ends_attempt]
    refine (roster_onStore _ m₁).mono (fun mapped m₂ h₂ => ?_) fun f m₂ h₂ => ?_
    · exact ends_finishInit_first hspaces (h₁.trans h₂)
    · cases f with
      | fault fault => trivial
      | refused error =>
        have hbuilt := h₁.trans h₂.1
        simp only [finishInit]
        refine (roster_onStore _).ends_bind (fun _ m₃ h₃ => ?_) fun _ _ h₃ => ?_
        · exact .same (hbuilt.trans h₃)
        · exact .same (hbuilt.trans h₃)

/-- Another list of tasks is nothing to processors. -/
theorem Machine.SameRoots.tasks {spaces : Spaces} (h : SameRoots m m') (hspaces : m.spaces = some spaces)
    (tasks : List AddressSpace) :
    SameRoots m { m' with spaces := some { spaces with tasks := tasks } } where
  root := h.root
  noted := fun other => by rw [roots?_of_some rfl, roots?_of_some hspaces]
  feed := h.feed

theorem ends_createSpace_listed :
    Ends (createSpace format cpu) m (fun space m' => Listed space m m')
      (onReturn fun _ m' => SameRoster m m') := by
  rw [createSpace_eq]
  unfold Locked.createSpace
  cases hspaces : m.spaces with
  | none =>
    rw [Steps.ends_bind]
    refine Ends.at_return (Ends.overflow (ends_started _ _ (fun spaces hsome => ?_) fun _ => .refl m))
    rw [hspaces] at hsome
    cases hsome
  | some spaces =>
    rw [Steps.ends_bind, ends_started_some hspaces]
    refine (roster_onStore _).ends_bind (fun root m₁ h₁ => ?_) fun _ _ h₁ => h₁
    refine (roster_onStore _).ends_bind (fun _ m₂ h₂ => ?_) fun _ _ h₂ => h₁.trans h₂
    refine roster_commit.ends_bind (fun _ m₃ h₃ => ?_) fun _ _ h₃ => (h₁.trans h₂).trans h₃
    have hbuilt := (h₁.trans h₂).trans h₃
    refine (roster_onStore _).ends_bind (fun t m₄ h₄ => ?_) fun _ _ h₄ => hbuilt.trans h₄
    have hroots := (hbuilt.trans h₄).roots
    rw [Steps.ends_bind, ends_setSpaces, Steps.ends_bind]
    refine ends_write _ _ _ _ fun m' hstill => ?_
    rw [ends_pure]
    refine ⟨⟨spaces, hspaces, ?_⟩, ?_⟩
    · rw [hstill.quiet.census]
      rfl
    · exact (hroots.tasks hspaces _).trans hstill.same

/-- A space that is on the list, and not the kernel's. -/
theorem taskTable_listed {spaces : Spaces} {arena : Arena} {root : TableId}
    (h : spaces.taskTable arena space = .ok root) :
    space ≠ spaces.kernel ∧ space ∈ spaces.tasks := by
  unfold Spaces.taskTable at h
  split at h
  · cases h
  · split at h
    · exact ⟨‹_›, ‹_›⟩
    · cases h

theorem ends_deleteSpace_unlisted :
    Ends (deleteSpace format cpu space) m (fun _ m' => Unlisted space m m')
      (onReturn fun _ m' => SameRoster m m') := by
  rw [deleteSpace_eq]
  unfold Locked.deleteSpace
  cases hspaces : m.spaces with
  | none =>
    rw [Steps.ends_bind]
    refine Ends.at_return (Ends.overflow (ends_started _ _ (fun spaces hsome => ?_) fun _ => .refl m))
    rw [hspaces] at hsome
    cases hsome
  | some spaces =>
    rw [Steps.ends_bind, ends_started_some hspaces, Steps.ends_bind, ends_get, Steps.ends_bind,
      ends_ofResult]
    refine ⟨fun root hroot => ?_, fun _ _ => .refl m⟩
    obtain ⟨hkernel, htask⟩ := taskTable_listed hroot
    rw [Steps.ends_bind, ends_activeRoot]
    split
    · exact .refl m
    · rename_i hactive
      simp only [Bool.or_eq_true, decide_eq_true_eq, not_or, Bool.not_eq_true] at hactive
      refine (roster_onStore _).ends_bind (fun released m₁ h₁ => ?_) fun _ _ h₁ => h₁
      rw [Steps.ends_bind, ends_setSpaces]
      refine ends_write _ _ _ _ fun m' hstill => ?_
      refine ⟨⟨spaces, hspaces, hkernel, htask, hactive.2, ?_⟩, ?_⟩
      · rw [hstill.quiet.census]
        rfl
      · exact (h₁.roots.tasks hspaces _).trans hstill.same

/-! ### Processors that are brought elsewhere -/

theorem ends_enterKernel_relisted (placed : m.Placed) :
    Ends (enterKernel cpu) m (fun _ m' => Relisted m m') (onRefusal fun _ m' => m' = m) := by
  refine ends_enterKernel.weaken (fun _ m' h => ?_) fun _ _ h => h
  obtain ⟨hq, spaces, hspaces, hswitched⟩ := h
  refine .moved hq.census hswitched.toMoved (.inr ⟨spaces, hspaces, .inl rfl⟩) fun {root} hroot => ?_
  injection hroot with hroot
  rw [← hroot]
  exact placed.legit cpu

theorem ends_leaveKernel_relisted (placed : m.Placed) :
    Ends (leaveKernel cpu) m (fun _ m' => Relisted m m') (onRefusal fun _ m' => m' = m) := by
  refine (ends_leaveKernel placed).weaken (fun _ m' h => ?_) fun _ _ h => h.1
  obtain ⟨hq, saved, hsaved, hswitched⟩ := h
  obtain ⟨roots, hnoted, hroot⟩ := Option.bind_eq_some_iff.mp hsaved
  exact .moved hq.census hswitched.toMoved (placed.saved hnoted hroot) fun h => nomatch h

theorem ends_switchTo_relisted :
    Ends (switchTo cpu space) m (fun _ m' => Relisted m m') (onRefusal fun _ m' => m' = m) := by
  rw [switchTo_eq, Locked.switchTo, Steps.ends_bind]
  refine ends_started _ _ (fun spaces hspaces => ?_) fun _ => rfl
  split
  · exact rfl
  · rename_i hkernel
    rw [Steps.ends_bind, ends_get]
    cases htable : spaces.anyTable m.store.arena space with
    | none => exact rfl
    | some root =>
      simp only
      rw [Steps.ends_bind, ends_activeRoot]
      split
      · rename_i hne
        rw [ends_load]
        refine .moved ?_ (switched_load hspaces hne).toMoved ?_ fun {root} hroot => ?_
        · rw [census_of_some hspaces]
          rfl
        · unfold Spaces.anyTable at htable
          split at htable
          · exact .inr ⟨spaces, hspaces, ‹_›⟩
          · cases htable
        · -- a processor in the kernel space was turned away, so there is nothing to go back to
          have hnone : spaces.savedRoot cpu = none := by simpa [Spaces.inKernel] using hkernel
          rw [hnone] at hroot
          cases hroot
      · exact .same (.refl m)

end

/-! ## What holds of the list and the roots -/

/-- No space is twice on the list, and processors run on spaces that exist. -/
structure Machine.Rostered (m : Machine) : Prop where
  placed : m.Placed
  nodup : ∀ {spaces : Spaces}, m.spaces = some spaces → spaces.tasks.Nodup

/-- The manager is started, and the space does not exist. -/
structure Machine.Lost (space : AddressSpace) (m : Machine) : Prop where
  started : m.spaces ≠ none
  gone : ¬ m.Alive space

section

variable {format : Format} {config : Config} {poolPages : Nat} {call : Call}
  {space other : AddressSpace} {m m' : Machine}

theorem alive_iff_of_census {table : TableId} {kernel : AddressSpace} {tasks : List AddressSpace}
    (h : m.census = some (table, kernel, tasks)) : m.Alive space ↔ space = kernel ∨ space ∈ tasks := by
  obtain ⟨spaces, hspaces, heq⟩ := exists_of_census h
  simp only [Spaces.census, Prod.mk.injEq] at heq
  rw [alive_of_some hspaces, heq.2.1, heq.2.2]

theorem nodup_of_census {table : TableId} {kernel : AddressSpace} {tasks : List AddressSpace}
    (h : m.census = some (table, kernel, tasks)) (hnodup : tasks.Nodup) {spaces : Spaces}
    (hspaces : m.spaces = some spaces) : spaces.tasks.Nodup := by
  rw [census_of_some hspaces] at h
  simp only [Spaces.census, Option.some.injEq, Prod.mk.injEq] at h
  rw [h.2.2]
  exact hnodup

theorem nodup_congr (h : m'.census = m.census)
    (hnodup : ∀ {spaces : Spaces}, m.spaces = some spaces → spaces.tasks.Nodup) {spaces : Spaces}
    (hspaces : m'.spaces = some spaces) : spaces.tasks.Nodup := by
  rw [census_of_some hspaces] at h
  obtain ⟨before, hbefore, heq⟩ := exists_of_census h.symm
  simp only [Spaces.census, Prod.mk.injEq] at heq
  rw [← heq.2.2]
  exact hnodup hbefore

/-- The list has the new space in addition. -/
theorem Listed.alive (h : Listed space m m') :
    m'.Alive other ↔ other = space ∨ m.Alive other := by
  obtain ⟨spaces, hspaces, hcensus⟩ := h.census
  rw [alive_of_some hspaces, alive_iff_of_census hcensus, List.mem_insert_iff]
  exact or_left_comm

theorem Listed.rostered (h : Listed space m m') (hm : m.Rostered) : m'.Rostered := by
  obtain ⟨spaces, hspaces, hcensus⟩ := h.census
  refine ⟨hm.placed.keep h.roots fun _ halive => h.alive.mpr (.inr halive), fun hspaces' => ?_⟩
  exact nodup_of_census hcensus (hm.nodup hspaces).insert hspaces'

/-- The list lacks the space, and no other. -/
theorem Unlisted.alive (h : Unlisted space m m') (hm : m.Rostered) :
    m'.Alive other ↔ other ≠ space ∧ m.Alive other := by
  obtain ⟨spaces, hspaces, hkernel, -, -, hcensus⟩ := h.census
  rw [alive_of_some hspaces, alive_iff_of_census hcensus, (hm.nodup hspaces).mem_erase_iff]
  constructor
  · rintro (rfl | ⟨hne, hmem⟩)
    · exact ⟨hkernel.symm, .inl rfl⟩
    · exact ⟨hne, .inr hmem⟩
  · rintro ⟨hne, hsame | hmem⟩
    · exact .inl hsame
    · exact .inr ⟨hne, hmem⟩

theorem Unlisted.rostered (h : Unlisted space m m') (hm : m.Rostered) : m'.Rostered := by
  obtain ⟨spaces, hspaces, -, -, hunused, hcensus⟩ := h.census
  refine ⟨hm.placed.keep_legit h.roots fun {root} huses hlegit => ?_, fun hspaces' => ?_⟩
  · -- a processor that was never noted has the root after power-on, whatever that is the root of
    rcases hlegit with hnull | halive
    · exact .inl hnull
    · by_cases hnull : root = 0
      · exact .inl hnull
      · refine .inr ((h.alive hm).mpr ⟨?_, halive⟩)
        rintro rfl
        exact not_uses hm.placed hspaces hnull hunused huses
  · exact nodup_of_census hcensus ((hm.nodup hspaces).erase _) hspaces'

theorem SameRoster.rostered (h : SameRoster m m') (hm : m.Rostered) : m'.Rostered :=
  ⟨placed_of_census hm.placed h.census h.roots, fun hspaces => nodup_congr h.census hm.nodup hspaces⟩

theorem Relisted.rostered (h : Relisted m m') (hm : m.Rostered) : m'.Rostered := by
  cases h with
  | same h => exact h.rostered hm
  | @first _ root frame unstarted census moved =>
    have halive : m'.Alive ⟨frame⟩ := (alive_iff_of_census census).mpr (.inl rfl)
    refine ⟨hm.placed.move moved (fun hold => ?_) (.inr halive) fun h => (nomatch h),
      fun hspaces => nodup_of_census census .nil hspaces⟩
    obtain ⟨spaces, hspaces, -⟩ := hold
    rw [unstarted] at hspaces
    cases hspaces
  | unlisted h => exact h.rostered hm
  | moved census moved loaded saved =>
    have halive : ∀ {space}, m.Alive space → m'.Alive space := (alive_of_census census).mpr
    exact ⟨hm.placed.move moved halive (loaded.imp_right halive)
      fun h => (saved h).imp_right halive, fun hspaces => nodup_congr census hm.nodup hspaces⟩

/-- A space that does not exist does not come to exist, unless it is added. -/
theorem Relisted.lost (h : Relisted m m') (hm : m.Rostered) (hlost : m.Lost space) :
    m'.Lost space := by
  have hstarted : ∀ {c}, m'.census = some c → m'.spaces ≠ none := fun hcensus hnone => by
    rw [census_eq_none.mpr hnone] at hcensus
    cases hcensus
  have hkept : m'.census = m.census → m'.Lost space := fun hcensus =>
    ⟨fun hnone => hlost.started (census_eq_none.mp (hcensus.symm.trans (census_eq_none.mpr hnone))),
      fun halive => hlost.gone ((alive_of_census hcensus).mp halive)⟩
  cases h with
  | same h => exact hkept h.census
  | first unstarted census moved => exact absurd unstarted hlost.started
  | unlisted h =>
    obtain ⟨spaces, -, -, -, -, hcensus⟩ := h.census
    exact ⟨hstarted hcensus, fun halive => hlost.gone ((h.alive hm).mp halive).2⟩
  | moved census moved loaded saved => exact hkept census

/-! ## Any calls -/

/-- Several such changes, one after another. -/
abbrev Relistings : Machine → Machine → Prop := Relation.ReflTransGen Relisted

theorem rostered_of_relistings (h : Relistings m m') (hm : m.Rostered) : m'.Rostered := by
  induction h with
  | refl => exact hm
  | tail _ hstep ih => exact hstep.rostered ih

theorem lost_of_relistings (h : Relistings m m') (hm : m.Rostered) (hlost : m.Lost space) :
    m'.Lost space := by
  induction h with
  | refl => exact hlost
  | tail before hstep ih => exact hstep.lost (rostered_of_relistings before hm) ih

/-- Coming back from the kernel space, and telling the caches. -/
theorem relistings_finishUser {cpu : CpuId} {virt size : Nat} {result : Except MemoryError Unit}
    (hm : m.Rostered) :
    Ends (finishUser cpu virt size result) m (fun _ m' => Relistings m m')
      (onReturn fun _ m' => Relistings m m') := by
  unfold finishUser
  rw [Steps.ends_bind]
  refine (ends_leaveKernel_relisted hm.placed).mono (fun _ m₁ h₁ => ?_) fun f m₁ h₁ => ?_
  · have hback : Relistings m m₁ := .single h₁
    split
    · exact hback
    · exact hback
    · refine roster_invalidate.ends_bind (fun _ m₂ h₂ => ?_) fun _ m₂ h₂ => hback.tail (.same h₂)
      rw [ends_ofResult]
      exact ⟨fun _ _ => hback.tail (.same h₂), fun _ _ => hback.tail (.same h₂)⟩
  · cases f with
    | refused error =>
      obtain rfl : m₁ = m := h₁
      exact .refl
    | fault fault => trivial

/-- Mapping user memory goes to the kernel space and back; nothing is listed on the way. -/
theorem relistings_mapUser {cpu : CpuId} {virt phys size : Nat} (hm : m.Rostered) :
    Ends (mapUser format config cpu space virt phys size) m (fun _ m' => Relistings m m')
      (onReturn fun _ m' => Relistings m m') := by
  rw [mapUser, Steps.ends_bind, ends_activeRoot]
  split
  · exact .refl
  · rw [Steps.ends_bind]
    refine (ends_enterKernel_relisted hm.placed).mono (fun _ m₁ h₁ => ?_) fun f m₁ h₁ => ?_
    · show Ends (do
        let result ← attempt (mapTask format config cpu space virt phys size)
        finishUser cpu virt size result) m₁ _ _
      -- whatever became of the mapping, the processor goes back
      have hback : ∀ {m₂ : Machine} (result : Except MemoryError Unit), SameRoster m₁ m₂ →
          Ends (finishUser cpu virt size result) m₂ (fun _ m' => Relistings m m')
            (onReturn fun _ m' => Relistings m m') := by
        intro m₂ result h₂
        have hthere : Relistings m m₂ := (Relation.ReflTransGen.single h₁).tail (.same h₂)
        exact (relistings_finishUser (rostered_of_relistings hthere hm)).weaken_return
          (fun _ _ h₃ => hthere.trans h₃) fun _ _ h₃ => hthere.trans h₃
      rw [Steps.ends_bind, ends_attempt]
      refine (roster_mapTask m₁).mono (fun _ m₂ h₂ => hback (.ok ()) h₂) fun f m₂ h₂ => ?_
      cases f with
      | refused error => exact hback (.error error) h₂.1
      | fault fault => trivial
    · cases f with
      | refused error =>
        obtain rfl : m₁ = m := h₁
        exact .refl
      | fault fault => trivial

/-- A call that ends adds a space to the list, if it makes one, and else changes list and roots as
above. -/
theorem relisted_perform {cpu : CpuId} (hm : m.Rostered) :
    Ends (perform format config cpu call) m
      (fun _ m' => (∃ space, createSpace format cpu m = .ok space m' ∧ Listed space m m')
        ∨ Relistings m m')
      (onReturn fun _ m' => Relistings m m') := by
  have hsame : ∀ {α : Type} {steps : MachineSteps α} {answer : α → Answer},
      Keeps SameRoster AnyError steps →
        Ends (do return answer (← steps)) m
          (fun _ m' => (∃ space, createSpace format cpu m = .ok space m' ∧ Listed space m m')
            ∨ Relistings m m')
          (onReturn fun _ m' => Relistings m m') := by
    intro α steps answer hkeeps
    refine hkeeps.ends_bind (fun _ m' h => ?_) fun _ m' h => .single (.same h)
    exact .inr (.single (.same h))
  have hmoved : ∀ {steps : MachineSteps Unit},
      Ends steps m (fun _ m' => Relisted m m') (onRefusal fun _ m' => m' = m) →
        Ends (do steps; return Answer.done) m
          (fun _ m' => (∃ space, createSpace format cpu m = .ok space m' ∧ Listed space m m')
            ∨ Relistings m m')
          (onReturn fun _ m' => Relistings m m') := by
    intro steps hends
    rw [Steps.ends_bind]
    refine hends.mono (fun _ m' h => .inr (.single h)) fun f m' h => ?_
    cases f with
    | refused error =>
      obtain rfl : m' = m := h
      exact .refl
    | fault fault => trivial
  cases call with
  | initFrames map =>
    rw [perform_initFrames]
    exact hsame roster_initFrames
  | allocatePage =>
    rw [perform_allocatePage]
    exact hsame (roster_onStore _)
  | allocateBlock order zone =>
    rw [perform_allocateBlock]
    exact hsame (roster_onStore _)
  | freePage address =>
    rw [perform_freePage]
    exact @hsame _ _ (fun _ => .done) (roster_onStore _)
  | freeBlock address order =>
    rw [perform_freeBlock]
    exact @hsame _ _ (fun _ => .done) (roster_onStore _)
  | mapKernel address size policy => exact @hsame _ _ (fun _ => .done) roster_mapKernel
  | init map windows =>
    rw [perform, Steps.ends_bind]
    exact ends_init_relisted.weaken_return (fun _ _ h => .inr (.single h)) fun _ _ h => .single h
  | createSpace =>
    rw [perform, Steps.ends_bind]
    refine (ends_createSpace_listed.and (ends_self _ m)).mono (fun space m' h => ?_) fun f m' h => ?_
    · exact .inl ⟨space, h.2, h.1⟩
    · cases f with
      | refused error => exact .single (.same h.1)
      | fault fault => trivial
  | deleteSpace space =>
    rw [perform, Steps.ends_bind]
    exact ends_deleteSpace_unlisted.weaken_return
      (fun _ _ h => .inr (.single (.unlisted h))) fun _ _ h => .single (.same h)
  | mapUser space virt phys size =>
    rw [perform, Steps.ends_bind]
    exact (relistings_mapUser hm).weaken_return (fun _ _ h => .inr h) fun _ _ h => h
  | enterKernel => exact hmoved (ends_enterKernel_relisted hm.placed)
  | leaveKernel => exact hmoved (ends_leaveKernel_relisted hm.placed)
  | switchTo space => exact hmoved ends_switchTo_relisted

/-- What changes a machine adds a space to the list only by making it. -/
theorem Turn.relisted (h : Turn format config call m m') (hm : m.Rostered) :
    (∃ cpu space, createSpace format cpu m = .ok space m' ∧ Listed space m m')
      ∨ Relistings m m' := by
  cases h with
  | @call cpu call result _ _ ends =>
    have hends := (relisted_perform hm).of_return ends
    cases result with
    | ok answer => exact hends.imp_left fun hmade => ⟨cpu, hmade⟩
    | error error => exact .inr hends
  | @enter cpu range result _ _ ends =>
    have hends : Ends (enterKernel cpu) m (fun _ m' => Relistings m m')
        (onReturn fun _ m' => Relistings m m') := by
      refine (ends_enterKernel_relisted hm.placed).overflow.at_return.weaken_return
        (fun _ _ h => .single h) fun _ m' h => ?_
      rw [h]
    exact .inr (hends.state_of_return ends)
  | map ends => exact .inr (.single (.same (roster_mapTask.of_attempt ends).1))
  | leave ends => exact .inr ((relistings_finishUser hm).state_of_return ends)

theorem rostered_powerOn (poolPages : Nat) : (Machine.powerOn poolPages).Rostered :=
  ⟨placed_powerOn poolPages, fun h => nomatch h⟩

theorem Turn.rostered (h : Turn format config call m m') (hm : m.Rostered) : m'.Rostered := by
  rcases h.relisted hm with ⟨cpu, space, -, hlisted⟩ | hrelisted
  · exact hlisted.rostered hm
  · exact rostered_of_relistings hrelisted hm

/-- After any calls, on any processors and with any arguments. -/
theorem Driven.rostered {Rule : Call → Prop} (h : Driven format config Rule poolPages m) :
    m.Rostered := by
  induction h with
  | start => exact rostered_powerOn poolPages
  | turn before words rule turn ih => exact turn.rostered ih

end

end KernelMemory
