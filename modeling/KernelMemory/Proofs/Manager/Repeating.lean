/-
  KernelMemory.Proofs.Manager.Repeating — asking twice for the same memory to be mapped.

  A call that was done leaves its range mapped as asked for and no table waiting to be written.
  So the same call, made right after it, finds every page in place, writes nothing to memory,
  and ends; what is left of it is that caches are told once more, and, for user memory, the way
  to the kernel space and back.

  Main results:
    * `again_after_commit` — steps on the tables that are made again after they were written;
    * `mapKernel_again`, `mapUser_again` — the calls;
    * `mapping_repeated` — ranges, kernel memory and user memory.
-/

import KernelMemory.Proofs.Manager.UpperHalf
import KernelMemory.Proofs.Manager.UserMapping
import KernelMemory.Proofs.Paging.Ranges
import KernelMemory.Proofs.Paging.Repeating

namespace KernelMemory

open Machine Manager Steps TableStore

variable {format : Format} {config : Config} {stock : Stock} {m m' m'' m₁ m₂ : Machine}
  {cpu : CpuId} {space : AddressSpace}

/-! ## Tables that were written -/

theorem attempt_onStore {α : Type} {steps : TableSteps α} {a : α}
    (e : attempt (onStore steps) m = .ok (.ok a) m') :
    steps m.store = .ok a m'.store ∧ m' = { m with store := m'.store } := by
  have hok := eq_ok_of_attempt e
  unfold onStore at hok
  simp only at hok
  split at hok
  · rename_i b s hsteps
    cases hok
    exact ⟨hsteps, rfl⟩
  · cases hok

theorem attempt_onStore_of_ok {α : Type} {steps : TableSteps α} {a : α}
    (e : steps m.store = .ok a m.store) : attempt (onStore steps) m = .ok (.ok a) m := by
  have hok : onStore steps m = .ok a m := by
    unfold onStore
    simp only [e]
  rw [attempt, hok]

theorem started_bind_eq_ok_iff {α : Type} {next : Spaces → MachineSteps α} {a : α} :
    (started >>= next) m = .ok a m'
      ↔ ∃ spaces, m.spaces = some spaces ∧ next spaces m = .ok a m' := by
  constructor
  · intro e
    have hends : Ends started m (fun spaces m' => m.spaces = some spaces ∧ m' = m)
        (onRefusal fun _ _ => True) :=
      ends_started _ _ (fun _ hspaces => ⟨hspaces, rfl⟩) fun _ => trivial
    obtain ⟨spaces, m₀, hstarted, e'⟩ := bind_eq_ok_iff.mp e
    obtain ⟨hspaces, rfl⟩ := hends.of_ok hstarted
    exact ⟨spaces, hspaces, e'⟩
  · rintro ⟨spaces, hspaces, e⟩
    exact (bind_of_ok (started_of_some hspaces)).trans e

/-- Writing the waiting tables leaves none waiting, and changes nothing else of the tables. -/
theorem commit_of_ok {count : Nat} (e : commit format m = .ok count m') :
    m.store.arena.Unmarked m'.store.arena ∧ m'.store.arena.pending = #[]
      ∧ m'.spaces = m.spaces := by
  unfold commit at e
  split at e
  · rename_i written a memory hcommit
    cases e
    exact ⟨Arena.unmarked_commit hcommit, Arena.pending_commit hcommit, rfl⟩
  · cases e

theorem commit_of_pending (h : m.store.arena.pending = #[]) : commit format m = .ok 0 m := by
  rw [commit, Arena.commit_of_pending h]

/-- Steps on the tables that were done, and written to memory, are done at once when they are made
again, and nothing is there to be written. -/
theorem again_after_commit {α β : Type} {flags : PageFlags} {steps : TableSteps α}
    {again : TableSteps β} {R : α → β → Prop} (h : Repeats flags steps again R)
    (names : m.store.arena.Names) {a : α} {count : Nat}
    (e : attempt (onStore steps) m = .ok (.ok a) m₁) (hcommit : commit format m₁ = .ok count m₂)
    (hsame : m'.store.arena = m₂.store.arena) :
    (∃ b, attempt (onStore again) m' = .ok (.ok b) m' ∧ R a b) ∧ commit format m' = .ok 0 m' := by
  obtain ⟨hsteps, -⟩ := attempt_onStore e
  obtain ⟨hunmarked, hpending, -⟩ := commit_of_ok hcommit
  have hrepeated := h _ _ _ names hsteps
  obtain ⟨b, hagain, hb⟩ := hrepeated.again (t := m'.store) <| by
    rw [hsame]
    exact hunmarked.alike.retains
  exact ⟨⟨b, attempt_onStore_of_ok hagain, hb⟩, commit_of_pending (by rw [hsame]; exact hpending)⟩

/-! ## Kernel memory -/

theorem repeats_mapView (tree : KernelTree) (virt phys size : Nat) (flags : PageFlags) :
    Repeats flags (mapView format config tree virt phys size flags)
      (mapView format config tree virt phys size flags) fun _ again => again.changed = false := by
  unfold mapView
  split
  · exact repeats_pure rfl
  · apply (repeats_ofResult _).bind
    rintro _ _ rfl
    refine (Walk.repeats_mapRange format _).mono fun hagain => ?_
    rw [hagain]
    rfl

/-- Both views of kernel memory are mapped with the same attributes, so what the first pass made of
one is not undone by the other. -/
theorem repeats_mapViews (tree : KernelTree) (address size : Nat) (policy : CachePolicy) :
    Repeats (PageFlags.kernelData.withCachePolicy policy)
      (mapViews format config tree address size policy)
      (mapViews format config tree address size policy) fun _ again => again = false := by
  unfold mapViews
  apply (repeats_ofResult _).bind
  rintro second _ rfl
  apply (repeats_ofResult _).bind
  rintro _ _ rfl
  cases second with
  | none =>
    apply (repeats_mapView tree _ _ _ _).bind
    intro _ identity hidentity
    exact repeats_pure hidentity
  | some virt =>
    apply (repeats_ofResult _).bind
    rintro _ _ rfl
    apply (repeats_mapView tree _ _ _ _).bind
    intro _ identity hidentity
    apply (repeats_mapView tree _ _ _ _).bind
    intro _ shifted hshifted
    refine repeats_pure ?_
    rw [hidentity, hshifted]
    rfl

theorem still_reportKernel {address size : Nat} {policy : CachePolicy}
    {result : Except MemoryError Bool} :
    Ends (reportKernel address size policy result) m
      (fun _ m' => (∃ changed, result = .ok changed) ∧ Still m m') (fun _ _ => True) := by
  cases result with
  | error error => trivial
  | ok changed =>
    simp only [reportKernel]
    split
    · rw [ends_bind, ends_add]
      exact ⟨fun _ => ends_write _ _ _ _ fun _ hstill => ⟨⟨changed, rfl⟩, hstill⟩, fun _ => trivial⟩
    · exact ⟨⟨changed, rfl⟩, .refl m⟩

/-- The end of `mapKernel` is reached only where the views were mapped, and changes no table after
these were written. -/
theorem ends_finishKernel_ok {address size : Nat} {policy : CachePolicy}
    {result : Except MemoryError Bool} :
    Ends (finishKernel format config cpu address size policy result) m
      (fun _ m' => (∃ changed, result = .ok changed)
        ∧ ∃ count m₁, commit format m = .ok count m₁ ∧ Still m₁ m') (fun _ _ => True) := by
  unfold finishKernel
  rw [ends_bind]
  refine (ends_self _ _).mono (fun count m₁ hcommit => ?_) fun _ _ _ => trivial
  have hreport : ∀ {m₂}, Still m₁ m₂ → Ends (reportKernel address size policy result) m₂
      (fun _ m' => (∃ changed, result = .ok changed)
        ∧ ∃ count m₁, commit format m = .ok count m₁ ∧ Still m₁ m') (fun _ _ => True) :=
    fun h₂ => still_reportKernel.mono
      (fun _ _ hdone => ⟨hdone.1, count, m₁, hcommit, h₂.trans hdone.2⟩) fun _ _ _ => trivial
  split
  · trivial
  · rw [ends_bind]
    refine ends_invalidate.mono (fun _ m₂ h₂ => ?_) fun _ _ _ => trivial
    simp only
    split
    · rw [ends_bind]
      exact ends_invalidate.mono (fun _ m₃ h₃ => hreport (h₂.trans h₃)) fun _ _ _ => trivial
    · exact hreport h₂

/-- Where nothing was changed and nothing waits, caches are told, and no more. -/
theorem ends_finishKernel_unchanged {address size : Nat} {policy : CachePolicy}
    (hcommit : commit format m = .ok 0 m) (hviews : ViewsChecked format config address size) :
    Ends (finishKernel format config cpu address size policy (.ok false)) m
      (fun _ m' => Still m m') (fun _ _ => False) := by
  unfold finishKernel
  rw [ends_bind, Ends, hcommit]
  simp only
  rw [ends_bind]
  refine (ends_invalidate_fitting (not_overruns_of_checkRange hviews.identity)).mono
    (fun _ m₁ h₁ => ?_) fun _ _ hf => hf
  split
  · rename_i virt hsecond
    rw [ends_bind]
    exact (ends_invalidate_fitting (not_overruns_of_checkRange (hviews.shifted hsecond))).mono
      (fun _ m₂ h₂ => h₁.trans h₂) fun _ _ hf => hf
  · exact h₁

/-- Kernel memory that was mapped is mapped again without a change, on whichever processor. -/
theorem mapKernel_again {address size : Nat} {policy : CachePolicy} (h : m.Sound format stock)
    (e : mapKernel format config cpu address size policy m = .ok () m') (other : CpuId) :
    ∃ m'', mapKernel format config other address size policy m' = .ok () m'' ∧ Still m' m'' := by
  rw [mapKernel_eq] at e ⊢
  obtain ⟨spaces, hspaces, e⟩ := started_bind_eq_ok_iff.mp e
  obtain ⟨result, m₁, hresult, hfinish⟩ := bind_eq_ok_iff.mp e
  obtain ⟨⟨changed, rfl⟩, count, m₂, hcommit, hstill⟩ := ends_finishKernel_ok.of_ok hfinish
  obtain ⟨hsteps, hm₁⟩ := attempt_onStore hresult
  obtain ⟨hviews, -⟩ := ends_mapViews_checked.of_ok hsteps
  have hspaces' : m'.spaces = some spaces := by
    rw [hstill.spaces, (commit_of_ok hcommit).2.2, hm₁]
    exact hspaces
  obtain ⟨⟨_, hagain, rfl⟩, hclean⟩ := again_after_commit (repeats_mapViews _ _ _ _)
    h.ledger.books.names hresult hcommit hstill.quiet.store.arena
  obtain ⟨_, m'', hfinish', hstill'⟩ : ∃ _ m'', finishKernel format config other address size policy
      (.ok false) m' = .ok _ m'' ∧ _ := exists_of_ends (ends_finishKernel_unchanged hclean hviews)
  exact ⟨m'', started_bind_eq_ok_iff.mpr
    ⟨spaces, hspaces', (bind_of_ok hagain).trans hfinish'⟩, hstill'⟩

/-! ## User memory -/

/-- A range that was mapped into a tree is mapped again without a change. -/
theorem mapAndCommit_again {request : MapRequest} (names : m.store.arena.Names)
    (e : mapAndCommit format request m = .ok () m') (hq : Quiet m' m'') :
    mapAndCommit format request m'' = .ok () m'' := by
  unfold mapAndCommit at e ⊢
  obtain ⟨result, m₁, hresult, e⟩ := bind_eq_ok_iff.mp e
  obtain ⟨count, m₂, hcommit, e⟩ := bind_eq_ok_iff.mp e
  cases result with
  | error error => cases e
  | ok summary =>
    cases e
    obtain ⟨⟨again, hagain, -⟩, hclean⟩ := again_after_commit (Walk.repeats_mapRange format request)
      names hresult hcommit hq.store.arena
    rw [bind_of_ok hagain, bind_of_ok hclean]
    rfl

/-- The root table is found before anything else is done. -/
theorem taskTable_of_mapTask {virt phys size : Nat}
    (e : mapTask format config cpu space virt phys size m = .ok () m') :
    ∃ spaces root, m.spaces = some spaces ∧ spaces.taskTable m.store.arena space = .ok root := by
  rw [mapTask_eq, Locked.mapTask] at e
  obtain ⟨spaces, hspaces, e⟩ := started_bind_eq_ok_iff.mp e
  have hget : (get : MachineSteps Machine) m = .ok m m := rfl
  rw [bind_of_ok hget] at e
  obtain ⟨root, m₀, hroot, -⟩ := bind_eq_ok_iff.mp e
  refine ⟨spaces, root, hspaces, ?_⟩
  cases htable : spaces.taskTable m.store.arena space with
  | error error =>
    rw [htable] at hroot
    cases hroot
  | ok found =>
    rw [htable] at hroot
    cases hroot
    rfl

/-- The root table of a task stays its root table while the spaces and the frames of tables stay. -/
theorem taskTable_again {spaces : Spaces} {root : TableId} (h : m.Sound format stock)
    (hspaces : m.spaces = some spaces) (hroot : spaces.taskTable m.store.arena space = .ok root)
    (h' : m'.Sound format stock) (hcensus : m'.census = m.census)
    (hframe : ∀ {frame}, m.store.arena.frame? root = some frame →
      m'.store.arena.frame? root = some frame) :
    ∃ spaces', m'.spaces = some spaces' ∧ spaces'.taskTable m'.store.arena space = .ok root := by
  obtain ⟨htask, -, -, hf⟩ := (h.spaces hspaces).taskTable_eq_ok h.ledger.books hroot
  rw [census_of_some hspaces] at hcensus
  obtain ⟨spaces', hspaces', heq⟩ := exists_of_census hcensus
  simp only [Spaces.census, Prod.mk.injEq] at heq
  rw [← heq.2.2] at htask
  obtain ⟨root', hroot'⟩ := (h'.spaces hspaces').taskTable_of_task h'.ledger.books htask
  obtain ⟨-, -, -, hf'⟩ := (h'.spaces hspaces').taskTable_eq_ok h'.ledger.books hroot'
  rw [h'.ledger.books.frame_inj (hframe hf) hf']
  exact ⟨spaces', hspaces', hroot'⟩

/-- An empty range is looked at no further. -/
theorem mapTask_empty {virt phys : Nat} {spaces : Spaces} {root : TableId}
    (hspaces : m.spaces = some spaces) (hroot : spaces.taskTable m.store.arena space = .ok root) :
    mapTask format config cpu space virt phys 0 m = .ok () m := by
  have hget : (get : MachineSteps Machine) m = .ok m m := rfl
  have hlift : (ofResult (spaces.taskTable m.store.arena space) : MachineSteps TableId) m
      = .ok root m := by
    rw [hroot]
    rfl
  rw [mapTask_eq, Locked.mapTask, bind_of_ok (started_of_some hspaces), bind_of_ok hget,
    bind_of_ok hlift, if_pos rfl]
  rfl

theorem mapTask_again {virt phys size : Nat} (h : m.Sound format stock)
    (e : mapTask format config cpu space virt phys size m = .ok () m') (hq : Quiet m' m'') :
    mapTask format config cpu space virt phys size m'' = .ok () m'' := by
  obtain ⟨htables, -⟩ := (ends_mapTask h).of_ok e
  have h'' : m''.Sound format stock := hq.sound (htables.sound h)
  have hcensus : m''.census = m.census := hq.census.trans htables.census
  obtain ⟨spaces, root, hspaces, hroot⟩ := taskTable_of_mapTask e
  rcases (ends_mapTask_mapped h).of_ok e with ⟨rfl, rfl⟩ | ⟨spaces', root', hdone, -⟩
  · obtain ⟨spaces'', hspaces'', hroot''⟩ := taskTable_again h hspaces hroot h'' hcensus fun hf => by
      rw [hq.store.arena]
      exact hf
    exact mapTask_empty hspaces'' hroot''
  · have ready : AllReady format spaces'.kernelTable
        (fun r => r = userRequest config root' virt phys size) m.store :=
      allReady_of_ready ⟨hdone.request.fits, hdone.level⟩
    obtain ⟨mid, hedits, -, hunmarked⟩ := hdone.remapped.edits
    have hgrows := hedits.grows ⟨h.ledger, (h.spaces hdone.known).shaped⟩ ready
    obtain ⟨spaces'', hspaces'', hroot''⟩ := taskTable_again h hspaces hroot h'' hcensus fun hf => by
      rw [hq.store.arena, hunmarked.alike.frame]
      exact hgrows.frame hf
    -- the checks were passed, and do not depend on the state
    have hpos : 0 < size := hdone.request.pos
    have hvirt : virt + (size - 1) < format.userEnd := hdone.request.last_virt
    have hphys : phys + (size - 1) < format.physicalEnd := hdone.request.last_phys
    rw [mapTask_fitting hspaces hroot hpos hvirt hphys] at e
    rw [mapTask_fitting hspaces'' hroot'' hpos hvirt hphys]
    exact mapAndCommit_again h.ledger.books.names e hq

/-- What caches are told of a range that was mapped stays in the word. -/
theorem not_overruns_of_mapTask {virt phys size : Nat} (h : m.Sound format stock)
    (e : mapTask format config cpu space virt phys size m = .ok () m') : ¬ Overruns virt size := by
  rcases (ends_mapTask_mapped h).of_ok e with ⟨hsize, -⟩ | ⟨spaces, root, hdone, -⟩
  · exact fun hover => hover.1 hsize
  · exact not_overruns_of_lt_userEnd hdone.request.last_virt (Nat.ne_of_gt hdone.request.pos)

/-- User memory that was mapped is mapped again without a change, from the same processor. -/
theorem mapUser_again {virt phys size : Nat} (h : m.Sound format stock) (hplaced : m.Placed)
    (e : mapUser format config cpu space virt phys size m = .ok () m') :
    ∃ m'', mapUser format config cpu space virt phys size m' = .ok () m'' ∧ Quiet m' m'' := by
  obtain ⟨hactive, m₁, m₂, henter, hmap, hfinish⟩ := mapUser_eq_ok_iff.mp e
  obtain ⟨hq₁, spaces, hspaces, hthere⟩ := ends_enterKernel.of_ok henter
  have hm₁ : m₁.Sound format stock := hq₁.sound h
  obtain ⟨htables, hsame⟩ := (ends_mapTask hm₁).of_ok hmap
  obtain ⟨hplaced₂, hsaved₂⟩ := back_of_mapped hplaced hq₁ hspaces hthere htables hsame
  obtain ⟨hq₂, hback⟩ := (ends_finishUser_result hplaced₂ hsaved₂).of_ok hfinish
  -- the processor is back on the root of the space, and may enter again
  have hplaced' : m'.Placed := placed_leave hplaced₂ hq₂ hsaved₂ hback
  have hroot' : (m'.cpu cpu).root = (m.cpu cpu).root := hback.root
  have hcensus' : m'.census = m.census := (hq₂.census.trans htables.census).trans hq₁.census
  rw [census_of_some hspaces] at hcensus'
  obtain ⟨spaces', hspaces', -⟩ := exists_of_census hcensus'
  obtain ⟨m₃, henter'⟩ := exists_enterKernel hspaces' (savedRoot_of_moved hback.toMoved)
  obtain ⟨hq₃, spaces₃, hspaces₃, hthere'⟩ := ends_enterKernel.of_ok henter'
  have hmap' : mapTask format config cpu space virt phys size m₃ = .ok () m₃ :=
    mapTask_again hm₁ hmap (hq₂.trans hq₃)
  have hstays : MappedUser format space virt phys m₃ m₃ := .inl (.refl m₃)
  obtain ⟨hplaced₃, hsaved₃⟩ := back_of_mapped hplaced' hq₃ hspaces₃ hthere' hstays (.refl m₃)
  obtain ⟨m'', hfinish'⟩ := exists_finishUser hplaced₃ hsaved₃ (not_overruns_of_mapTask hm₁ hmap)
  obtain ⟨hq₄, -⟩ := (ends_finishUser_result hplaced₃ hsaved₃).of_ok hfinish'
  exact ⟨m'', mapUser_eq_ok_iff.mpr
    ⟨hactive.trans hroot'.symm, m₃, m₃, henter', hmap', hfinish'⟩, hq₃.trans hq₄⟩

/-! ## Whatever was mapped -/

/-- A range that was mapped, into whatever tree and with whatever request, is mapped again without
a change to frames, tables or the log, and each page that was met is counted as unchanged.  In every
state that processors reach, kernel memory that was mapped is mapped again, from any processor, and
user memory from the same one; frames, tables and memory stay as they are. -/
theorem mapping_repeated (format : Format) (config : Config) :
    (∀ (request : MapRequest) (s s' : TableStore) (summary : MapSummary), s.arena.Names →
        Walk.mapRange format request s = .ok summary s' →
          ∃ again, Walk.mapRange format request s' = .ok again s'
            ∧ again.installed = 0 ∧ again.updated = 0 ∧ again.unchanged = summary.steps)
      ∧ ∀ (poolPages : Nat) (s : System) (cpu : CpuId) (m' : Machine),
        Reachable format config AnyCall poolPages s →
          (∀ (address size : Nat) (policy : CachePolicy),
            mapKernel format config cpu address size policy s.machine = .ok () m' →
              ∀ other, ∃ m'', mapKernel format config other address size policy m' = .ok () m''
                ∧ Quiet m' m'')
          ∧ ∀ (space : AddressSpace) (virt phys size : Nat),
            mapUser format config cpu space virt phys size s.machine = .ok () m' →
              ∃ m'', mapUser format config cpu space virt phys size m' = .ok () m''
                ∧ Quiet m' m'' := by
  refine ⟨fun request s s' summary names e => ?_, fun poolPages s cpu m' h => ⟨?_, ?_⟩⟩
  · exact ⟨_, Walk.mapRange_again names e, rfl, rfl, rfl⟩
  · intro address size policy e other
    obtain ⟨m'', hagain, hstill⟩ := mapKernel_again h.sound.machine e other
    exact ⟨m'', hagain, hstill.quiet⟩
  · intro space virt phys size e
    exact mapUser_again h.sound.machine h.sound.placed e

/-- For instance, a large page, device registers that get another policy, and a page of a task. -/
theorem mapping_repeated_narrow :
    (∃ (s s' : TableStore) (root : TableId) (summary again : MapSummary), s.arena.Names
        ∧ Walk.mapRange .narrow (largeRange.on root true) s = .ok summary s'
        ∧ Walk.mapRange .narrow (largeRange.on root true) s' = .ok again s'
        ∧ again.installed = 0 ∧ again.updated = 0 ∧ again.unchanged = summary.steps)
      ∧ (∃ s m' m'', Reachable .narrow {} AnyCall 0 s
        ∧ mapKernel .narrow {} 0 0x80000000 0x400000 .writeBack s.machine = .ok () m'
        ∧ mapKernel .narrow {} 1 0x80000000 0x400000 .writeBack m' = .ok () m'' ∧ Quiet m' m'')
      ∧ ∃ s space m' m'', Reachable .narrow {} AnyCall 0 s
        ∧ mapUser .narrow {} 0 space 0x400000 0x800000 0x1000 s.machine = .ok () m'
        ∧ mapUser .narrow {} 0 space 0x400000 0x800000 0x1000 m' = .ok () m'' ∧ Quiet m' m'' := by
  refine ⟨?_, ?_, ?_⟩
  · obtain ⟨_, root, s, s', summary, bare, -, e⟩ := Walk.exists_mapRange_largeRange
    have names := bare.orderly.ledger.books.names
    obtain ⟨again, hagain, hcounts⟩ := (mapping_repeated .narrow {}).1 _ s s' summary names e
    exact ⟨s, s', root, summary, again, names, e, hagain, hcounts⟩
  · obtain ⟨m, stock, -, h, -, spaces, hspaces, hslot⟩ := exists_started_device kernelBlock_device rfl
    have hends : Ends (mapKernel .narrow {} 0 0x80000000 0x400000 .writeBack) m _ _ :=
      ends_mapKernel_block kernelBlock_device (by decide) h.reachable.sound.machine hspaces hslot
    obtain ⟨_, m', e, -⟩ := exists_of_ends hends
    obtain ⟨m'', hagain, hq⟩ :=
      ((mapping_repeated .narrow {}).2 0 _ 0 m' h.reachable).1 0x80000000 0x400000 .writeBack e 1
    exact ⟨_, m', m'', h.reachable, e, hagain, hq⟩
  · have htables : tablesWanted .narrow {} 0x400000 0x800000 0x1000 ≤ 61 := by decide +kernel
    obtain ⟨s, space, m', h, -, -, e, -⟩ : ∃ s space m', Reachable .narrow {} AnyCall 0 s ∧ _ ∧ _ ∧
        mapUser .narrow {} 0 space 0x400000 0x800000 0x1000 s.machine = .ok () m' ∧ _ :=
      exists_mapUser_spareMap rfl (by decide) (by decide) (by decide) htables
    obtain ⟨m'', hagain, hq⟩ := ((mapping_repeated .narrow {}).2 0 s 0 m' h).2 _ _ _ _ e
    exact ⟨s, space, m', m'', h, e, hagain, hq⟩

end KernelMemory
