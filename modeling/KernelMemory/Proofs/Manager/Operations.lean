/-
  KernelMemory.Proofs.Manager.Operations — how the operations of the manager end.

  From a sound machine every operation answers or is refused, and either way does to the
  tables and to the processors what its shape says.  The one fault left is an address that
  leaves the word while entries are dropped from a processor's cache.

  Main results:
    * `ends_mapKernel_views`, `ends_createSpace`, `ends_deleteSpace`;
    * `ends_enterKernel`, `ends_leaveKernel`, `ends_switchTo`;
    * `ends_mapTask_request`, `ends_mapUser`.
-/

import KernelMemory.Manager.Call
import KernelMemory.Proofs.Manager.CriticalSections
import KernelMemory.Proofs.Manager.Placement

namespace KernelMemory

namespace Machine

open Steps

variable {format : Format} {config : Config} {stock : Stock} {m m' m'' : Machine} {cpu : CpuId}

/-- Nothing but the log and what processors dropped from their caches has changed. -/
structure Still (m m' : Machine) : Prop where
  quiet : Quiet m m'
  same : SameRoots m m'
  spaces : m'.spaces = m.spaces

theorem Still.refl (m : Machine) : Still m m := ⟨.refl m, .refl m, rfl⟩

theorem Still.trans (h : Still m m') (h' : Still m' m'') : Still m m'' :=
  ⟨h.quiet.trans h'.quiet, h.same.trans h'.same, h'.spaces.trans h.spaces⟩

theorem ends_onStore {α : Type} (steps : TableSteps α) (ok : α → Machine → Prop)
    (failed : Failure → Machine → Prop) :
    Ends (onStore steps) m ok failed
      ↔ Ends steps m.store (fun a s => ok a { m with store := s })
          (fun f s => failed f { m with store := s }) := by
  simp only [Ends, onStore]
  cases steps m.store <;> rfl

/-- `ends_onStore` for steps that are at most refused. -/
theorem ends_onStore_refusal {α : Type} (steps : TableSteps α) (ok : α → Machine → Prop)
    (refused : MemoryError → Machine → Prop) :
    Ends (onStore steps) m ok (onRefusal refused)
      ↔ Ends steps m.store (fun a s => ok a { m with store := s })
          (onRefusal fun e s => refused e { m with store := s }) := by
  simp only [Ends, onStore]
  cases steps m.store with
  | ok a s => rfl
  | error f s => cases f <;> rfl

theorem still_log (records : Array LogRecord) :
    Still m { m with store := { m.store with log := records } } :=
  ⟨⟨⟨rfl, rfl⟩, rfl, rfl, rfl⟩, ⟨fun _ => rfl, fun _ => rfl, rfl⟩, rfl⟩

theorem ends_write (level : LogLevel) (text : String) (ok : Unit → Machine → Prop)
    (failed : Failure → Machine → Prop) (h : ∀ m', Still m m' → ok () m') :
    Ends (write level text) m ok failed := by
  rw [write, ends_onStore, TableStore.ends_write]
  exact h _ (still_log _)

/-- A change of a processor that keeps its root. -/
theorem still_modifyCpu {change : Cpu → Cpu} (hroot : ∀ c, (change c).root = c.root) :
    Still m (m.modifyCpu cpu change) := by
  refine ⟨⟨⟨rfl, rfl⟩, rfl, rfl, rfl⟩, ⟨fun other => ?_, fun _ => rfl, rfl⟩, rfl⟩
  by_cases h : cpu = other
  · subst h
    rw [cpu_modifyCpu_same, hroot]
  · rw [cpu_modifyCpu_other _ _ h]

theorem ends_onCpu {change : Cpu → Cpu} (ok : Unit → Machine → Prop)
    (failed : Failure → Machine → Prop) :
    Ends (onCpu cpu change) m ok failed ↔ ok () (m.modifyCpu cpu change) := Iff.rfl

end Machine

namespace Manager

open Machine Steps

variable {format : Format} {config : Config} {stock : Stock} {m : Machine} {cpu : CpuId}

/-! ## Shared steps -/

theorem ends_started (ok : Spaces → Machine → Prop) (refused : MemoryError → Machine → Prop)
    (hok : ∀ spaces, m.spaces = some spaces → ok spaces m)
    (hrefused : ∀ e, refused e m) : Ends started m ok (onRefusal refused) := by
  rw [started, ends_bind, ends_get]
  cases h : m.spaces with
  | none => exact hrefused _
  | some spaces => exact hok spaces h

theorem ends_started_some {spaces : Spaces} (h : m.spaces = some spaces)
    (ok : Spaces → Machine → Prop) (failed : Failure → Machine → Prop) :
    Ends started m ok failed ↔ ok spaces m := by
  rw [started, ends_bind, ends_get, h]
  rfl

theorem started_of_some {spaces : Spaces} (h : m.spaces = some spaces) :
    started m = .ok spaces m := by
  have hget : (get : MachineSteps Machine) m = .ok m m := rfl
  rw [started, bind_of_ok hget, h]
  rfl

theorem ends_activeRoot (ok : PhysAddr → Machine → Prop) (failed : Failure → Machine → Prop) :
    Ends (activeRoot cpu) m ok failed ↔ ok (m.cpu cpu).root m := Iff.rfl

theorem ends_setSpaces (spaces : Spaces) (ok : Unit → Machine → Prop)
    (failed : Failure → Machine → Prop) :
    Ends (setSpaces spaces) m ok failed ↔ ok () { m with spaces := some spaces } := Iff.rfl

theorem ends_load (spaces : Spaces) (root : PhysAddr) (ok : Unit → Machine → Prop)
    (failed : Failure → Machine → Prop) :
    Ends (load cpu spaces root) m ok failed
      ↔ ok () { m.modifyCpu cpu fun c => c.loadRoot root with
          rootFeed := root, spaces := some (spaces.noteLoaded cpu root) } := Iff.rfl

/-- Writing the waiting tables settles the machine. -/
theorem ends_commit {kernel : TableId} (h : m.store.Orderly format kernel stock)
    (synced : Arena.Synced format m.store.arena m.memory) (ok : Nat → Machine → Prop)
    (failed : Failure → Machine → Prop)
    (hok : ∀ count a memory, Arena.Unmarked m.store.arena a → Arena.Settled format a memory →
      ok count { m with store := { m.store with arena := a }, memory := memory }) :
    Ends (commit format) m ok failed := by
  obtain ⟨count, a, memory, heq, hunmarked, hsettled⟩ :=
    Arena.commit_settled h.shaped h.ledger synced
  rw [Ends, commit, heq]
  exact hok count a memory hunmarked hsettled

theorem ends_invalidatePages {start : VirtAddr} : ∀ {count page : Nat} {m : Machine},
    Ends (invalidatePages cpu start count page) m (fun _ m' => Still m m')
      (onOverflow fun _ _ => False) := by
  intro count
  induction count with
  | zero => intro page m; exact .refl m
  | succ count ih =>
    intro page m
    rw [invalidatePages, ends_bind, ends_add]
    refine ⟨fun _ => ?_, fun _ => rfl⟩
    -- one page is dropped, the rest follows from the induction hypothesis
    have hstill : Still m (m.modifyCpu cpu fun c =>
        c.invalidatePage (start + page * frameSize)) := still_modifyCpu fun _ => rfl
    rw [ends_bind, ends_onCpu]
    exact ih.weaken_overflow (fun _ _ h => hstill.trans h) fun _ _ h => h

theorem ends_invalidate {virt : VirtAddr} {size : Nat} :
    Ends (invalidate cpu virt size) m (fun _ m' => Still m m')
      (onOverflow fun _ _ => False) := by
  unfold invalidate
  split
  · exact .refl m
  · split
    · exact still_modifyCpu fun _ => rfl
    · split
      · exact still_modifyCpu fun _ => rfl
      · exact ends_invalidatePages

/-- A range that leaves the word when it is dropped page by page: it is short, and its end does
not fit. -/
def Overruns (virt size : Nat) : Prop :=
  size ≠ 0 ∧ virt % frameSize + size ≤ flushThreshold * frameSize ∧ Word.bound < virt + size

instance (virt size : Nat) : Decidable (Overruns virt size) :=
  inferInstanceAs (Decidable (size ≠ 0 ∧ _ ∧ _))

theorem not_overruns {virt size : Nat} (h : virt + size ≤ Word.bound) :
    ¬ Overruns virt size := fun hover => absurd hover.2.2 (Nat.not_lt.mpr h)

/-- A range in the lower half stays in the word. -/
theorem not_overruns_of_lt_userEnd {virt size : Nat} (h : virt + (size - 1) < format.userEnd)
    (hsize : size ≠ 0) : ¬ Overruns virt size := by
  apply not_overruns
  have hend : virt + (size - 1) < Word.bound :=
    Format.lt_bound_of_inRange (Format.inRange_of_lt_userEnd h)
  omega

/-- A range that was checked does not leave the word. -/
theorem not_overruns_of_checkRange {virt phys size : Nat}
    (h : checkRange format virt phys size = .ok ()) : ¬ Overruns virt size := by
  intro hover
  have hpos : 0 < size := Nat.pos_of_ne_zero hover.1
  have hword := (checkRange_eq_ok hpos h).1
  have hlast := hover.2.2
  omega

/-- The pages that cover a range, where they are few enough to be dropped one by one. -/
theorem pages_of_pageBounds {virt start phys size length : Nat}
    (hb : pageBounds virt 0 size = some (start, phys, length)) :
    start + length / frameSize * frameSize < virt + size + frameSize
      ∧ virt + size ≤ start + length / frameSize * frameSize
      ∧ start % frameSize = 0
      ∧ (length / frameSize ≤ flushThreshold
          ↔ virt % frameSize + size ≤ flushThreshold * frameSize) := by
  obtain ⟨hv, -, hl, hle, hlt, -, -, hend, hend'⟩ := pageBounds_spec hb
  simp only [frameSize, flushThreshold] at *
  omega

theorem ends_invalidatePages_fitting {start : Nat} : ∀ {count page : Nat} {m : Machine},
    start + (page + count) * frameSize ≤ Word.bound →
      Ends (invalidatePages cpu start count page) m (fun _ m' => Still m m') (fun _ _ => False) := by
  intro count
  induction count with
  | zero => intro page m _; exact .refl m
  | succ count ih =>
    intro page m hfits
    have hlt : start + page * frameSize < Word.bound := by
      simp only [frameSize] at *
      omega
    have hrest : start + (page + 1 + count) * frameSize ≤ Word.bound := by
      rw [Nat.add_assoc page, Nat.add_comm 1]
      exact hfits
    rw [invalidatePages, ends_bind, ends_add]
    refine ⟨fun _ => ?_, fun hover => absurd hlt (Nat.not_lt.mpr hover)⟩
    have hstill : Still m (m.modifyCpu cpu fun c =>
        c.invalidatePage (start + page * frameSize)) := still_modifyCpu fun _ => rfl
    rw [ends_bind, ends_onCpu]
    exact (ih hrest).mono (fun _ _ h => hstill.trans h) fun _ _ h => h

/-- Caches are told of a range that stays in the word. -/
theorem ends_invalidate_fitting {virt size : Nat} (h : ¬ Overruns virt size) :
    Ends (invalidate cpu virt size) m (fun _ m' => Still m m') (fun _ _ => False) := by
  unfold invalidate
  split
  · exact Still.refl m
  · rename_i hsize
    split
    · exact still_modifyCpu fun _ => rfl
    · rename_i start phys length hb
      obtain ⟨hend, -, hstart, hshort⟩ := pages_of_pageBounds hb
      split
      · exact still_modifyCpu fun _ => rfl
      · rename_i hfew
        apply ends_invalidatePages_fitting
        have hle : virt + size ≤ Word.bound := Nat.not_lt.mp fun hlt =>
          h ⟨hsize, hshort.mp (Nat.not_lt.mp hfew), hlt⟩
        -- the pages end at the first page boundary from there on, and so does the word
        have hbound : Word.bound % frameSize = 0 := by decide
        simp only [frameSize, Nat.zero_add] at *
        omega

/-! ## Kernel memory -/

/-- The requests of the kernel after the start. -/
abbrev SealedRequest (format : Format) (config : Config) (spaces : Spaces) : MapRequest → Prop :=
  KernelRequest format config ⟨spaces.kernelTable, true⟩ none

/-- What mapping kernel memory does. -/
structure MappedKernel (format : Format) (config : Config) (m m' : Machine) : Prop where
  tables : Quiet m m' ∨ ∃ spaces, m.spaces = some spaces
    ∧ Remapped format (SealedRequest format config spaces) m m'
  same : SameRoots m m'

theorem mappedKernel_refl (m : Machine) : MappedKernel format config m m :=
  ⟨.inl (.refl m), .refl m⟩

theorem MappedKernel.sound {m' : Machine} (h : MappedKernel format config m m')
    (hs : m.Sound format stock) : m'.Sound format stock := by
  rcases h.tables with hq | ⟨spaces, hspaces, hr⟩
  · exact hq.sound hs
  · exact hr.sound hs hspaces
      (allReady_kernel ⟨spaces.kernelTable, true⟩ (hs.spaces hspaces).shaped.kernel_top)
      (.inl fun r hr => ⟨hr.root, hr.sealing⟩)

/-- The tables are those of a store, written to memory. -/
structure Flushed (s : TableStore) (m' : Machine) : Prop where
  frames : m'.store.frames = s.frames
  unmarked : Arena.Unmarked s.arena m'.store.arena

/-- Edits that are written to memory remap the machine. -/
theorem ends_commit_remapped {P : MapRequest → Prop} (h : m.Sound format stock) {spaces : Spaces}
    (hspaces : m.spaces = some spaces) (ready : AllReady format spaces.kernelTable P m.store)
    {s : TableStore} (e : Edits format P m.store s) (ok : Nat → Machine → Prop)
    (failed : Failure → Machine → Prop)
    (hok : ∀ count m', Remapped format P m m' → SameRoots m m' → Flushed s m' → ok count m') :
    Ends (commit format) { m with store := s } ok failed := by
  have orderly : m.store.Orderly format spaces.kernelTable stock :=
    ⟨h.ledger, (h.spaces hspaces).shaped⟩
  exact ends_commit (m := { m with store := s }) (e.orderly orderly ready)
    (e.synced orderly ready h.settled.synced) _ _ fun count a memory hunmarked hsettled =>
      hok count _ ⟨⟨s, e, rfl, hunmarked⟩, hsettled, rfl, rfl⟩
        ⟨fun _ => rfl, fun _ => rfl, rfl⟩ ⟨rfl, hunmarked⟩

/-- The end of `mapKernel`: what was done is logged, or the refusal handed on. -/
def reportKernel (address : PhysAddr) (size : Nat) (policy : CachePolicy) :
    Except MemoryError Bool → MachineSteps Unit
  | .ok changed => do
    if changed then
      let stop ← Word.add address size
      write .trace s!"mapped {hex address}..{hex stop} {policy.name}"
  | .error error => Steps.refuse error

/-- The part of `mapKernel` after the tables were edited: they are written to memory, and caches
are told. -/
def finishKernel (format : Format) (config : Config) (cpu : CpuId) (address : PhysAddr)
    (size : Nat) (policy : CachePolicy) (result : Except MemoryError Bool) : MachineSteps Unit := do
  let _ ← commit format
  match result with
  | .error .addressOutOfRange => Steps.refuse .addressOutOfRange
  | result =>
    invalidate cpu (VirtAddr.identity address) size
    match secondView config address with
    | .ok (some virt) => invalidate cpu virt size
    | _ => pure ()
    reportKernel address size policy result

theorem mapKernel_eq (address : PhysAddr) (size : Nat) (policy : CachePolicy) :
    mapKernel format config cpu address size policy = (do
      let spaces ← started
      let result ← Steps.attempt
        (onStore (mapViews format config ⟨spaces.kernelTable, true⟩ address size policy))
      finishKernel format config cpu address size policy result) := by
  rw [mapKernel, mapKernelLocked_eq]
  simp only [Locked.mapKernel, bind_assoc, pure_bind]
  rfl

theorem ends_reportKernel {address size : Nat} {policy : CachePolicy}
    {result : Except MemoryError Bool} (hword : result = .ok true → address + size < Word.bound) :
    Ends (reportKernel address size policy result) m (fun _ m' => Still m m')
      (onRefusal fun e m' => Still m m' ∧ result = .error e) := by
  cases result with
  | ok changed =>
    simp only [reportKernel]
    split
    · rename_i hchanged
      rw [ends_bind, ends_add]
      refine ⟨fun _ => ends_write _ _ (fun _ m' => Still m m') _ fun _ h => h, fun hover => ?_⟩
      exact absurd (hword (by rw [hchanged])) (Nat.not_lt.mpr hover)
    · exact Still.refl m
  | error error => exact ⟨Still.refl m, rfl⟩

theorem ends_finishKernel {address size : Nat} {policy : CachePolicy} {spaces : Spaces}
    {P : MapRequest → Prop} (h : m.Sound format stock) (hspaces : m.spaces = some spaces)
    (ready : AllReady format spaces.kernelTable P m.store) {s : TableStore}
    (he : Edits format P m.store s) (result : Except MemoryError Bool)
    (hchecked : result ≠ .error .addressOutOfRange → ViewsChecked format config address size)
    (hchanged : result = .ok true → 0 < size) :
    Ends (finishKernel format config cpu address size policy result) { m with store := s }
      (fun _ m' => Remapped format P m m' ∧ SameRoots m m')
      (onRefusal fun e m' => (Remapped format P m m' ∧ SameRoots m m') ∧ result = .error e) := by
  unfold finishKernel
  rw [ends_bind]
  refine ends_commit_remapped h hspaces ready he _ _ fun count m₁ hremapped hsame _ => ?_
  have hdone : Remapped format P m m₁ ∧ SameRoots m m₁ := ⟨hremapped, hsame⟩
  -- from here on only caches and the log change
  have hafter : ∀ {m₂ m₃}, Remapped format P m m₂ ∧ SameRoots m m₂ → Still m₂ m₃ →
      Remapped format P m m₃ ∧ SameRoots m m₃ :=
    fun hboth hstill => ⟨hboth.1.after hstill.quiet, hboth.2.trans hstill.same⟩
  have hlast : ∀ {m₂ result}, (result = .ok true → address + size < Word.bound) →
      Remapped format P m m₂ ∧ SameRoots m m₂ →
      Ends (reportKernel address size policy result) m₂
        (fun _ m' => Remapped format P m m' ∧ SameRoots m m')
        (onRefusal fun e m' => (Remapped format P m m' ∧ SameRoots m m') ∧ result = .error e) :=
    fun hword h₂ => (ends_reportKernel hword).weaken (fun _ _ h' => hafter h₂ h')
      fun _ _ h' => ⟨hafter h₂ h'.1, h'.2⟩
  split
  · exact ⟨hdone, rfl⟩
  · rename_i hnot
    have hviews := hchecked fun heq => hnot heq
    have hword : result = .ok true → address + size < Word.bound := fun hok =>
      lt_bound_of_checkRange (hchanged hok) hviews.identity
    rw [ends_bind]
    refine (ends_invalidate_fitting (not_overruns_of_checkRange hviews.identity)).mono
      (fun _ m₂ h₂ => ?_) fun _ _ hf => hf.elim
    simp only
    split
    · rename_i virt hsecond
      rw [ends_bind]
      exact (ends_invalidate_fitting (not_overruns_of_checkRange (hviews.shifted hsecond))).mono
        (fun _ m₃ h₃ => hlast hword (hafter (hafter hdone h₂) h₃)) fun _ _ hf => hf.elim
    · exact hlast hword (hafter hdone h₂)

/-- The requests for the views of a range, on the sealed root of the kernel. -/
abbrev SealedViews (format : Format) (config : Config) (spaces : Spaces) (address size : Nat) :
    MapRequest → Prop :=
  ViewRequest format config ⟨spaces.kernelTable, true⟩ address size

theorem allReady_views {address size : Nat} (h : m.Sound format stock) {spaces : Spaces}
    (hspaces : m.spaces = some spaces) :
    AllReady format spaces.kernelTable (SealedViews format config spaces address size) m.store :=
  fun r hr => allReady_kernel ⟨spaces.kernelTable, true⟩ (h.spaces hspaces).shaped.kernel_top r
    hr.kernel

/-- Mapping kernel memory answers or is refused, as what caches are told of was checked.  A range
that is turned away finds the waiting tables written, and nothing else done. -/
theorem ends_mapKernel_views {address size : Nat} {policy : CachePolicy} (h : m.Sound format stock) :
    Ends (mapKernel format config cpu address size policy) m
      (fun _ m' => ∃ spaces, m.spaces = some spaces
        ∧ Remapped format (SealedViews format config spaces address size) m m' ∧ SameRoots m m')
      (onRefusal fun e m' => (e = .notInitialized ∧ m' = m) ∨ ∃ spaces, m.spaces = some spaces
        ∧ (Remapped format (SealedViews format config spaces address size) m m' ∧ SameRoots m m')
        ∧ (e.OfWalk ∨ e = .addressOutOfRange ∧ ∃ count, commit format m = .ok count m')) := by
  cases hspaces : m.spaces with
  | none =>
    rw [mapKernel_eq, ends_bind, started, ends_bind, ends_get, hspaces]
    exact .inl ⟨rfl, rfl⟩
  | some spaces =>
  have hshaped := (h.spaces hspaces).shaped
  have ready : AllReady format spaces.kernelTable (SealedViews format config spaces address size)
      m.store := allReady_views h hspaces
  rw [mapKernel_eq, ends_bind, ends_started_some hspaces, ends_bind, ends_attempt, ends_onStore]
  refine ((ends_mapViews_requests ⟨⟨h.ledger, hshaped⟩, hshaped.kernel_top⟩).and
    ends_mapViews_checked).mono (fun changed s he => ?_) fun f s he => ?_
  · obtain ⟨hedits, hviews, hchanged⟩ := he
    refine (ends_finishKernel h hspaces ready hedits (.ok changed) (fun _ => hviews) fun hok => ?_).weaken
      (fun _ _ hdone => ⟨spaces, rfl, hdone⟩) fun _ _ hdone => (nomatch hdone.2)
    injection hok with hok
    exact hchanged hok
  · obtain ⟨hrefused, hviews⟩ := he
    cases f with
    | fault fault => exact hrefused.elim
    | refused error =>
      rcases hrefused with ⟨rfl, rfl⟩ | ⟨hwalk, hedits⟩
      · -- nothing was edited, so writing to memory is all that is done
        simp only [finishKernel]
        rw [ends_bind]
        refine ((ends_commit_remapped h hspaces ready (.refl _) (fun _ m' =>
          Remapped format (SealedViews format config spaces address size) m m' ∧ SameRoots m m')
          (fun _ _ => False) fun _ _ hr hs _ => ⟨hr, hs⟩).and (ends_self _ _)).mono
          (fun count m' hdone => ?_) fun _ _ hf => hf.1.elim
        exact .inr ⟨spaces, rfl, hdone.1, .inr ⟨rfl, count, hdone.2⟩⟩
      · refine (ends_finishKernel h hspaces ready hedits (.error error) (fun hnot => ?_)
          fun hok => (nomatch hok)).weaken (fun _ _ hdone => ⟨spaces, rfl, hdone⟩) fun e _ hdone => ?_
        · refine hviews.resolve_left fun hout => hnot ?_
          injection hout with hout
          rw [hout]
        · have heq : error = e := by
            have herror := hdone.2
            injection herror
          exact .inr ⟨spaces, rfl, hdone.1, .inl (heq ▸ hwalk)⟩

theorem ends_mapKernel {address size : Nat} {policy : CachePolicy} (h : m.Sound format stock) :
    Ends (mapKernel format config cpu address size policy) m
      (fun _ m' => MappedKernel format config m m')
      (onRefusal fun _ m' => MappedKernel format config m m') := by
  have hmapped : ∀ {m'} {spaces : Spaces}, m.spaces = some spaces →
      Remapped format (SealedViews format config spaces address size) m m' ∧ SameRoots m m' →
      MappedKernel format config m m' := fun hspaces hdone =>
    ⟨.inr ⟨_, hspaces, hdone.1.mono fun _ hr => hr.kernel⟩, hdone.2⟩
  refine (ends_mapKernel_views h).weaken (fun _ m' hm' => ?_) fun e m' hm' => ?_
  · obtain ⟨spaces, hspaces, hdone⟩ := hm'
    exact hmapped hspaces hdone
  · rcases hm' with ⟨-, rfl⟩ | ⟨spaces, hspaces, hdone, -⟩
    · exact mappedKernel_refl m'
    · exact hmapped hspaces hdone

/-! ## Task spaces -/

/-- Nothing was done, but that frames may have been looked for. -/
structure Refrained (stock : Stock) (m m' : Machine) : Prop where
  calm : Calm stock m m'
  image : m'.descriptor.kernelImage = m.descriptor.kernelImage
  same : SameRoots m m'

theorem refrained_refl (h : m.Sound format stock) : Refrained stock m m :=
  ⟨(Quiet.refl m).calm h, rfl, .refl m⟩

/-- The allocator may have looked for a frame. -/
theorem refrained_of_store {s : TableStore} (harena : s.arena = m.store.arena)
    (hledger : Ledger stock s.frames s.arena) : Refrained stock m { m with store := s } :=
  ⟨⟨harena, hledger, rfl, rfl⟩, rfl, ⟨fun _ => rfl, fun _ => rfl, rfl⟩⟩

theorem ends_createSpace (h : m.Sound format stock) :
    Ends (createSpace format cpu) m
      (fun space m' => Created format stock space m m' ∧ SameRoots m m')
      (onRefusal fun _ m' => Refrained stock m m'
        ∧ (m.spaces = none ∨ ∃ error, m.store.frames.allocatePage.1 = .error error)) := by
  cases hspaces : m.spaces with
  | none =>
    rw [createSpace_eq, Locked.createSpace, ends_bind]
    refine ends_started _ _ (fun spaces hs => ?_) fun _ => ⟨refrained_refl h, .inl rfl⟩
    rw [hspaces] at hs
    cases hs
  | some spaces =>
  rw [createSpace_eq, Locked.createSpace, ends_bind, ends_started_some hspaces]
  have hshaped := (h.spaces hspaces).shaped
  have names := h.ledger.books.names
  rw [ends_bind, ends_onStore_refusal]
  refine TableStore.ends_addTable format.topLevel_lt_levels (fun frame s₁ hframes harena => ?_)
    fun error s₁ hframes harena => ?_
  · have hmaking : Making format spaces.kernelTable stock m.store.arena m.memory
        (m.store.arena.add (.blank frame format.topLevel false format.entries)).1
        format.userSplit s₁ := by
      refine ⟨?_, ?_, ?_⟩
      · rw [harena]; exact h.ledger.add hframes
      · rw [harena]; exact h.settled.synced.add names _
      · rw [harena]; exact Arena.rooted_add names frame false
    generalize (m.store.arena.add (.blank frame format.topLevel false format.entries)).1 = root
      at hmaking ⊢
    rw [ends_bind, ends_onStore]
    have hsplit := format.userSplit_le_entries
    refine (ends_shareSlots hshaped (by omega) (Nat.le_refl _) hmaking).mono
      (fun _ s₂ h₂ => ?_) fun _ _ hf => hf.elim
    rw [ends_bind]
    refine ends_commit (m := { m with store := s₂ }) ⟨h₂.ledger, h₂.rooted.shaped hshaped⟩
      h₂.synced _ _ fun count a memory hunmarked hsettled => ?_
    -- the new root has all shared slots, also after it was written to memory
    have hrooted := h₂.rooted.alike hunmarked.alike
    have hlevel : a.level? root = some format.topLevel := by rw [hrooted.level, if_pos rfl]
    obtain ⟨t, ht, hframe, -⟩ := Arena.exists_views hlevel
    rw [ends_bind, ends_onStore, TableStore.ends_table (by exact ht), ends_bind, ends_setSpaces,
      ends_bind]
    refine ends_write _ _ _ _ fun m' hstill => ?_
    rw [ends_pure]
    refine ⟨⟨⟨spaces, root, hspaces, ?_, ?_, ?_⟩, ?_, ?_, ?_⟩, ?_⟩
    · rw [hstill.quiet.store.arena]; exact hrooted
    · rw [hstill.quiet.store.arena]; exact hframe
    · rw [hstill.quiet.census]; rfl
    · rw [hstill.quiet.store.frames, hstill.quiet.store.arena]
      exact hunmarked.ledger h₂.ledger hsettled.clean
    · rw [hstill.quiet.store.arena, hstill.quiet.memory]; exact hsettled
    · rw [hstill.quiet.image]
    · refine SameRoots.trans ?_ hstill.same
      exact sameRoots_of_spaces rfl hspaces rfl rfl rfl
  · refine ⟨refrained_of_store harena ?_, .inr ⟨error, by rw [hframes]⟩⟩
    rw [harena]
    exact h.ledger.exhausted hframes

/-- A root that no processor has noted is used by none. -/
theorem not_uses (hplaced : m.Placed) {spaces : Spaces} (hspaces : m.spaces = some spaces)
    {root : PhysAddr} (hnull : root ≠ 0) (hin : spaces.inUse root = false) : ¬ m.Uses root := by
  have hnot : ∀ {cpu roots}, m.roots? cpu = some roots →
      ¬ (roots.loaded = root ∨ roots.saved = some root) := by
    intro cpu roots hr huse
    rw [roots?_of_some hspaces] at hr
    rw [Spaces.inUse_iff.mpr ⟨cpu, roots, hr, huse⟩] at hin
    cases hin
  -- a root that is loaded is noted, or the root after power-on
  rintro (⟨cpu, hroot⟩ | ⟨cpu, roots, hr, huse⟩)
  · cases hr : m.roots? cpu with
    | none => rw [hplaced.unknown hr] at hroot; exact hnull hroot.symm
    | some roots => exact hnot hr (.inl ((hplaced.loaded hr).trans hroot))
  · exact hnot hr huse

/-- A task space is destroyed, unless a processor uses it. -/
theorem ends_deleteSpace {space : AddressSpace} (h : m.Sound format stock) (hplaced : m.Placed) :
    Ends (deleteSpace format cpu space) m
      (fun _ m' => Deleted format stock space m m' ∧ SameRoots m m' ∧ ¬ m.Uses space.root)
      (onRefusal fun _ m' => m' = m ∧ (m.HasTask space → m.Uses space.root)) := by
  cases hspaces : m.spaces with
  | none =>
    have hnot : ¬ m.HasTask space := by
      rintro ⟨spaces, hsome, -⟩
      rw [hspaces] at hsome
      cases hsome
    rw [deleteSpace_eq, Locked.deleteSpace, ends_bind]
    refine ends_started _ _ (fun spaces hsome => ?_) fun _ => ⟨rfl, fun htask => absurd htask hnot⟩
    rw [hspaces] at hsome
    cases hsome
  | some spaces =>
  have hsound := h.spaces hspaces
  rw [deleteSpace_eq, Locked.deleteSpace, ends_bind, ends_started_some hspaces, ends_bind, ends_get, ends_bind,
    ends_ofResult]
  refine ⟨fun root hroot => ?_, fun e herror => ⟨rfl, fun htask => ?_⟩⟩
  case refine_2 =>
    -- the root of a task is found
    obtain ⟨root, hroot⟩ :=
      hsound.taskTable_of_task h.ledger.books ((hasTask_of_some hspaces).mp htask)
    rw [hroot] at herror
    cases herror
  obtain ⟨hmem, hne, hl, hf⟩ := hsound.taskTable_eq_ok h.ledger.books hroot
  rw [ends_bind, ends_activeRoot]
  split
  · rename_i hactive
    refine ⟨rfl, fun _ => ?_⟩
    rcases Bool.or_eq_true_iff.mp hactive with hroot | hin
    · exact .inl ⟨cpu, of_decide_eq_true hroot⟩
    · obtain ⟨other, roots, hnoted, huse⟩ := Spaces.inUse_iff.mp hin
      exact .inr ⟨other, roots, by rw [roots?_of_some hspaces]; exact hnoted, huse⟩
  · rename_i hactive
    simp only [Bool.or_eq_true, decide_eq_true_eq, not_or, Bool.not_eq_true] at hactive
    have hnull : space.root ≠ 0 := Nat.ne_of_gt (h.ledger.table hf).2.1
    -- a table is never in frame 0, so the root is not the one after power-on
    have hnot := not_uses hplaced hspaces hnull hactive.2
    rw [ends_bind, ends_onStore]
    refine (Walk.ends_releasePrivate ⟨h.ledger, hsound.shaped⟩ hl hne.symm).mono
      (fun released s₁ h₁ => ?_) fun _ _ hfalse => hfalse.elim
    rw [ends_bind, ends_setSpaces]
    refine ends_write _ _ _ _ fun m' hstill => ?_
    refine ⟨⟨⟨spaces, root, hspaces, hmem, hne, hl, hf, ?_, ?_⟩, ?_, ?_, ?_⟩, ?_, hnot⟩
    · rw [hstill.quiet.store.arena]; exact h₁.2
    · rw [hstill.quiet.census]; rfl
    · rw [hstill.quiet.store.frames, hstill.quiet.store.arena]; exact h₁.1.ledger
    · rw [hstill.quiet.memory]
    · rw [hstill.quiet.image]
    · refine SameRoots.trans ?_ hstill.same
      exact sameRoots_of_spaces rfl hspaces rfl rfl rfl

/-! ## Roots of processors -/

/-- The root a processor will go back to. -/
abbrev savedRoot (m : Machine) (cpu : CpuId) : Option PhysAddr :=
  (m.roots? cpu).bind CpuRoots.saved

theorem savedRoot_of_moved {roots : CpuRoots} {m' : Machine} (h : Moved cpu roots m m') :
    savedRoot m' cpu = roots.saved := by
  rw [savedRoot, h.noted, if_pos rfl]
  rfl

theorem ends_enterKernel :
    Ends (enterKernel cpu) m
      (fun _ m' => Quiet m m' ∧ ∃ spaces, m.spaces = some spaces
        ∧ Switched cpu ⟨spaces.kernel.root, some (m.cpu cpu).root⟩ m m')
      (onRefusal fun _ m' => m' = m) := by
  rw [enterKernel_eq, Locked.enterKernel, ends_bind]
  refine ends_started _ _ (fun spaces hspaces => ?_) fun _ => rfl
  split
  · exact rfl
  · rw [ends_bind, ends_activeRoot, ends_bind, ends_setSpaces]
    have hset := switched_setRoots hspaces (show (m.cpu cpu).root
      = (⟨(m.cpu cpu).root, some (m.cpu cpu).root⟩ : CpuRoots).loaded from rfl)
    split
    · rename_i hne
      rw [ends_load]
      have hload := switched_load (m := { m with
        spaces := some (spaces.setRoots cpu ⟨(m.cpu cpu).root, some (m.cpu cpu).root⟩) }) rfl hne
      -- the root to go back to is noted before the kernel root is loaded
      have hsaved : (spaces.setRoots cpu ⟨(m.cpu cpu).root, some (m.cpu cpu).root⟩).savedRoot cpu
          = some (m.cpu cpu).root := by
        rw [Spaces.savedRoot, getElem?_setRoots, if_pos rfl]
        rfl
      rw [hsaved] at hload
      refine ⟨⟨⟨rfl, rfl⟩, rfl, ?_, rfl⟩, spaces, hspaces, hset.trans rfl hload⟩
      rw [census_of_some hspaces]
      rfl
    · -- nothing is loaded where the kernel root is in use already; it is noted all the same
      rename_i hsame
      have hroot : (m.cpu cpu).root = spaces.kernel.root := not_not.mp hsame
      refine ⟨⟨⟨rfl, rfl⟩, rfl, ?_, rfl⟩, spaces, hspaces, ?_⟩
      · rw [census_of_some hspaces]
        rfl
      · rw [← hroot]
        exact hset

/-- A processor in the kernel space is not let in again. -/
theorem enterKernel_nested {root : PhysAddr} (h : savedRoot m cpu = some root) :
    enterKernel cpu m = .error (.refused .nestedKernelEntry) m := by
  cases hspaces : m.spaces with
  | none =>
    rw [savedRoot, roots?, hspaces] at h
    cases h
  | some spaces =>
    rw [savedRoot, roots?_of_some hspaces] at h
    have hin : spaces.inKernel cpu = true := by
      rw [Spaces.inKernel, Spaces.savedRoot, h]
      rfl
    rw [enterKernel_eq, Locked.enterKernel, bind_of_ok (started_of_some hspaces), if_pos hin]
    rfl

/-- Any other is let in, once the manager is started. -/
theorem exists_enterKernel {spaces : Spaces} (hspaces : m.spaces = some spaces)
    (h : savedRoot m cpu = none) : ∃ m', enterKernel cpu m = .ok () m' := by
  rw [savedRoot, roots?_of_some hspaces] at h
  have hout : ¬ spaces.inKernel cpu = true := by
    rw [Spaces.inKernel, Spaces.savedRoot, h]
    exact Bool.false_ne_true
  rw [enterKernel_eq, Locked.enterKernel, bind_of_ok (started_of_some hspaces), if_neg hout]
  show ∃ m', (do
    setSpaces (spaces.setRoots cpu ⟨(m.cpu cpu).root, some (m.cpu cpu).root⟩)
    if (m.cpu cpu).root ≠ spaces.kernel.root then
      load cpu (spaces.setRoots cpu ⟨(m.cpu cpu).root, some (m.cpu cpu).root⟩) spaces.kernel.root
      : MachineSteps Unit) m = .ok () m'
  split
  · exact ⟨_, rfl⟩
  · exact ⟨_, rfl⟩

theorem ends_leaveKernel (hplaced : m.Placed) :
    Ends (leaveKernel cpu) m
      (fun _ m' => Quiet m m' ∧ ∃ saved, savedRoot m cpu = some saved
        ∧ Switched cpu ⟨saved, none⟩ m m')
      (onRefusal fun _ m' => m' = m ∧ savedRoot m cpu = none) := by
  rw [leaveKernel_eq, Locked.leaveKernel, ends_bind]
  cases hspaces : m.spaces with
  | none =>
    refine ends_started _ _ (fun spaces hs => ?_) fun _ => ⟨rfl, ?_⟩
    · rw [hspaces] at hs
      cases hs
    · rw [savedRoot, roots?, hspaces]
      rfl
  | some spaces =>
    rw [ends_started_some hspaces]
    split
    · rename_i loaded saved hnoted
      have hroots : m.roots? cpu = some ⟨loaded, some saved⟩ := by
        rw [roots?_of_some hspaces, hnoted]
      have hloaded : loaded = (m.cpu cpu).root := hplaced.loaded hroots
      rw [ends_bind, ends_setSpaces]
      have hset := switched_setRoots hspaces (show (m.cpu cpu).root
        = (⟨loaded, none⟩ : CpuRoots).loaded from hloaded.symm)
      have hsaved : savedRoot m cpu = some saved := by
        rw [savedRoot, hroots]
        rfl
      rw [ends_bind, ends_activeRoot]
      split
      · rename_i hne
        rw [ends_load]
        have hload := switched_load (m := { m with
          spaces := some (spaces.setRoots cpu ⟨loaded, none⟩) }) rfl hne
        -- what was saved is forgotten before it is loaded
        have hnone : (spaces.setRoots cpu ⟨loaded, none⟩).savedRoot cpu = none := by
          rw [Spaces.savedRoot, getElem?_setRoots, if_pos rfl]
          rfl
        rw [hnone] at hload
        refine ⟨⟨⟨rfl, rfl⟩, rfl, ?_, rfl⟩, saved, hsaved, hset.trans hloaded.symm hload⟩
        rw [census_of_some hspaces]
        rfl
      · rename_i hsame
        have hroot : (m.cpu cpu).root = saved := not_not.mp hsame
        refine ⟨⟨⟨rfl, rfl⟩, rfl, ?_, rfl⟩, saved, hsaved, ?_⟩
        · rw [census_of_some hspaces]
          rfl
        · rw [hloaded, hroot] at hset
          rw [hloaded, hroot]
          exact hset
    · rename_i hnot
      refine ⟨rfl, ?_⟩
      rw [savedRoot, roots?_of_some hspaces]
      cases hnoted : spaces.cpuRoots[cpu]? with
      | none => rfl
      | some roots =>
        obtain ⟨loaded, _ | saved⟩ := roots
        · rfl
        · exact absurd hnoted (hnot loaded saved)

theorem ends_switchTo {space : AddressSpace} (h : m.Sound format stock) :
    Ends (switchTo cpu space) m
      (fun _ m' => Quiet m m' ∧ (SameRoots m m'
        ∨ m.Alive space ∧ Switched cpu ⟨space.root, none⟩ m m'))
      (onRefusal fun _ m' => m' = m) := by
  rw [switchTo_eq, Locked.switchTo, ends_bind]
  refine ends_started _ _ (fun spaces hspaces => ?_) fun _ => rfl
  split
  · exact rfl
  · rename_i hkernel
    rw [ends_bind, ends_get]
    cases htable : spaces.anyTable m.store.arena space with
    | none => exact rfl
    | some root =>
      simp only
      rw [ends_bind, ends_activeRoot]
      split
      · rename_i hne
        rw [ends_load]
        have hload := switched_load hspaces hne
        -- a processor in the kernel space was turned away, so there is nothing to go back to
        have hnone : spaces.savedRoot cpu = none := by simpa [Spaces.inKernel] using hkernel
        rw [hnone] at hload
        have halive : m.Alive space :=
          ⟨spaces, hspaces, ((h.spaces hspaces).anyTable_eq_some h.ledger.books htable).1⟩
        refine ⟨⟨⟨rfl, rfl⟩, rfl, ?_, rfl⟩, .inr ⟨halive, hload⟩⟩
        rw [census_of_some hspaces]
        rfl
      · exact ⟨.refl m, .inl (.refl m)⟩

/-! ## User memory -/

/-- What mapping user memory into a task space does to the tables. -/
def MappedUser (format : Format) (space : AddressSpace) (virt phys : Nat) (m m' : Machine) : Prop :=
  Quiet m m' ∨ ∃ table kernel tasks root, m.census = some (table, kernel, tasks) ∧ space ∈ tasks
    ∧ root ≠ table ∧ m.store.arena.level? root = some format.topLevel
    ∧ m.store.arena.frame? root = some space.root
    ∧ Remapped format (UserRequest format root virt phys) m m'

theorem MappedUser.around {space : AddressSpace} {virt phys : Nat} {m₁ m₂ m₃ : Machine}
    (h : MappedUser format space virt phys m₁ m₂) (before : Quiet m m₁) (after : Quiet m₂ m₃) :
    MappedUser format space virt phys m m₃ := by
  rcases h with hq | ⟨table, kernel, tasks, root, hcensus, hmem, hne, hl, hf, hr⟩
  · exact .inl ((before.trans hq).trans after)
  · rw [before.store.arena] at hl hf
    rw [before.census] at hcensus
    exact .inr ⟨table, kernel, tasks, root, hcensus, hmem, hne, hl, hf,
      (hr.before before).after after⟩

/-- The end of `mapTask`: a range is mapped, and whatever became of it is written to memory. -/
def mapAndCommit (format : Format) (request : MapRequest) : MachineSteps Unit := do
  let result ← Steps.attempt (onStore (Walk.mapRange format request))
  let _ ← commit format
  let _ ← Steps.ofResult result

/-- If it is done, the range was mapped as a whole. -/
theorem ends_mapAndCommit {spaces : Spaces} {request : MapRequest} (h : m.Sound format stock)
    (hspaces : m.spaces = some spaces) (ready : request.Ready format spaces.kernelTable m.store) :
    Ends (mapAndCommit format request) m
      (fun _ m' => (∃ s, RangeMapped format request m.store s ∧ Flushed s m')
        ∧ Remapped format (fun r => r = request) m m' ∧ SameRoots m m')
      (onRefusal fun e m' => RangeRefused format stock request m.store e
        ∧ Remapped format (fun r => r = request) m m' ∧ SameRoots m m') := by
  have orderly : m.store.Orderly format spaces.kernelTable stock :=
    ⟨h.ledger, (h.spaces hspaces).shaped⟩
  -- writing to memory comes after the edits, and before the result is handed on
  have hrest : ∀ {s : TableStore} (result : Except MemoryError MapSummary),
      (∀ summary, result = .ok summary → RangeMapped format request m.store s) →
      (∀ e, result = .error e → RangeRefused format stock request m.store e) →
      EditsOf format request m.store s →
      Ends (do
        let _ ← commit format
        let _ ← Steps.ofResult result : MachineSteps Unit) { m with store := s }
        (fun _ m' => (∃ s, RangeMapped format request m.store s ∧ Flushed s m')
          ∧ Remapped format (fun r => r = request) m m' ∧ SameRoots m m')
        (onRefusal fun e m' => RangeRefused format stock request m.store e
          ∧ Remapped format (fun r => r = request) m m' ∧ SameRoots m m') := by
    intro s result hmapped hresult he
    rw [ends_bind]
    refine ends_commit_remapped h hspaces (allReady_of_ready ready) he _ _
      fun count m' hremapped hsame hflushed => ?_
    rw [ends_bind, ends_ofResult]
    exact ⟨fun summary heq => ⟨⟨s, hmapped summary heq, hflushed⟩, hremapped, hsame⟩,
      fun e heq => ⟨hresult e heq, hremapped, hsame⟩⟩
  rw [mapAndCommit, ends_bind, ends_attempt, ends_onStore]
  refine (Walk.ends_mapRange orderly ready).mono (fun summary s he =>
    hrest (.ok summary) (fun _ _ => he) (fun _ heq => nomatch heq) he.overlaid.edits)
    fun f s he => ?_
  cases f with
  | refused error =>
    refine hrest (.error error) (fun _ heq => nomatch heq) (fun e heq => ?_) he.1
    injection heq with heq
    rw [← heq]
    exact he.2
  | fault fault => exact he.elim

/-- The request that a range of user memory becomes. -/
def userRequest (config : Config) (root : TableId) (virt phys size : Nat) : MapRequest where
  root := root
  virt := virt
  phys := phys
  size := size
  flags := PageFlags.userData
  rootSealed := false
  user := true
  largePages := config.largePages

/-- A range of user memory was mapped into a task space, as far as nothing was in the way. -/
structure MappedTask (format : Format) (config : Config) (space : AddressSpace)
    (virt phys size : Nat) (spaces : Spaces) (root : TableId) (m m' : Machine) : Prop where
  known : m.spaces = some spaces
  task : space ∈ spaces.tasks
  root_ne : root ≠ spaces.kernelTable
  level : m.store.arena.level? root = some format.topLevel
  frame : m.store.arena.frame? root = some space.root
  request : UserRequest format root virt phys (userRequest config root virt phys size)
  remapped : Remapped format (fun r => r = userRequest config root virt phys size) m m'
  same : SameRoots m m'

theorem MappedTask.mappedUser {space : AddressSpace} {virt phys size : Nat} {spaces : Spaces}
    {root : TableId} {m' : Machine}
    (h : MappedTask format config space virt phys size spaces root m m') :
    MappedUser format space virt phys m m' :=
  .inr ⟨_, _, _, root, census_of_some h.known, h.task, h.root_ne, h.level, h.frame,
    h.remapped.mono fun _ hr => by rw [hr]; exact h.request⟩

/-- An empty range is done, and one that is turned away is, before anything is changed.  Any other
that is done was mapped as a whole. -/
theorem ends_mapTask_mapped {space : AddressSpace} {virt phys size : Nat} (h : m.Sound format stock) :
    Ends (mapTask format config cpu space virt phys size) m
      (fun _ m' => (size = 0 ∧ m' = m) ∨ ∃ spaces root,
        MappedTask format config space virt phys size spaces root m m' ∧ ∃ s,
          RangeMapped format (userRequest config root virt phys size) m.store s ∧ Flushed s m')
      (onRefusal fun e m' => m' = m ∨ e.OfWalk
        ∧ ∃ spaces root, MappedTask format config space virt phys size spaces root m m') := by
  rw [mapTask_eq, Locked.mapTask, ends_bind]
  refine ends_started _ _ (fun spaces hspaces => ?_) fun _ => .inl rfl
  rw [ends_bind, ends_get, ends_bind, ends_ofResult]
  refine ⟨fun root hroot => ?_, fun e _ => .inl rfl⟩
  obtain ⟨hmem, hne, hl, hf⟩ := (h.spaces hspaces).taskTable_eq_ok h.ledger.books hroot
  split
  · rename_i hsize
    exact .inl ⟨hsize, rfl⟩
  · rename_i hsize
    split
    · exact .inl rfl
    · rename_i last hlast
      split
      · exact .inl rfl
      · rename_i huser
        split
        · exact .inl rfl
        · rename_i lastPhys hlastPhys
          split
          · rename_i hphys
            obtain ⟨-, rfl⟩ := Word.add?_eq_some_iff.mp hlast
            obtain ⟨-, rfl⟩ := Word.add?_eq_some_iff.mp hlastPhys
            have hframes : phys + (size - 1) < format.physicalEnd := of_decide_eq_true hphys
            have hrequest : UserRequest format root virt phys (userRequest config root virt phys size) :=
              ⟨rfl, rfl, rfl, Nat.pos_of_ne_zero hsize, Nat.lt_of_not_le huser, hframes, rfl, rfl⟩
            have hstarted : stock.total ≠ 0 := h.ledger.total_ne_zero hf
            exact (ends_mapAndCommit h hspaces ⟨hrequest.fits, hl⟩).weaken
              (fun _ _ hdone => .inr ⟨spaces, root,
                ⟨hspaces, hmem, hne, hl, hf, hrequest, hdone.2.1, hdone.2.2⟩, hdone.1⟩)
              fun _ _ hdone => .inr ⟨hdone.1.ofWalk hrequest.bounded hstarted,
                spaces, root, hspaces, hmem, hne, hl, hf, hrequest, hdone.2.1, hdone.2.2⟩
          · exact .inl rfl

theorem ends_mapTask_request {space : AddressSpace} {virt phys size : Nat} (h : m.Sound format stock) :
    Ends (mapTask format config cpu space virt phys size) m
      (fun _ m' => m' = m ∨ ∃ spaces root, MappedTask format config space virt phys size spaces root m m')
      (onRefusal fun e m' => m' = m ∨ e.OfWalk
        ∧ ∃ spaces root, MappedTask format config space virt phys size spaces root m m') :=
  (ends_mapTask_mapped h).weaken (fun _ _ hm' => hm'.imp And.right
    fun ⟨spaces, root, hdone, _⟩ => ⟨spaces, root, hdone⟩) fun _ _ hm' => hm'

theorem ends_mapTask {space : AddressSpace} {virt phys size : Nat} (h : m.Sound format stock) :
    Ends (mapTask format config cpu space virt phys size) m
      (fun _ m' => MappedUser format space virt phys m m' ∧ SameRoots m m')
      (onRefusal fun _ m' => MappedUser format space virt phys m m' ∧ SameRoots m m') := by
  have hnothing : ∀ {m'}, m' = m → MappedUser format space virt phys m m' ∧ SameRoots m m' := by
    rintro _ rfl
    exact ⟨.inl (.refl _), .refl _⟩
  have hmapped : ∀ {m'}, (∃ spaces root,
      MappedTask format config space virt phys size spaces root m m') →
      MappedUser format space virt phys m m' ∧ SameRoots m m' :=
    fun ⟨_, _, hdone⟩ => ⟨hdone.mappedUser, hdone.same⟩
  exact (ends_mapTask_request h).weaken (fun _ _ hm' => hm'.elim hnothing hmapped)
    fun _ _ hm' => hm'.elim hnothing fun hdone => hmapped hdone.2

theorem MappedUser.sound {space : AddressSpace} {virt phys : Nat} {m' : Machine}
    (h : MappedUser format space virt phys m m') (hs : m.Sound format stock) :
    m'.Sound format stock := by
  rcases h with hq | ⟨table, kernel, tasks, root, hcensus, -, hne, hl, -, hr⟩
  · exact hq.sound hs
  · obtain ⟨spaces, hspaces, heq⟩ := exists_of_census hcensus
    simp only [Spaces.census, Prod.mk.injEq] at heq
    exact hr.sound hs hspaces (allReady_user hl)
      (.inr ⟨root, by rw [heq.1]; exact hne, fun r hr => hr.root⟩)

theorem MappedUser.census {space : AddressSpace} {virt phys : Nat} {m' : Machine}
    (h : MappedUser format space virt phys m m') : m'.census = m.census := by
  rcases h with hq | ⟨_, _, _, _, -, -, -, -, -, hr⟩
  · exact hq.census
  · exact hr.census

/-- Processors keep their places while the spaces stay. -/
theorem placed_of_census {m' : Machine} (h : m.Placed) (hcensus : m'.census = m.census)
    (hroots : SameRoots m m') : m'.Placed :=
  h.keep hroots fun _ halive => (alive_of_census hcensus).mpr halive

/-- Entering the kernel space is a place for the processor. -/
theorem placed_enter {m' : Machine} (h : m.Placed) (hq : Quiet m m') {spaces : Spaces}
    (hspaces : m.spaces = some spaces)
    (hswitched : Switched cpu ⟨spaces.kernel.root, some (m.cpu cpu).root⟩ m m') : m'.Placed := by
  have halive : ∀ {space}, m.Alive space → m'.Alive space := (alive_of_census hq.census).mpr
  refine h.move hswitched.toMoved halive (.inr (halive ⟨spaces, hspaces, .inl rfl⟩))
    fun {root} hs => ?_
  injection hs with hs
  rw [← hs]
  exact (h.legit cpu).imp_right halive

/-- So is going back. -/
theorem placed_leave {m' : Machine} (h : m.Placed) (hq : Quiet m m') {saved : PhysAddr}
    (hsaved : savedRoot m cpu = some saved) (hswitched : Switched cpu ⟨saved, none⟩ m m') :
    m'.Placed := by
  have halive : ∀ {space}, m.Alive space → m'.Alive space := (alive_of_census hq.census).mpr
  obtain ⟨roots, hroots, hs⟩ := Option.bind_eq_some_iff.mp hsaved
  exact h.move hswitched.toMoved halive ((h.saved hroots hs).imp_right halive)
    fun hs => by cases hs

/-- So is another space. -/
theorem placed_switch {m' : Machine} (h : m.Placed) (hq : Quiet m m') {space : AddressSpace}
    (hspace : m.Alive space) (hswitched : Switched cpu ⟨space.root, none⟩ m m') : m'.Placed := by
  have halive : ∀ {space}, m.Alive space → m'.Alive space := (alive_of_census hq.census).mpr
  exact h.move hswitched.toMoved halive (.inr (halive hspace)) fun hs => by cases hs

/-- What is noted of the other processors is as it was. -/
def OthersKept (cpu : CpuId) (m m' : Machine) : Prop :=
  ∀ other, other ≠ cpu → m'.roots? other = m.roots? other

theorem OthersKept.trans {m' m'' : Machine} (h : OthersKept cpu m m') (h' : OthersKept cpu m' m'') :
    OthersKept cpu m m'' := fun other hne => (h' other hne).trans (h other hne)

theorem othersKept_same {m' : Machine} (h : SameRoots m m') : OthersKept cpu m m' :=
  fun other _ => h.noted other

theorem othersKept_moved {roots : CpuRoots} {m' : Machine} (h : Moved cpu roots m m') :
    OthersKept cpu m m' := fun other hne => by rw [h.noted, if_neg hne]

/-- A processor that got past `enterKernel` gets past `leaveKernel`. -/
theorem ends_leaveKernel_of_saved (hplaced : m.Placed) {saved : PhysAddr}
    (hsaved : savedRoot m cpu = some saved) :
    Ends (leaveKernel cpu) m (fun _ m' => Quiet m m' ∧ Switched cpu ⟨saved, none⟩ m m')
      (fun _ _ => False) := by
  refine (ends_leaveKernel hplaced).mono (fun _ m' h' => ?_) fun f m' h' => ?_
  · obtain ⟨hq, root, hroot, hswitched⟩ := h'
    rw [hsaved] at hroot
    injection hroot with hroot
    rw [← hroot] at hswitched
    exact ⟨hq, hswitched⟩
  · cases f with
    | refused error =>
      rw [h'.2] at hsaved
      cases hsaved
    | fault fault => exact h'

/-- A processor that mapped in the kernel space can come back. -/
theorem back_of_mapped {space : AddressSpace} {virt phys : Nat} {m₁ m₂ : Machine} {spaces : Spaces}
    (hplaced : m.Placed) (hq : Quiet m m₁) (hspaces : m.spaces = some spaces)
    (hthere : Switched cpu ⟨spaces.kernel.root, some (m.cpu cpu).root⟩ m m₁)
    (htables : MappedUser format space virt phys m₁ m₂) (hsame : SameRoots m₁ m₂) :
    m₂.Placed ∧ savedRoot m₂ cpu = some (m.cpu cpu).root :=
  ⟨placed_of_census (placed_enter hplaced hq hspaces hthere) htables.census hsame,
    savedRoot_of_moved (hthere.keep hsame).toMoved⟩

/-- The processor is on the root of the space, is let into the kernel space, and gets another root
there. -/
def PassesKernel (cpu : CpuId) (space : AddressSpace) (m : Machine) : Prop :=
  space.root = (m.cpu cpu).root
    ∧ ∃ m₁, enterKernel cpu m = .ok () m₁ ∧ (m₁.cpu cpu).root ≠ (m.cpu cpu).root

/-- What mapping user memory does when it is not interrupted. -/
structure MappedForUser (format : Format) (cpu : CpuId) (space : AddressSpace) (virt phys : Nat)
    (m m' : Machine) : Prop where
  tables : MappedUser format space virt phys m m'
  placed : m'.Placed
  others : OthersKept cpu m m'
  root : (m'.cpu cpu).root = (m.cpu cpu).root
  passed : PassesKernel cpu space m → m'.rootFeed = (m.cpu cpu).root
  stayed : ¬ PassesKernel cpu space m → m'.rootFeed = m.rootFeed

/-- The end of `mapUser`: back from the kernel space, caches are told, and the result of
mapping is handed on. -/
def finishUser (cpu : CpuId) (virt : VirtAddr) (size : Nat) (result : Except MemoryError Unit) :
    MachineSteps Unit := do
  leaveKernel cpu
  match result with
  | .error .notUserAddress => Steps.refuse .notUserAddress
  | .error .addressOutOfRange => Steps.refuse .addressOutOfRange
  | result =>
    invalidate cpu virt size
    Steps.ofResult result

/-- Coming back hands on what mapping was refused for, and is refused for nothing else. -/
theorem ends_finishUser_result {virt : VirtAddr} {size : Nat} {result : Except MemoryError Unit}
    (hplaced : m.Placed) {saved : PhysAddr} (hsaved : savedRoot m cpu = some saved) :
    Ends (finishUser cpu virt size result) m
      (fun _ m' => Quiet m m' ∧ Switched cpu ⟨saved, none⟩ m m')
      (onOverflow fun e m' => (Quiet m m' ∧ Switched cpu ⟨saved, none⟩ m m')
        ∧ result = .error e) := by
  unfold finishUser
  rw [ends_bind]
  refine (ends_leaveKernel_of_saved hplaced hsaved).mono (fun _ m₁ h₁ => ?_)
    fun _ _ hf => hf.elim
  obtain ⟨hq, hswitched⟩ := h₁
  have hdone : ∀ {m'}, Still m₁ m' → Quiet m m' ∧ Switched cpu ⟨saved, none⟩ m m' := fun hs =>
    ⟨hq.trans hs.quiet, hswitched.keep hs.same⟩
  split
  · exact ⟨hdone (.refl m₁), rfl⟩
  · exact ⟨hdone (.refl m₁), rfl⟩
  · rw [ends_bind]
    refine ends_invalidate.weaken_overflow (fun _ m₂ h₂ => ?_) fun _ _ hf => hf.elim
    rw [ends_ofResult]
    exact ⟨fun _ _ => hdone h₂, fun _ heq => ⟨hdone h₂, heq⟩⟩

/-- What mapping was refused for is handed on, unless coming back fails. -/
theorem ends_finishUser_refused {virt size : Nat} {error : MemoryError} :
    Ends (finishUser cpu virt size (.error error)) m (fun _ _ => False) (fun _ _ => True) := by
  unfold finishUser
  rw [ends_bind]
  refine ends_of_forall (fun _ m₁ => ?_) fun _ _ => trivial
  split
  · trivial
  · trivial
  · rw [ends_bind]
    refine ends_of_forall (fun _ m₂ => ?_) fun _ _ => trivial
    rw [ends_ofResult]
    exact ⟨fun _ heq => (nomatch heq), fun _ _ => trivial⟩

/-- Mapping user memory is done if all its sections are. -/
theorem mapUser_eq_ok_iff {space : AddressSpace} {virt phys size : Nat} {m' : Machine} :
    mapUser format config cpu space virt phys size m = .ok () m'
      ↔ space.root = (m.cpu cpu).root ∧ ∃ m₁ m₂, enterKernel cpu m = .ok () m₁
        ∧ mapTask format config cpu space virt phys size m₁ = .ok () m₂
        ∧ finishUser cpu virt size (.ok ()) m₂ = .ok () m' := by
  have hactive : activeRoot cpu m = .ok (m.cpu cpu).root m := rfl
  rw [mapUser, bind_of_ok hactive]
  constructor
  · intro e
    split at e
    · cases e
    · rename_i hroot
      obtain ⟨_, m₁, henter, e⟩ := bind_eq_ok_iff.mp e
      obtain ⟨result, m₂, hresult, e⟩ := bind_eq_ok_iff.mp e
      have hfinish : finishUser cpu virt size result m₂ = .ok () m' := e
      refine ⟨not_not.mp hroot, m₁, m₂, henter, ?_⟩
      cases result with
      | ok => exact ⟨eq_ok_of_attempt hresult, hfinish⟩
      | error error => exact (ends_finishUser_refused.of_ok hfinish).elim
  · rintro ⟨hroot, m₁, m₂, henter, hmap, hfinish⟩
    have hresult : attempt (mapTask format config cpu space virt phys size) m₁ = .ok (.ok ()) m₂ := by
      rw [attempt, hmap]
    rw [if_neg (not_not.mpr hroot), bind_of_ok henter, bind_of_ok hresult]
    exact hfinish

theorem ends_finishUser {virt : VirtAddr} {size : Nat} {result : Except MemoryError Unit}
    (hplaced : m.Placed) {saved : PhysAddr} (hsaved : savedRoot m cpu = some saved) :
    Ends (finishUser cpu virt size result) m
      (fun _ m' => Quiet m m' ∧ Switched cpu ⟨saved, none⟩ m m')
      (onOverflow fun _ m' => Quiet m m' ∧ Switched cpu ⟨saved, none⟩ m m') :=
  (ends_finishUser_result hplaced hsaved).weaken_overflow (fun _ _ h => h) fun _ _ h => h.1

/-- Going to the kernel space, working there, and going back. -/
theorem mappedForUser_of_back {space : AddressSpace} {virt phys : Nat} {m₁ m₂ m' : Machine}
    {kernel : PhysAddr} (hactive : space.root = (m.cpu cpu).root)
    (henter : enterKernel cpu m = .ok () m₁) (hq₁ : Quiet m m₁)
    (hthere : Switched cpu ⟨kernel, some (m.cpu cpu).root⟩ m m₁)
    (htables : MappedUser format space virt phys m₁ m₂) (hsame : SameRoots m₁ m₂)
    (hplaced₂ : m₂.Placed) (hsaved₂ : savedRoot m₂ cpu = some (m.cpu cpu).root)
    (hq₂ : Quiet m₂ m') (hback : Switched cpu ⟨(m.cpu cpu).root, none⟩ m₂ m') :
    MappedForUser format cpu space virt phys m m' := by
  have hpasses : PassesKernel cpu space m ↔ kernel ≠ (m.cpu cpu).root := by
    constructor
    · rintro ⟨-, m₃, e, hne⟩
      rw [henter] at e
      cases e
      rw [hthere.root] at hne
      exact hne
    · exact fun hne => ⟨hactive, m₁, henter, by rw [hthere.root]; exact hne⟩
  have hroot₂ : (m₂.cpu cpu).root = kernel := (hsame.root cpu).trans hthere.root
  have hfeed₂ := hsame.feed.trans hthere.feed
  have hfeed := hback.feed
  rw [hroot₂] at hfeed
  refine ⟨htables.around hq₁ hq₂, placed_leave hplaced₂ hq₂ hsaved₂ hback,
    ((othersKept_moved hthere.toMoved).trans (othersKept_same hsame)).trans
      (othersKept_moved hback.toMoved), hback.root, fun hpass => ?_, fun hstay => ?_⟩
  · rw [hfeed, if_neg (Ne.symm (hpasses.mp hpass))]
  · -- on the kernel root nothing is loaded, on either way
    have heq : kernel = (m.cpu cpu).root := not_not.mp fun hne => hstay (hpasses.mpr hne)
    rw [hfeed, if_pos heq.symm, hfeed₂, if_pos heq]

theorem ends_mapUser {space : AddressSpace} {virt phys size : Nat} (h : m.Sound format stock)
    (hplaced : m.Placed) :
    Ends (mapUser format config cpu space virt phys size) m
      (fun _ m' => MappedForUser format cpu space virt phys m m')
      (onOverflow fun _ m' => MappedForUser format cpu space virt phys m m') := by
  have hnothing : ¬ PassesKernel cpu space m → MappedForUser format cpu space virt phys m m :=
    fun hnot => ⟨.inl (.refl m), hplaced, fun _ _ => rfl, rfl, fun hpass => absurd hpass hnot,
      fun _ => rfl⟩
  rw [mapUser, ends_bind, ends_activeRoot]
  split
  · rename_i hother
    exact hnothing fun hpass => hother hpass.1
  · rename_i hactive
    rw [ends_bind]
    cases henter : enterKernel cpu m with
    | error f m₁ =>
      have hnot : ¬ PassesKernel cpu space m := by
        rintro ⟨-, m₂, e, -⟩
        rw [henter] at e
        cases e
      unfold Ends
      rw [henter]
      cases f with
      | refused error =>
        obtain rfl := ends_enterKernel.of_error henter
        exact hnothing hnot
      | fault fault => exact (ends_enterKernel.of_error henter).elim
    | ok _ m₁ =>
      obtain ⟨hq₁, spaces, hspaces, hthere⟩ := ends_enterKernel.of_ok henter
      unfold Ends
      rw [henter]
      show Ends (do
        let result ← attempt (mapTask format config cpu space virt phys size)
        finishUser cpu virt size result) m₁ _ _
      rw [ends_bind, ends_attempt]
      -- whatever became of the mapping, the processor goes back
      have hback : ∀ {m₂ : Machine} (result : Except MemoryError Unit),
          MappedUser format space virt phys m₁ m₂ → SameRoots m₁ m₂ →
          Ends (finishUser cpu virt size result) m₂
            (fun _ m' => MappedForUser format cpu space virt phys m m')
            (onOverflow fun _ m' => MappedForUser format cpu space virt phys m m') := by
        intro m₂ result htables hsame
        obtain ⟨hplaced₂, hsaved₂⟩ := back_of_mapped hplaced hq₁ hspaces hthere htables hsame
        have hdone : ∀ {m'}, Quiet m₂ m' ∧ Switched cpu ⟨(m.cpu cpu).root, none⟩ m₂ m' →
            MappedForUser format cpu space virt phys m m' := fun hboth =>
          mappedForUser_of_back (not_not.mp hactive) henter hq₁ hthere htables hsame hplaced₂ hsaved₂
            hboth.1 hboth.2
        exact (ends_finishUser hplaced₂ hsaved₂).weaken_overflow (fun _ _ hboth => hdone hboth)
          fun _ _ hboth => hdone hboth
      refine (ends_mapTask (hq₁.sound h)).mono (fun _ m₂ h₂ => hback (.ok ()) h₂.1 h₂.2)
        fun f m₂ h₂ => ?_
      cases f with
      | refused error => exact hback (.error error) h₂.1 h₂.2
      | fault fault => exact h₂.elim

end Manager

end KernelMemory
