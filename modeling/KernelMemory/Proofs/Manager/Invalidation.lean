/-
  KernelMemory.Proofs.Manager.Invalidation — processors drop what they cached for changed pages.

  Mapping a range walks the tables and then tells the processor's cache, each with page bounds of its
  own; the walk can stop anywhere, in the second view as well, and the cache is told of the whole
  range all the same.  It is told page by page where the range is short, and to drop everything where
  it is not.  What was not changed may be dropped, too, but not by a call that was turned away for
  its addresses.

  Main results:
    * `onPages_of_touches` — what the walk can change is in the pages that the cache is told of;
    * `ends_mapKernel_told`, `ends_finishUser_told` — what the cache is told;
    * `changed_pages_dropped` — every page that changes is dropped, in every state that processors
      reach, also between two sections.
-/

import KernelMemory.Proofs.Manager.Isolation
import KernelMemory.Proofs.Manager.Rejections
import KernelMemory.Proofs.Manager.TableFrames
import KernelMemory.Proofs.Manager.UpperHalf

namespace KernelMemory

open Machine Manager Steps

variable {format : Format} {config : Config} {stock stock' : Stock} {m m' m'' : Machine}
  {cpu : CpuId}

/-! ## Pages of a range -/

/-- The page of an address has some of the range. -/
def OnPages (virt size v : Nat) : Prop :=
  ∃ w, w / frameSize = v / frameSize ∧ virt ≤ w ∧ w < virt + size

/-- The pages that a range is rounded to are those that have some of it. -/
theorem onPages_iff {virt phys size start p length v : Nat} (hsize : size ≠ 0)
    (hb : pageBounds virt phys size = some (start, p, length)) :
    OnPages virt size v ↔ start ≤ v ∧ v < start + length := by
  obtain ⟨hstart, -, hlength, hle, hlt, -, -, hend, hend'⟩ := pageBounds_spec hb
  unfold OnPages
  simp only [frameSize] at *
  constructor
  · intro h
    obtain ⟨w, hw, hvirt, hw'⟩ := h
    omega
  · intro h
    -- the first address of the page, or of the range in it
    by_cases hv : virt ≤ v / 4096 * 4096
    · exact ⟨v / 4096 * 4096, by omega, hv, by omega⟩
    · exact ⟨virt, by omega, Nat.le_refl _, by omega⟩

/-- Only addresses on the pages of a request can see that it is mapped. -/
theorem onPages_of_touches {request : MapRequest} {kernel : TableId} {root v : Nat}
    (fits : request.Fits format kernel) (hsize : request.size ≠ 0)
    (hrange : format.virtualInRange v = true) (h : request.Touches format root v) :
    OnPages request.virt request.size v := by
  obtain ⟨target, virt, phys, piece, together, -⟩ := h
  obtain ⟨start, p, length, hb, hstart, hend, -⟩ := piece.bounds
  have hmem := (Format.together_iff_mem piece.target_le piece.virt_mod (piece.virt_inRange fits.within)
    hrange).mp together
  rw [onPages_iff hsize hb]
  omega

/-! ## What a cache is told -/

namespace Cpu

variable {c c' c'' : Cpu} {v : VirtAddr}

/-- What was cached for an address was dropped, with its page alone or with everything. -/
def Dropped (c c' : Cpu) (v : VirtAddr) : Prop :=
  c.fullFlushes < c'.fullFlushes
    ∨ ∃ pages, c'.invalidated = c.invalidated ++ pages ∧ floorTo frameSize v ∈ pages

/-- Nothing was dropped. -/
structure SameCache (c c' : Cpu) : Prop where
  invalidated : c'.invalidated = c.invalidated
  fullFlushes : c'.fullFlushes = c.fullFlushes

theorem SameCache.refl (c : Cpu) : SameCache c c := ⟨rfl, rfl⟩

theorem SameCache.trans (h : SameCache c c') (h' : SameCache c' c'') : SameCache c c'' :=
  ⟨h'.invalidated.trans h.invalidated, h'.fullFlushes.trans h.fullFlushes⟩

/-- What the cache was told before goes on to hold. -/
structure Told (c c' : Cpu) : Prop where
  fullFlushes : c.fullFlushes ≤ c'.fullFlushes
  invalidated : ∃ pages, c'.invalidated = c.invalidated ++ pages

theorem SameCache.told (h : SameCache c c') : Told c c' where
  fullFlushes := Nat.le_of_eq h.fullFlushes.symm
  invalidated := ⟨#[], by rw [h.invalidated, Array.append_empty]⟩

theorem Dropped.before (h : Told c c') (h' : Dropped c' c'' v) : Dropped c c'' v := by
  obtain ⟨earlier, hearlier⟩ := h.invalidated
  cases h' with
  | inl hflush => exact .inl (Nat.lt_of_le_of_lt h.fullFlushes hflush)
  | inr hpages =>
    obtain ⟨pages, heq, hmem⟩ := hpages
    refine .inr ⟨earlier ++ pages, ?_, Array.mem_append_right earlier hmem⟩
    rw [heq, hearlier, Array.append_assoc]

theorem Dropped.after (h : Dropped c c' v) (h' : Told c' c'') : Dropped c c'' v := by
  obtain ⟨later, hlater⟩ := h'.invalidated
  cases h with
  | inl hflush => exact .inl (Nat.lt_of_lt_of_le hflush h'.fullFlushes)
  | inr hpages =>
    obtain ⟨pages, heq, hmem⟩ := hpages
    refine .inr ⟨pages ++ later, ?_, Array.mem_append_left later hmem⟩
    rw [hlater, heq, Array.append_assoc]

end Cpu

/-- What a cache was told, if it was told of the range: nothing is forgotten, and every page that
has some of the range is dropped. -/
structure ToldOf (c c' : Cpu) (virt size : Nat) : Prop where
  told : c.Told c'
  dropped : ∀ v, OnPages virt size v → c.Dropped c' v

namespace Manager

/-! ## Telling a cache of a range -/

/-- Pages that are dropped one by one are all dropped. -/
theorem ends_invalidatePages_told {start : VirtAddr} : ∀ {count page : Nat} {m : Machine},
    Ends (invalidatePages cpu start count page) m
      (fun _ m' => (m'.cpu cpu).fullFlushes = (m.cpu cpu).fullFlushes
        ∧ ∃ pages, (m'.cpu cpu).invalidated = (m.cpu cpu).invalidated ++ pages
          ∧ ∀ i, page ≤ i → i < page + count → start + i * frameSize ∈ pages)
      (onReturn fun _ _ => False) := by
  intro count
  induction count with
  | zero =>
    intro page m
    exact ⟨rfl, #[], by rw [Array.append_empty], by omega⟩
  | succ count ih =>
    intro page m
    rw [invalidatePages, ends_bind, ends_add]
    refine ⟨fun _ => ?_, fun _ => trivial⟩
    rw [ends_bind, ends_onCpu]
    refine ih.weaken_return (fun _ m' h => ?_) fun _ _ h => h
    -- the first page is dropped before, the rest by the induction hypothesis
    obtain ⟨hflushes, pages, hpages, hmem⟩ := h
    rw [cpu_modifyCpu_same] at hflushes hpages
    refine ⟨hflushes, #[start + page * frameSize] ++ pages, ?_, fun i hle hlt => ?_⟩
    · rw [hpages, Cpu.invalidatePage, Array.push_eq_append, Array.append_assoc]
    · by_cases hfirst : i = page
      · rw [hfirst]
        exact Array.mem_append_left pages (Array.mem_singleton.mpr rfl)
      · exact Array.mem_append_right _ (hmem i (by omega) (by omega))

theorem ends_invalidateAll {virt size : Nat} :
    Ends (onCpu cpu Cpu.invalidateAll) m (fun _ m' => ToldOf (m.cpu cpu) (m'.cpu cpu) virt size)
      (onReturn fun _ _ => False) := by
  rw [ends_onCpu, cpu_modifyCpu_same]
  have hless : (m.cpu cpu).fullFlushes < (m.cpu cpu).invalidateAll.fullFlushes := Nat.lt_succ_self _
  exact ⟨⟨Nat.le_of_lt hless, #[], (Array.append_empty).symm⟩, fun _ _ => .inl hless⟩

theorem ends_invalidate_told {virt size : Nat} :
    Ends (invalidate cpu virt size) m (fun _ m' => ToldOf (m.cpu cpu) (m'.cpu cpu) virt size)
      (onReturn fun _ _ => False) := by
  unfold invalidate
  split
  · rename_i hsize
    -- no page has some of an empty range
    refine ⟨(Cpu.SameCache.refl _).told, fun v hv => ?_⟩
    obtain ⟨w, -, hle, hlt⟩ := hv
    omega
  · rename_i hsize
    split
    · exact ends_invalidateAll
    · rename_i start phys length hb
      split
      · exact ends_invalidateAll
      · refine ends_invalidatePages_told.weaken_return (fun _ m' h => ?_) fun _ _ h => h
        obtain ⟨hflushes, pages, hpages, hmem⟩ := h
        refine ⟨⟨Nat.le_of_eq hflushes.symm, pages, hpages⟩, fun v hv => .inr ⟨pages, hpages, ?_⟩⟩
        obtain ⟨hstart, hlt⟩ := (onPages_iff hsize hb).mp hv
        obtain ⟨hmod, -, hlength, -⟩ := pageBounds_spec hb
        -- the page of the address is that many pages after the first one
        have hpage : floorTo frameSize v = start + (v - start) / frameSize * frameSize := by
          simp only [floorTo, frameSize] at *
          omega
        rw [hpage]
        apply hmem _ (Nat.zero_le _)
        simp only [frameSize] at *
        omega

end Manager

/-! ## Steps that tell no cache anything -/

/-- No cache was told anything. -/
def Machine.SameCaches (m m' : Machine) : Prop := ∀ cpu, (m.cpu cpu).SameCache (m'.cpu cpu)

instance : Std.Refl SameCaches := ⟨fun m cpu => .refl (m.cpu cpu)⟩

instance : IsTrans Machine SameCaches := ⟨fun _ _ _ h h' cpu => (h cpu).trans (h' cpu)⟩

namespace Manager

variable {E : MemoryError → Prop} {space : AddressSpace}

/-- Caches are told nothing by changes elsewhere. -/
theorem sameCaches_of_cpus (h : m'.cpus = m.cpus) : SameCaches m m' := by
  intro cpu
  unfold Machine.cpu
  rw [h]
  exact .refl _

theorem caches_setSpaces (spaces : Spaces) : Keeps SameCaches E (setSpaces spaces) :=
  keeps_modify fun _ => sameCaches_of_cpus rfl

/-- Nor by anything that is done to frames and tables. -/
theorem caches_onStore {α : Type} {steps : TableSteps α}
    (h : ∀ {s s' error}, steps s = .error (.refused error) s' → E error) :
    Keeps SameCaches E (onStore steps) := by
  intro m
  rw [ends_onStore]
  refine (ends_self steps m.store).mono (fun _ _ _ => sameCaches_of_cpus rfl) fun f s e => ?_
  refine ⟨sameCaches_of_cpus rfl, fun error heq => ?_⟩
  rw [heq] at e
  exact h e

theorem caches_commit : Keeps SameCaches E (commit format) := by
  intro m
  unfold Ends commit
  cases m.store.arena.commit format m.memory with
  | error fault => exact ⟨sameCaches_of_cpus rfl, fun _ heq => nomatch heq⟩
  | ok done => exact sameCaches_of_cpus rfl

/-- Another root is not told to the cache. -/
theorem caches_load (cpu : CpuId) (spaces : Spaces) (root : PhysAddr) :
    Keeps SameCaches E (load cpu spaces root) := by
  intro m
  rw [ends_load]
  intro other
  by_cases heq : cpu = other
  · subst heq
    show Cpu.SameCache (m.cpu cpu) ((m.modifyCpu cpu fun c => c.loadRoot root).cpu cpu)
    rw [cpu_modifyCpu_same]
    exact ⟨rfl, rfl⟩
  · show Cpu.SameCache (m.cpu other) ((m.modifyCpu cpu fun c => c.loadRoot root).cpu other)
    rw [cpu_modifyCpu_other _ _ heq]
    exact .refl _

theorem caches_enterKernel : Keeps SameCaches (fun _ => True) (enterKernel cpu) := by
  rw [enterKernel_eq]
  unfold Locked.enterKernel
  apply (keeps_started trivial).bind
  intro spaces
  split
  · exact keeps_refuse trivial
  · apply (keeps_activeRoot cpu).bind
    intro current
    apply (caches_setSpaces _).bind
    intro _
    split
    · exact caches_load _ _ _
    · exact keeps_pure _

theorem caches_leaveKernel : Keeps SameCaches (fun _ => True) (leaveKernel cpu) := by
  rw [leaveKernel_eq]
  unfold Locked.leaveKernel
  apply (keeps_started trivial).bind
  intro spaces
  split
  · apply (caches_setSpaces _).bind
    intro _
    apply (keeps_activeRoot cpu).bind
    intro current
    split
    · exact caches_load _ _ _
    · exact keeps_pure _
  · exact keeps_refuse trivial

theorem caches_mapTask {virt phys size : Nat} :
    Keeps SameCaches (fun _ => True) (mapTask format config cpu space virt phys size) := by
  have hresult : ∀ {α : Type} {result : Except MemoryError α},
      Keeps SameCaches (fun _ => True) (ofResult result : MachineSteps α) :=
    keeps_ofResult fun _ _ => trivial
  rw [mapTask_eq]
  unfold Locked.mapTask
  refine (keeps_started trivial).bind fun spaces => keeps_get.bind fun m => hresult.bind fun root => ?_
  split
  · exact keeps_pure _
  · split
    · exact keeps_refuse trivial
    · split
      · exact keeps_refuse trivial
      · split
        · exact keeps_refuse trivial
        · split
          · exact (caches_onStore fun _ => trivial).attempt_bind fun _ _ =>
              caches_commit.bind fun _ => hresult.bind fun _ => keeps_pure _
          · exact keeps_refuse trivial

/-- The end of mapping kernel memory hands on its error, and has none of its own. -/
theorem caches_reportKernel {address size : Nat} {policy : CachePolicy}
    {result : Except MemoryError Bool} :
    Keeps SameCaches (fun error => result = .error error) (reportKernel address size policy result) := by
  cases result with
  | error error => exact keeps_refuse rfl
  | ok changed =>
    simp only [reportKernel]
    split
    · apply (keeps_lift _).bind
      intro stop
      exact caches_onStore fun e => by cases e
    · exact keeps_pure _

/-! ## What operations tell -/

/-- What is on the pages of one of the views of a range of kernel memory. -/
def OnViews (config : Config) (address size v : Nat) : Prop :=
  OnPages address size v
    ∨ ∃ virt, secondView config address = .ok (some virt) ∧ OnPages virt size v

/-- What was told before a result is reported holds to the end, as reporting adds nothing. -/
theorem ends_reportKernel_told {address size : Nat} {policy : CachePolicy}
    {result : Except MemoryError Bool} {m₂ : Machine}
    (hturned : result ≠ .error .addressOutOfRange)
    (h₂ : ∀ v, OnViews config address size v → (m.cpu cpu).Dropped (m₂.cpu cpu) v) :
    Ends (reportKernel address size policy result) m₂
      (fun _ m' => ∀ v, OnViews config address size v → (m.cpu cpu).Dropped (m'.cpu cpu) v)
      (onReturn fun e m' => result = .error e ∧
        if e = .addressOutOfRange then SameCaches m m'
        else ∀ v, OnViews config address size v → (m.cpu cpu).Dropped (m'.cpu cpu) v) := by
  refine (caches_reportKernel.at_return m₂).weaken_return
    (fun _ m' h' v hv => (h₂ v hv).after (h' cpu).told) fun e m' h' => ⟨h'.2, ?_⟩
  have hne : e ≠ .addressOutOfRange := by
    intro heq
    rw [heq] at h'
    exact hturned h'.2
  rw [if_neg hne]
  exact fun v hv => (h₂ v hv).after (h'.1 cpu).told

/-- Unless the range was turned away, the cache is told of all its views before the result is
reported. -/
theorem ends_finishKernel_told {address size : Nat} {policy : CachePolicy}
    {result : Except MemoryError Bool} :
    Ends (finishKernel format config cpu address size policy result) m
      (fun _ m' => ∀ v, OnViews config address size v → (m.cpu cpu).Dropped (m'.cpu cpu) v)
      (onReturn fun e m' => result = .error e ∧
        if e = .addressOutOfRange then SameCaches m m'
        else ∀ v, OnViews config address size v → (m.cpu cpu).Dropped (m'.cpu cpu) v) := by
  unfold finishKernel
  rw [ends_bind]
  refine ((caches_commit : Keeps _ (fun _ => False) _).at_return m).mono (fun count m₁ h₁ => ?_)
    fun f _ hf => ?_
  · split
    · exact ⟨rfl, by rw [if_pos rfl]; exact h₁⟩
    · rename_i hnot
      have hturned : result ≠ .error .addressOutOfRange := fun heq => hnot heq
      rw [ends_bind]
      refine ends_invalidate_told.weaken_return (fun _ m₂ h₂ => ?_) fun _ _ hf => hf.elim
      have hidentity : ∀ v, OnPages address size v → (m.cpu cpu).Dropped (m₂.cpu cpu) v :=
        fun v hv => (h₂.dropped v hv).before (h₁ cpu).told
      simp only
      split
      · rename_i virt hsecond
        rw [ends_bind]
        refine ends_invalidate_told.weaken_return (fun _ m₃ h₃ => ?_) fun _ _ hf => hf.elim
        apply ends_reportKernel_told hturned
        intro v hv
        cases hv with
        | inl hv => exact (hidentity v hv).after h₃.told
        | inr hv =>
          obtain ⟨other, hother, hv⟩ := hv
          rw [hsecond] at hother
          injection hother with hother
          injection hother with hother
          rw [← hother] at hv
          exact ((h₃.dropped v hv).before h₂.told).before (h₁ cpu).told
      · rename_i hnone
        apply ends_reportKernel_told hturned
        intro v hv
        cases hv with
        | inl hv => exact hidentity v hv
        | inr hv =>
          obtain ⟨virt, hsecond, -⟩ := hv
          exact absurd hsecond (hnone virt)
  · cases f with
    | refused error => exact hf.2.elim
    | fault fault => trivial

theorem ends_mapKernel_told {address size : Nat} {policy : CachePolicy} :
    Ends (mapKernel format config cpu address size policy) m
      (fun _ m' => ∀ v, OnViews config address size v → (m.cpu cpu).Dropped (m'.cpu cpu) v)
      (onReturn fun e m' => if e = .addressOutOfRange then SameCaches m m'
        else e = .notInitialized
          ∨ ∀ v, OnViews config address size v → (m.cpu cpu).Dropped (m'.cpu cpu) v) := by
  rw [mapKernel_eq, ends_bind]
  refine ((keeps_started rfl : Keeps Eq (· = .notInitialized) started).at_return m).mono
    (fun spaces m₁ h₁ => ?_) fun f m₁ hf => ?_
  · subst h₁
    rw [ends_bind, ends_attempt, ends_onStore]
    have hfinish : ∀ {s : TableStore} (result : Except MemoryError Bool),
        Ends (finishKernel format config cpu address size policy result) { m with store := s }
          (fun _ m' => ∀ v, OnViews config address size v → (m.cpu cpu).Dropped (m'.cpu cpu) v)
          (onReturn fun e m' => if e = .addressOutOfRange then SameCaches m m'
            else e = .notInitialized
              ∨ ∀ v, OnViews config address size v → (m.cpu cpu).Dropped (m'.cpu cpu) v) := by
      intro s result
      refine ends_finishKernel_told.weaken_return (fun _ _ h => h) fun e m' h => ?_
      obtain ⟨-, h⟩ := h
      split at h
      · rename_i heq
        rw [if_pos heq]
        exact h
      · rename_i hne
        rw [if_neg hne]
        exact .inr h
    refine ends_of_forall (fun changed s => hfinish (.ok changed)) fun f s => ?_
    cases f with
    | refused error => exact hfinish (.error error)
    | fault fault => trivial
  · cases f with
    | refused error =>
      obtain ⟨rfl, rfl⟩ := hf
      rw [onReturn_refused, if_neg (by decide)]
      exact .inl rfl
    | fault fault => trivial

/-- Whether user memory was not mapped because of its addresses. -/
def TurnedAway (result : Except MemoryError Unit) : Prop :=
  result = .error .notUserAddress ∨ result = .error .addressOutOfRange

/-- Coming back from the kernel space, the cache is told of the range unless it was turned away. -/
theorem ends_finishUser_told {virt size : Nat} {result : Except MemoryError Unit}
    (hplaced : m.Placed) {saved : PhysAddr} (hsaved : savedRoot m cpu = some saved) :
    Ends (finishUser cpu virt size result) m
      (fun _ m' => (TurnedAway result → SameCaches m m')
        ∧ (¬ TurnedAway result → ∀ v, OnPages virt size v → (m.cpu cpu).Dropped (m'.cpu cpu) v))
      (onReturn fun _ m' => (TurnedAway result → SameCaches m m')
        ∧ (¬ TurnedAway result → ∀ v, OnPages virt size v → (m.cpu cpu).Dropped (m'.cpu cpu) v)) := by
  unfold finishUser
  rw [ends_bind]
  refine ((ends_leaveKernel_of_saved hplaced hsaved).and (caches_leaveKernel m)).mono
    (fun _ m₁ h₁ => ?_) fun _ _ hf => hf.1.elim
  have hsame : SameCaches m m₁ := h₁.2
  split
  · exact ⟨fun _ => hsame, fun hnot => absurd (.inl rfl) hnot⟩
  · exact ⟨fun _ => hsame, fun hnot => absurd (.inr rfl) hnot⟩
  · rename_i huser hrange
    have hnot : ¬ TurnedAway result := by
      intro hturned
      cases hturned with
      | inl heq => exact huser heq
      | inr heq => exact hrange heq
    rw [ends_bind]
    refine ends_invalidate_told.weaken_return (fun _ m₂ h₂ => ?_) fun _ _ hf => hf.elim
    have hdropped : ∀ v, OnPages virt size v → (m.cpu cpu).Dropped (m₂.cpu cpu) v :=
      fun v hv => (h₂.dropped v hv).before (hsame cpu).told
    rw [ends_ofResult]
    exact ⟨fun _ _ => ⟨fun hturned => absurd hturned hnot, fun _ => hdropped⟩,
      fun _ _ => ⟨fun hturned => absurd hturned hnot, fun _ => hdropped⟩⟩

end Manager

/-! ## What can change -/

/-- What every space sees of addresses that the format has, off the pages `On`, is as it was. -/
def Machine.SameOff (format : Format) (On : Nat → Prop) (m m' : Machine) : Prop :=
  ∀ (space : AddressSpace) (v : Nat), format.virtualInRange v = true → ¬ On v →
    SameAt format m m' space v

theorem Machine.SameOff.refl (On : Nat → Prop) (m : Machine) : SameOff format On m m :=
  fun _ _ _ _ => ⟨rfl, rfl, rfl⟩

/-- Every space sees an intact machine as it was. -/
theorem Machine.Intact.sameOff {On : Nat → Prop} (hintact : Intact m m') (h : m.Sound format stock)
    (h' : m'.Sound format stock') : SameOff format On m m' := by
  have halike : Arena.Alike m.store.arena m'.store.arena := Arena.alike_of_get? hintact.table
  intro space v _ _
  have hsame := rootTable_of_grows h h' hintact.census halike.grows space
  cases hroot : m.rootTable space with
  | none => exact sameAt_of_none hroot (hsame.trans hroot)
  | some root =>
    exact sameAt_of_lookup h h' hroot (hsame.trans hroot) (Arena.lookup_alike halike _ _ _)

namespace Manager

variable {spaces : Spaces}

/-- Requests for the views of a range change nothing off their pages. -/
theorem sameOff_of_views {address size : Nat} (h : m.Sound format stock)
    (hspaces : m.spaces = some spaces) (h' : m'.Sound format stock')
    (hr : Remapped format (SealedViews format config spaces address size) m m') :
    SameOff format (OnViews config address size) m m' := by
  intro space v hrange hoff
  refine hr.sameAt h hspaces (allReady_views h hspaces) h' fun root _ r hreq htouches => hoff ?_
  have hon := onPages_of_touches hreq.kernel.fits (Nat.ne_of_gt hreq.kernel.pos) hrange htouches
  rw [hreq.size] at hon
  have hseen := hreq.kernel.seen
  rw [hreq.phys] at hseen
  rcases hseen with hidentity | hsecond | ⟨_, hnone, -⟩
  · rw [hidentity] at hon
    exact .inl hon
  · exact .inr ⟨r.virt, hsecond, hon⟩
  · cases hnone

/-- A request for user memory changes nothing off its pages. -/
theorem MappedTask.sameOff {space : AddressSpace} {virt phys size : Nat} {root : TableId}
    (hm : MappedTask format config space virt phys size spaces root m m') (h : m.Sound format stock) :
    SameOff format (OnPages virt size) m m' := by
  have fits : (userRequest config root virt phys size).Fits format spaces.kernelTable :=
    hm.request.fits
  have ready : AllReady format spaces.kernelTable
      (fun r => r = userRequest config root virt phys size) m.store := by
    intro r heq
    rw [heq]
    exact ⟨fits, hm.level⟩
  intro other v hrange hoff
  refine hm.remapped.sameAt h hm.known ready (hm.mappedUser.sound h) fun root' _ r heq htouches =>
    hoff ?_
  rw [heq] at htouches
  exact onPages_of_touches fits (Nat.ne_of_gt hm.request.pos) hrange htouches

/-- Mapping kernel memory changes nothing off the pages of its views, and nothing at all where it is
turned away. -/
theorem ends_mapKernel_changes {address size : Nat} {policy : CachePolicy}
    (h : m.Sound format stock) :
    Ends (mapKernel format config cpu address size policy) m
      (fun _ m' => SameOff format (OnViews config address size) m m')
      (onReturn fun e m' => (e = .notInitialized ∨ e = .addressOutOfRange)
          ∧ SameOff format (fun _ => False) m m'
        ∨ e.OfWalk ∧ SameOff format (OnViews config address size) m m') := by
  refine ((ends_mapKernel_views h).and (ends_mapKernel h)).mono (fun _ m' hm' => ?_) fun f m' hm' => ?_
  · obtain ⟨⟨spaces, hspaces, hr, -⟩, hk⟩ := hm'
    exact sameOff_of_views h hspaces (hk.sound h) hr
  · cases f with
    | fault fault => trivial
    | refused e =>
      obtain ⟨hm', hk⟩ := hm'
      have h' : m'.Sound format stock := MappedKernel.sound hk h
      rcases hm' with ⟨he, rfl⟩ | ⟨spaces, hspaces, ⟨hr, -⟩, hwalk | ⟨he, count, hcommit⟩⟩
      · exact .inl ⟨.inl he, .refl _ m'⟩
      · exact .inr ⟨hwalk, sameOff_of_views h hspaces h' hr⟩
      · exact .inl ⟨.inr he, (intact_of_commit h hspaces hcommit).sameOff h h'⟩

/-- Mapping user memory changes nothing off its pages, and nothing at all where it is turned away. -/
theorem ends_mapTask_changes {space : AddressSpace} {virt phys size : Nat}
    (h : m.Sound format stock) :
    Ends (mapTask format config cpu space virt phys size) m
      (fun _ m' => SameOff format (OnPages virt size) m m')
      (onReturn fun e m' => SameOff format (fun _ => False) m m'
        ∨ e.OfWalk ∧ SameOff format (OnPages virt size) m m') := by
  refine (ends_mapTask_request h).overflow.at_return.weaken_return (fun _ m' hm' => ?_)
    fun e m' hm' => ?_
  · rcases hm' with rfl | ⟨spaces, root, hm⟩
    · exact .refl _ m'
    · exact hm.sameOff h
  · rcases hm' with rfl | ⟨hwalk, spaces, root, hm⟩
    · exact .inl (.refl _ m')
    · exact .inr ⟨hwalk, hm.sameOff h⟩

/-! ## Changes and caches together -/

/-- Every page that some space sees changed from one machine to the other is dropped. -/
def DropsChanges (format : Format) (m m' : Machine) (c c' : Cpu) : Prop :=
  ∀ (space : AddressSpace) (v : Nat), format.virtualInRange v = true →
    ¬ SameAt format m m' space v → c.Dropped c' v

theorem dropsChanges_of_dropped {On : Nat → Prop} {c c' : Cpu} (hoff : SameOff format On m m')
    (hdropped : ∀ v, On v → c.Dropped c' v) : DropsChanges format m m' c c' := by
  intro space v hrange hchanged
  by_cases hon : On v
  · exact hdropped v hon
  · exact absurd (hoff space v hrange hon) hchanged

theorem dropsChanges_of_same {c c' : Cpu} (h : SameOff format (fun _ => False) m m') :
    DropsChanges format m m' c c' := dropsChanges_of_dropped h fun _ => False.elim

/-- What mapping user memory changed is dropped on the way back, whatever it came to. -/
theorem dropsChanges_of_back {space : AddressSpace} {virt phys size : Nat}
    {result : Except MemoryError Unit} (h : m.Sound format stock)
    (e : attempt (mapTask format config cpu space virt phys size) m = .ok result m') {c c' : Cpu}
    (hdropped : ¬ TurnedAway result → ∀ v, OnPages virt size v → c.Dropped c' v) :
    DropsChanges format m m' c c' := by
  have hchanges := (ends_mapTask_changes h).of_return e
  cases result with
  | ok _ =>
    have hnot : ¬ TurnedAway (.ok ()) := by simp [TurnedAway]
    exact dropsChanges_of_dropped hchanges (hdropped hnot)
  | error error =>
    cases hchanges with
    | inl hsame => exact dropsChanges_of_same hsame
    | inr hwalk =>
      have hnot : ¬ TurnedAway (.error error) := by
        rcases hwalk.1 with rfl | rfl | rfl
        all_goals simp [TurnedAway]
      exact dropsChanges_of_dropped hwalk.2 (hdropped hnot)

theorem ends_mapKernel_dropsChanges {address size : Nat} {policy : CachePolicy}
    (h : m.Sound format stock) :
    Ends (mapKernel format config cpu address size policy) m
      (fun _ m' => DropsChanges format m m' (m.cpu cpu) (m'.cpu cpu))
      (onReturn fun e m' => DropsChanges format m m' (m.cpu cpu) (m'.cpu cpu)
        ∧ (e = .notUserAddress ∨ e = .addressOutOfRange → SameCaches m m')) := by
  refine ((ends_mapKernel_changes h).and ends_mapKernel_told).mono (fun _ m' hm' => ?_) fun f m' hm' => ?_
  · exact dropsChanges_of_dropped hm'.1 hm'.2
  · cases f with
    | fault fault => trivial
    | refused e =>
      simp only [onReturn_refused] at hm' ⊢
      obtain ⟨hchanges | ⟨hwalk, hoff⟩, htold⟩ := hm'
      · obtain ⟨he, hsame⟩ := hchanges
        refine ⟨dropsChanges_of_same hsame, fun hturned => ?_⟩
        have hout : e = .addressOutOfRange := by
          rcases he with rfl | rfl
          · simp at hturned
          · rfl
        rw [if_pos hout] at htold
        exact htold
      · have hnot : e ≠ .notUserAddress ∧ e ≠ .addressOutOfRange ∧ e ≠ .notInitialized := by
          rcases hwalk with rfl | rfl | rfl
          all_goals decide
        rw [if_neg hnot.2.1] at htold
        refine ⟨dropsChanges_of_dropped hoff (htold.resolve_left hnot.2.2), fun hturned => ?_⟩
        cases hturned with
        | inl he => exact absurd he hnot.1
        | inr he => exact absurd he hnot.2.1

/-- On the way back from the kernel space the cache is told of whatever mapping user memory there
came to. -/
theorem ends_finishUser_dropsChanges (range : UserRange) {m₁ m₂ : Machine}
    {result : Except MemoryError Unit} (h : m.Sound format stock) (hq : Quiet m m₁)
    (hplaced : m₁.Placed) (hsaved : savedRoot m₁ cpu = some (m.cpu cpu).root)
    (hcaches : SameCaches m m₁)
    (e : attempt (mapTask format config cpu range.space range.virt range.phys range.size) m₁
      = .ok result m₂) :
    Ends (finishUser cpu range.virt range.size result) m₂
      (fun _ m' => DropsChanges format m m' (m.cpu cpu) (m'.cpu cpu))
      (onReturn fun e m' => DropsChanges format m m' (m.cpu cpu) (m'.cpu cpu)
        ∧ (e = .notUserAddress ∨ e = .addressOutOfRange → SameCaches m m')) := by
  have h₁ : m₁.Sound format stock := hq.sound h
  obtain ⟨htables, hsame⟩ := (ends_mapTask h₁).overflow.state_of_attempt e
  have hcaches₂ : SameCaches m m₂ :=
    IsTrans.trans _ _ _ hcaches (caches_mapTask.of_attempt e).1
  have hplaced₂ : m₂.Placed := placed_of_census hplaced htables.census hsame
  have hsaved₂ : savedRoot m₂ cpu = some (m.cpu cpu).root := by
    rw [savedRoot, hsame.noted]
    exact hsaved
  have hdone : ∀ {m' : Machine}, Quiet m₂ m' →
      (¬ TurnedAway result → ∀ v, OnPages range.virt range.size v →
        (m₂.cpu cpu).Dropped (m'.cpu cpu) v) →
      DropsChanges format m m' (m.cpu cpu) (m'.cpu cpu) := by
    intro m' hq' hdropped space v hrange hchanged
    refine dropsChanges_of_back h₁ e (fun hnot w hw => ?_) space v hrange fun hsame => hchanged ?_
    · exact (hdropped hnot w hw).before (hcaches₂ cpu).told
    · exact ((hq.calm h).sameAt.trans hsame).trans (hq'.calm (htables.sound h₁)).sameAt
  refine ((ends_finishUser_result hplaced₂ hsaved₂).at_return.and
    (ends_finishUser_told hplaced₂ hsaved₂)).mono (fun _ m' hm' => ?_) fun f m' hm' => ?_
  · exact hdone hm'.1.1 hm'.2.2
  · cases f with
    | fault fault => trivial
    | refused error =>
      obtain ⟨⟨⟨hq', -⟩, hresult⟩, htold, hdropped⟩ := hm'
      refine ⟨hdone hq' hdropped, fun hturned => ?_⟩
      have hturned' : TurnedAway result := by
        rw [hresult]
        exact hturned.imp (congrArg _) (congrArg _)
      exact IsTrans.trans _ _ _ hcaches₂ (htold hturned')

theorem ends_mapUser_dropsChanges (range : UserRange) (h : m.Sound format stock)
    (hplaced : m.Placed) :
    Ends (mapUser format config cpu range.space range.virt range.phys range.size) m
      (fun _ m' => DropsChanges format m m' (m.cpu cpu) (m'.cpu cpu))
      (onReturn fun e m' => DropsChanges format m m' (m.cpu cpu) (m'.cpu cpu)
        ∧ (e = .notUserAddress ∨ e = .addressOutOfRange → SameCaches m m')) := by
  have hnothing : DropsChanges format m m (m.cpu cpu) (m.cpu cpu)
      ∧ ∀ {e : MemoryError}, e = .notUserAddress ∨ e = .addressOutOfRange → SameCaches m m :=
    ⟨dropsChanges_of_same (.refl _ m), fun _ => Std.Refl.refl m⟩
  rw [mapUser_eq_sections, ends_bind, ends_activeRoot]
  split
  · exact ⟨hnothing.1, hnothing.2⟩
  · rw [ends_bind]
    refine (ends_enterKernel.and (caches_enterKernel m)).mono (fun _ m₁ hm₁ => ?_) fun f m₁ hm₁ => ?_
    · obtain ⟨⟨hq, spaces, hspaces, hthere⟩, hcaches⟩ := hm₁
      have hplaced₁ : m₁.Placed := placed_enter hplaced hq hspaces hthere
      have hsaved := savedRoot_of_moved hthere.toMoved
      rw [ends_bind]
      refine (ends_self _ m₁).mono (fun result m₂ e => ?_) fun f m₂ e => ?_
      · exact ends_finishUser_dropsChanges range h hq hplaced₁ hsaved hcaches e
      · cases f with
        | fault fault => trivial
        | refused error => exact (attempt_ne_refused e).elim
    · cases f with
      | fault fault => trivial
      | refused error =>
        obtain rfl := hm₁.1
        exact ⟨hnothing.1, hnothing.2⟩

end Manager

/-! ## States -/

/-- The calls that map memory. -/
def Call.Maps : Call → Prop
  | .mapKernel .. | .mapUser .. => True
  | _ => False

namespace Manager

/-- What a cache is told while tables change from those of `m` to those of `m'`: every page that
changes is dropped, and nothing is if addresses are turned away. -/
structure Synchronized (format : Format) (m m' : Machine) (c c' : Cpu) (result : Except MemoryError α) :
    Prop where
  dropped : DropsChanges format m m' c c'
  kept : result = .error .addressOutOfRange ∨ result = .error .notUserAddress → c.SameCache c'

theorem synchronized_of_ends {α : Type} {steps : MachineSteps α}
    (h : Ends steps m (fun _ m' => DropsChanges format m m' (m.cpu cpu) (m'.cpu cpu))
      (onReturn fun e m' => DropsChanges format m m' (m.cpu cpu) (m'.cpu cpu)
        ∧ (e = .notUserAddress ∨ e = .addressOutOfRange → SameCaches m m')))
    {result : Except MemoryError α} (e : attempt steps m = .ok result m') :
    Synchronized format m m' (m.cpu cpu) (m'.cpu cpu) result := by
  have hends := h.of_return e
  cases result with
  | ok a => exact ⟨hends, by simp⟩
  | error error =>
    refine ⟨hends.1, fun hturned => hends.2 ?_ cpu⟩
    cases hturned with
    | inl heq => exact .inr (Except.error.inj heq)
    | inr heq => exact .inl (Except.error.inj heq)

/-- Calls do nothing after the operation that they are for. -/
theorem synchronized_perform (h : m.Sound format stock) (hplaced : m.Placed) {call : Call}
    (hmaps : call.Maps) {result : Except MemoryError Answer}
    (e : attempt (perform format config cpu call) m = .ok result m') :
    Synchronized format m m' (m.cpu cpu) (m'.cpu cpu) result := by
  cases call with
  | mapKernel address size policy =>
    refine synchronized_of_ends ?_ e
    rw [perform, ends_bind]
    exact ends_mapKernel_dropsChanges h
  | mapUser space virt phys size =>
    refine synchronized_of_ends ?_ e
    rw [perform, ends_bind]
    exact ends_mapUser_dropsChanges ⟨space, virt, phys, size⟩ h hplaced
  | _ => exact hmaps.elim

end Manager

/-- In every state that processors reach, a call that maps memory has its processor drop every page
that changes in any space, whatever the call comes to, and none if it is turned away for its
addresses; and so do the sections that user memory is mapped in, if others come in between. -/
theorem changed_pages_dropped {poolPages : Nat} {s : System}
    (h : Reachable format config AnyCall poolPages s) :
    (∀ {call : Call} {result : Except MemoryError Answer} {m' : Machine}, call.Maps →
        attempt (perform format config cpu call) s.machine = .ok result m' →
          Synchronized format s.machine m' (s.machine.cpu cpu) (m'.cpu cpu) result)
      ∧ ∀ {range : UserRange} {result : Except MemoryError Unit} {t u u' : System},
        Step format config AnyCall cpu (.map range) s t → t.stage cpu = .mapped range result →
        Reachable format config AnyCall poolPages u → u.stage cpu = .mapped range result →
        Step format config AnyCall cpu (.leave range) u u' →
          Synchronized format s.machine t.machine (u.machine.cpu cpu) (u'.machine.cpu cpu) result := by
  refine ⟨fun hmaps e => synchronized_perform h.sound.machine h.sound.placed hmaps e, ?_⟩
  intro range result t u u' hmap hstage hu hwaits hleave
  cases hmap with
  | @map _ _ found m' stage ends =>
    simp only [Function.update_self, Stage.mapped.injEq, true_and] at hstage
    subst hstage
    cases hleave with
    | @leave _ _ found' answer m'' stage' ends' =>
      rw [hwaits] at stage'
      injection stage' with _ hresult
      subst hresult
      obtain ⟨saved, hsaved⟩ := hu.sound.inside (by rw [hwaits]; trivial)
      have htold := (ends_finishUser_told hu.sound.placed hsaved).state_of_return ends'
      exact ⟨dropsChanges_of_back h.sound.machine ends htold.2, fun hturned => htold.1 hturned.symm cpu⟩

/-- What the kernel space sees of an address that a large page in its root covers. -/
theorem covering_kernelLarge {spaces : Spaces} {address : PhysAddr} {policy : CachePolicy} {i v : Nat}
    (h : m.Sound .narrow stock) (hspaces : m.spaces = some spaces)
    (hslot : m.store.arena.slot? spaces.kernelTable i = some (kernelLarge address policy))
    (hindex : Format.narrow.index v Format.narrow.topLevel = i) :
    m.covering .narrow spaces.kernel v
      = .ok (some (⟨address, PageFlags.kernelData.withCachePolicy policy⟩, Format.narrow.topLevel)) := by
  have hroot := rootTable_of_frame h ⟨spaces, hspaces, .inl rfl⟩ (h.spaces hspaces).kernel
  rw [covering_eq_lookup h hroot]
  congr 1
  rw [← hindex] at hslot
  exact Arena.lookup_of_mapping (Nat.le_refl _) rfl hslot rfl

/-- For instance, device registers get another policy, which the kernel space sees at their first
address, and what was cached for that address is dropped. -/
theorem changed_pages_dropped_policy : ∃ s answer m' space, Reachable .narrow {} AnyCall 0 s
    ∧ (Call.mapKernel 0x80000000 0x400000 .writeBack).Maps
    ∧ attempt (perform .narrow {} 0 (.mapKernel 0x80000000 0x400000 .writeBack)) s.machine
      = .ok (.ok answer) m'
    ∧ ¬ SameAt .narrow s.machine m' space 0x80000000
    ∧ (s.machine.cpu 0).Dropped (m'.cpu 0) 0x80000000 := by
  obtain ⟨m, stock, -, h, -, spaces, hspaces, hslot⟩ := exists_started_device kernelBlock_device rfl
  have hsound := h.reachable.sound.machine
  have hmap : Ends (perform .narrow {} 0 (.mapKernel 0x80000000 0x400000 .writeBack)) m
      (fun _ m' => m'.census = m.census ∧ m'.store.arena.slot? spaces.kernelTable 512
        = some (kernelLarge 0x80000000 .writeBack)) (fun _ _ => False) := by
    rw [perform, ends_bind]
    exact ends_mapKernel_block kernelBlock_device (by decide) hsound hspaces hslot
  obtain ⟨answer, m', e, hcensus, hslot'⟩ := exists_of_ends hmap
  have hattempt : attempt (perform .narrow {} 0 (.mapKernel 0x80000000 0x400000 .writeBack)) m
      = .ok (.ok answer) m' := by rw [attempt, e]
  have h' : Answered .narrow {} AnyCall 0 (_ ++ [(0, _)]) m' _ := h.next (by trivial) trivial e
  have hsound' := h'.reachable.sound.machine
  rw [census_of_some hspaces] at hcensus
  obtain ⟨spaces', hspaces', heq⟩ := exists_of_census hcensus
  simp only [Spaces.census, Prod.mk.injEq] at heq
  have hchanged : ¬ SameAt .narrow m m' spaces.kernel 0x80000000 := by
    intro hsame
    have hcovering := hsame.covering
    rw [covering_kernelLarge hsound hspaces hslot (by decide), ← heq.2.1,
      covering_kernelLarge hsound' hspaces' (by rw [heq.1]; exact hslot') (by decide)] at hcovering
    exact absurd hcovering (by decide)
  have hmaps : (Call.mapKernel 0x80000000 0x400000 .writeBack).Maps := trivial
  exact ⟨_, answer, m', spaces.kernel, h.reachable, hmaps, hattempt, hchanged,
    ((changed_pages_dropped h.reachable).1 hmaps hattempt).dropped _ _ (by decide) hchanged⟩

end KernelMemory
