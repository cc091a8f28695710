/-
  KernelMemory.Proofs.Manager.Requests — the ranges that the manager asks to be mapped.

  Ranges of kernel memory go into the kernel tree after a check of both their ends; ranges of
  a task go into the lower half of its tree.  Either way the pages fit the format, so what
  the manager does to the tables is a run of edits.

  Main results:
    * `KernelRequest.fits`, `UserRequest.fits` — the pages of a request that was checked;
    * `ends_mapViews`, `ends_populate` — mapping kernel memory makes edits of such requests.
-/

import KernelMemory.Proofs.Paging.Mapping

namespace KernelMemory

/-! ## Requests that were checked -/

/-- A request for kernel memory: at its own address, at the configured offset, or for the
kernel image at the address where it runs. -/
structure KernelRequest (format : Format) (config : Config) (tree : Manager.KernelTree)
    (image : Option MemoryRegion) (request : MapRequest) : Prop where
  root : request.root = tree.root
  sealing : request.rootSealed = tree.rootSealed
  pos : 0 < request.size
  checked : Manager.checkRange format request.virt request.phys request.size = .ok ()
  seen : request.virt = request.phys
    ∨ Manager.secondView config request.phys = .ok (some request.virt)
    ∨ ∃ region, image = some region ∧ config.kernelImageBase = some request.virt
      ∧ request.phys = region.base
  /-- Neither the tables made for it nor its pages are for user code. -/
  user : request.user = false ∧ request.flags.user = false

/-- A request for user memory in a task tree. -/
structure UserRequest (format : Format) (table virt phys : Nat) (request : MapRequest) : Prop where
  root : request.root = table
  start : request.virt = virt
  frame : request.phys = phys
  pos : 0 < request.size
  last_virt : virt + (request.size - 1) < format.userEnd
  last_phys : phys + (request.size - 1) < format.physicalEnd
  /-- The tables made for it and its pages are for user code. -/
  user : request.user = true ∧ request.flags.user = true

/-- A request for one of the views of a range of kernel memory. -/
structure ViewRequest (format : Format) (config : Config) (tree : Manager.KernelTree)
    (address size : Nat) (request : MapRequest) : Prop where
  kernel : KernelRequest format config tree none request
  phys : request.phys = address
  size : request.size = size

variable {format : Format} {config : Config} {tree : Manager.KernelTree}
  {image : Option MemoryRegion} {request : MapRequest}

/-- Views of kernel memory are asked for whatever is known of the kernel image. -/
theorem KernelRequest.of_none (h : KernelRequest format config tree none request) :
    KernelRequest format config tree image request where
  root := h.root
  sealing := h.sealing
  pos := h.pos
  checked := h.checked
  seen := h.seen.imp_right fun hrest => hrest.imp_right fun ⟨_, hnone, _⟩ => nomatch hnone
  user := h.user

theorem KernelRequest.fits (h : KernelRequest format config tree image request) :
    request.Fits format tree.root := .of_checkRange h.root h.pos h.checked

theorem UserRequest.fits {kernel root virt phys : Nat}
    (h : UserRequest format root virt phys request) : request.Fits format kernel := by
  have hcover : ∀ {v p length : Nat},
      pageBounds request.virt request.phys request.size = some (v, p, length) →
        v + length ≤ format.userEnd ∧ p + length ≤ format.physicalEnd + frameSize := by
    intro v p length hb
    rw [h.start, h.frame] at hb
    obtain ⟨hend, hframes, -⟩ := Manager.userRange_cover h.pos h.last_virt h.last_phys hb
    exact ⟨hend, hframes⟩
  refine ⟨fun hb w _ hlt => ?_, fun hb => (hcover hb).2, .inr fun hb => (hcover hb).1⟩
  exact Format.inRange_of_lt_userEnd (Nat.lt_of_lt_of_le hlt (hcover hb).1)

/-- A range that was checked is no larger than physical memory, so it has pages. -/
theorem KernelRequest.bounded (h : KernelRequest format config tree image request) :
    pageBounds request.virt request.phys request.size ≠ none := by
  have hlast := (Manager.checkRange_eq_ok h.pos h.checked).2.1
  have hle := format.physicalEnd_le
  obtain ⟨v, p, length, hb⟩ :=
    exists_pageBounds request.virt request.phys (show request.size ≤ 2 ^ 52 by omega)
  rw [hb]
  simp

theorem UserRequest.bounded {root virt phys : Nat} (h : UserRequest format root virt phys request) :
    pageBounds request.virt request.phys request.size ≠ none := by
  have hlast := h.last_phys
  have hle := format.physicalEnd_le
  obtain ⟨v, p, length, hb⟩ :=
    exists_pageBounds request.virt request.phys (show request.size ≤ 2 ^ 52 by omega)
  rw [hb]
  simp

theorem allReady_kernel (tree : Manager.KernelTree) {s : TableStore}
    (hroot : s.arena.level? tree.root = some format.topLevel) :
    AllReady format tree.root (KernelRequest format config tree image) s :=
  fun _ h => ⟨h.fits, by rw [h.root]; exact hroot⟩

theorem allReady_user {kernel root virt phys : Nat} {s : TableStore}
    (hroot : s.arena.level? root = some format.topLevel) :
    AllReady format kernel (UserRequest format root virt phys) s :=
  fun _ h => ⟨h.fits, by rw [h.root]; exact hroot⟩

/-! ## Mapping kernel memory -/

namespace Manager

open Steps TableStore

variable {stock : Stock} {s : TableStore}

/-- The edits of kernel memory. -/
abbrev KernelEdits (format : Format) (config : Config) (tree : KernelTree)
    (image : Option MemoryRegion) : TableStore → TableStore → Prop :=
  Edits format (KernelRequest format config tree image)

/-- A kernel tree in order. -/
structure TreeReady (format : Format) (tree : KernelTree) (stock : Stock) (s : TableStore) :
    Prop where
  orderly : s.Orderly format tree.root stock
  root : s.arena.level? tree.root = some format.topLevel

theorem TreeReady.edits {s' : TableStore} (h : TreeReady format tree stock s)
    (e : KernelEdits format config tree image s s') : TreeReady format tree stock s' where
  orderly := e.orderly h.orderly (allReady_kernel tree h.root)
  root := (e.grows h.orderly (allReady_kernel tree h.root)).level h.root

/-- The request that a view of kernel memory becomes. -/
def viewRequest (config : Config) (tree : KernelTree) (virt phys size : Nat) (flags : PageFlags) :
    MapRequest where
  root := tree.root
  virt := virt
  phys := phys
  size := size
  flags := flags
  rootSealed := tree.rootSealed
  user := false
  largePages := config.largePages

/-- A view of some size is mapped as such a request once it was checked. -/
theorem mapView_eq {virt phys size : Nat} (hsize : size ≠ 0) (flags : PageFlags) :
    mapView format config tree virt phys size flags = (do
      Steps.ofResult (checkRange format virt phys size)
      Walk.mapRange format (viewRequest config tree virt phys size flags)) := by
  rw [mapView, if_neg hsize]
  rfl

/-- A check has one way to fail. -/
theorem error_of_checkRange {virt phys size : Nat} {error : MemoryError}
    (h : checkRange format virt phys size = .error error) : error = .addressOutOfRange := by
  unfold checkRange at h
  split at h
  · cases h
  · split at h
    · split at h
      · cases h
      · injection h with h
        exact h.symm
    · injection h with h
      exact h.symm

theorem error_of_secondView {address : PhysAddr} {error : MemoryError}
    (h : secondView config address = .error error) : error = .addressOutOfRange := by
  unfold secondView at h
  split at h
  · cases h
  · split at h
    · cases h
    · injection h with h
      exact h.symm

/-- Where the kernel tree is, there are frames. -/
theorem TreeReady.total_ne_zero (h : TreeReady format tree stock s) : stock.total ≠ 0 := by
  obtain ⟨t, -, hframe, -⟩ := Arena.exists_views h.root
  exact h.orderly.ledger.total_ne_zero hframe

/-- A view that was checked is mapped by edits of its request, or refused for what is in the way. -/
theorem ends_mapView_checked {virt phys size : Nat} {flags : PageFlags}
    (h : TreeReady format tree stock s) (hcheck : checkRange format virt phys size = .ok ())
    {P : MapRequest → Prop} (hP : KernelRequest format config tree image
      (viewRequest config tree virt phys size flags) → P (viewRequest config tree virt phys size flags))
    (seen : virt = phys ∨ secondView config phys = .ok (some virt)
      ∨ ∃ region, image = some region ∧ config.kernelImageBase = some virt ∧ phys = region.base)
    (hflags : flags.user = false) :
    Ends (mapView format config tree virt phys size flags) s (fun _ s' => Edits format P s s')
      (onRefusal fun e s' => e.OfWalk ∧ Edits format P s s') := by
  by_cases hsize : size = 0
  · rw [mapView, if_pos hsize]
    exact .refl s
  · have hrequest : KernelRequest format config tree image
        (viewRequest config tree virt phys size flags) :=
      ⟨rfl, rfl, Nat.pos_of_ne_zero hsize, hcheck, seen, rfl, hflags⟩
    rw [mapView_eq hsize, ends_bind, ends_ofResult_ok hcheck]
    refine (Walk.ends_mapRange h.orderly ⟨hrequest.fits, h.root⟩).weaken
      (fun _ s' hs => hs.overlaid.edits.mono ?_) fun e s' he => ⟨?_, he.1.mono ?_⟩
    · rintro _ rfl; exact hP hrequest
    · exact he.2.ofWalk hrequest.bounded h.total_ne_zero
    · rintro _ rfl; exact hP hrequest

theorem ends_mapView {virt phys size : Nat} {flags : PageFlags} (h : TreeReady format tree stock s)
    (seen : virt = phys ∨ secondView config phys = .ok (some virt)
      ∨ ∃ region, image = some region ∧ config.kernelImageBase = some virt ∧ phys = region.base)
    (hflags : flags.user = false) :
    Ends (mapView format config tree virt phys size flags) s
      (fun _ s' => KernelEdits format config tree image s s')
      (onRefusal fun _ s' => KernelEdits format config tree image s s') := by
  cases hcheck : checkRange format virt phys size with
  | ok _ =>
    exact (ends_mapView_checked h hcheck id seen hflags).weaken (fun _ _ he => he) fun _ _ he => he.2
  | error e =>
    have hsize : size ≠ 0 := by
      rintro rfl
      cases hcheck
    rw [mapView_eq hsize, ends_bind, ends_ofResult, hcheck]
    exact ⟨fun _ hok => (nomatch hok), fun _ _ => .refl s⟩

/-- A range of kernel memory is turned away before anything is done, or its views are mapped one
after the other until one is refused for what is in the way. -/
theorem ends_mapViews_requests {address size : Nat} {policy : CachePolicy}
    (h : TreeReady format tree stock s) :
    Ends (mapViews format config tree address size policy) s
      (fun _ s' => Edits format (ViewRequest format config tree address size) s s')
      (onRefusal fun e s' => (e = .addressOutOfRange ∧ s' = s)
        ∨ e.OfWalk ∧ Edits format (ViewRequest format config tree address size) s s') := by
  -- each view, wherever the edits before left the tree
  have hview : ∀ {virt : VirtAddr} {t : TableStore}, TreeReady format tree stock t →
      checkRange format virt address size = .ok () →
      (virt = address ∨ secondView config address = .ok (some virt)) →
      Ends (mapView format config tree virt address size
          (PageFlags.kernelData.withCachePolicy policy)) t
        (fun _ t' => Edits format (ViewRequest format config tree address size) t t')
        (onRefusal fun e t' => e.OfWalk
          ∧ Edits format (ViewRequest format config tree address size) t t') :=
    fun ht hcheck hseen => ends_mapView_checked ht hcheck
      (fun (hrequest : KernelRequest format config tree none _) => ⟨hrequest, rfl, rfl⟩)
      (hseen.imp_right .inl) rfl
  rw [mapViews, ends_bind, ends_ofResult]
  refine ⟨fun second hsecond => ?_, fun e he => .inl ⟨error_of_secondView he, rfl⟩⟩
  rw [ends_bind, ends_ofResult]
  refine ⟨fun _ hidentity => ?_, fun e he => .inl ⟨error_of_checkRange he, rfl⟩⟩
  cases second with
  | none =>
    simp only
    rw [ends_bind]
    exact (hview h hidentity (.inl rfl)).weaken (fun _ _ he => he) fun _ _ he => .inr he
  | some virt =>
    simp only
    rw [ends_bind, ends_ofResult]
    refine ⟨fun _ hshifted => ?_, fun e he => .inl ⟨error_of_checkRange he, rfl⟩⟩
    rw [ends_bind]
    refine (hview h hidentity (.inl rfl)).weaken (fun _ s' he => ?_) fun _ _ he => .inr he
    have hready : TreeReady format tree stock s' :=
      h.edits (he.mono fun _ hr => (hr.kernel : KernelRequest format config tree none _))
    rw [ends_bind]
    exact (hview hready hshifted (.inr hsecond)).weaken (fun _ _ he' => he.trans he')
      fun _ _ he' => .inr ⟨he'.1, he.trans he'.2⟩

theorem ends_mapViews (image : Option MemoryRegion) {address size : Nat} {policy : CachePolicy}
    (h : TreeReady format tree stock s) :
    Ends (mapViews format config tree address size policy) s
      (fun _ s' => KernelEdits format config tree image s s')
      (onRefusal fun _ s' => KernelEdits format config tree image s s') := by
  have hkernel : ∀ {s'}, Edits format (ViewRequest format config tree address size) s s' →
      KernelEdits format config tree image s s' := fun he => he.mono fun _ hr => hr.kernel.of_none
  refine (ends_mapViews_requests h).weaken (fun _ _ he => hkernel he) fun e s' he => ?_
  rcases he with ⟨-, rfl⟩ | ⟨-, he⟩
  · exact .refl s'
  · exact hkernel he

/-- All views of a range of kernel memory were checked. -/
structure ViewsChecked (format : Format) (config : Config) (address size : Nat) : Prop where
  identity : checkRange format (VirtAddr.identity address) address size = .ok ()
  shifted : ∀ {virt}, secondView config address = .ok (some virt) →
    checkRange format virt address size = .ok ()

/-- The root of a task is not found for two reasons only. -/
theorem error_of_taskTable {spaces : Spaces} {arena : Arena} {space : AddressSpace}
    {error : MemoryError} (h : spaces.taskTable arena space = .error error) :
    error = .kernelSpace ∨ error = .unknownAddressSpace := by
  unfold Spaces.taskTable at h
  split at h
  · cases h
    exact .inl rfl
  · split at h
    · split at h
      · cases h
      · cases h
        exact .inr rfl
    · cases h
      exact .inr rfl

/-- Unless a range of kernel memory is turned away as out of range, all its views were checked;
and an entry is changed only for a range of some size. -/
theorem ends_mapViews_checked {address size : Nat} {policy : CachePolicy} :
    Ends (mapViews format config tree address size policy) s
      (fun changed _ => ViewsChecked format config address size ∧ (changed = true → 0 < size))
      (fun f _ => f = .refused .addressOutOfRange ∨ ViewsChecked format config address size) := by
  rw [mapViews, ends_bind, ends_ofResult]
  refine ⟨fun second hsecond => ?_, fun e he => .inl (by rw [error_of_secondView he])⟩
  rw [ends_bind, ends_ofResult]
  refine ⟨fun _ hidentity => ?_, fun e he => .inl (by rw [error_of_checkRange he])⟩
  have hmapView : ∀ {virt : VirtAddr} {flags : PageFlags} {t : TableStore},
      ViewsChecked format config address size →
      Ends (mapView format config tree virt address size flags) t
        (fun summary _ => summary.changed = true → 0 < size)
        (fun f _ => f = .refused .addressOutOfRange ∨ ViewsChecked format config address size) := by
    intro virt flags t hchecked
    unfold mapView
    split
    · intro hchanged
      cases hchanged
    · rename_i hsize
      exact ends_of_forall (fun _ _ _ => Nat.pos_of_ne_zero hsize) fun _ _ => .inr hchecked
  cases second with
  | none =>
    have hchecked : ViewsChecked format config address size :=
      ⟨hidentity, fun hsome => by rw [hsecond] at hsome; cases hsome⟩
    simp only
    rw [ends_bind]
    exact (hmapView hchecked).mono (fun _ _ h => ⟨hchecked, h⟩) fun _ _ h => h
  | some virt =>
    simp only
    rw [ends_bind, ends_ofResult]
    refine ⟨fun _ hshifted => ?_, fun e he => .inl (by rw [error_of_checkRange he])⟩
    have hchecked : ViewsChecked format config address size := by
      refine ⟨hidentity, fun hsome => ?_⟩
      rw [hsecond] at hsome
      cases hsome
      exact hshifted
    rw [ends_bind]
    refine (hmapView hchecked).mono (fun identity _ hfirst => ?_) fun _ _ h => h
    rw [ends_bind]
    refine (hmapView hchecked).mono (fun shifted _ hsecond => ?_) fun _ _ h => h
    refine ⟨hchecked, fun hchanged => ?_⟩
    rcases Bool.or_eq_true_iff.mp hchanged with h | h
    · exact hfirst h
    · exact hsecond h

/-! ## The kernel tree at start -/

/-- Steps that do nothing but log. -/
theorem ends_write_edits {level : LogLevel} {text : String} :
    Ends (TableStore.write level text) s
      (fun _ s' => KernelEdits format config tree image s s')
      (onRefusal fun _ s' => KernelEdits format config tree image s s') := .of_same rfl rfl

theorem ends_reachable {region : BootRegion} :
    Ends (reachable format region) s
      (fun _ s' => KernelEdits format config tree image s s')
      (onRefusal fun _ s' => KernelEdits format config tree image s s') := by
  unfold reachable
  simp only
  split
  · exact .of_same rfl rfl
  · split
    · exact .of_same rfl rfl
    · exact .refl s

theorem ends_mapRegions : ∀ {regions : List BootRegion} {s : TableStore},
    TreeReady format tree stock s →
      Ends (mapRegions format config tree regions) s
        (fun _ s' => KernelEdits format config tree image s s')
        (onRefusal fun _ s' => KernelEdits format config tree image s s') := by
  intro regions
  induction regions with
  | nil => intro s _; exact .refl s
  | cons region rest ih =>
    intro s h
    rw [mapRegions, ends_bind]
    refine ends_reachable.weaken (fun part s₁ h₁ => ?_) fun _ _ he => he
    cases part with
    | none =>
      exact (ih (h.edits h₁)).weaken (fun _ _ he => h₁.trans he) fun _ _ he => h₁.trans he
    | some part =>
      simp only
      rw [ends_bind]
      refine (ends_mapViews image (h.edits h₁)).weaken (fun _ s₂ h₂ => ?_) fun _ _ he => h₁.trans he
      have hdone := h₁.trans h₂
      rw [ends_bind]
      refine ends_write_edits.weaken (fun _ s₃ h₃ => ?_) fun _ _ he => hdone.trans he
      have hdone := hdone.trans h₃
      exact (ih (h.edits hdone)).weaken (fun _ _ he => hdone.trans he) fun _ _ he => hdone.trans he

theorem ends_mapImage (h : TreeReady format tree stock s) :
    Ends (mapImage format config tree image) s
      (fun _ s' => KernelEdits format config tree image s s')
      (onRefusal fun _ s' => KernelEdits format config tree image s s') := by
  unfold mapImage
  cases hbase : config.kernelImageBase with
  | none => exact .refl s
  | some virt =>
    cases himage : image with
    | none => exact .of_same rfl rfl
    | some region =>
      simp only
      rw [ends_bind]
      refine (ends_mapView h (.inr (.inr ⟨region, rfl, hbase, rfl⟩)) rfl).weaken (fun _ s₁ h₁ => ?_)
        fun _ _ he => he
      rw [ends_write]
      exact h₁.trans (.of_same rfl rfl)

theorem ends_mapWindows : ∀ {windows : List DeviceWindow} {s : TableStore},
    TreeReady format tree stock s →
      Ends (mapWindows format config tree windows) s
        (fun _ s' => KernelEdits format config tree image s s')
        (onRefusal fun _ s' => KernelEdits format config tree image s s') := by
  intro windows
  induction windows with
  | nil => intro s _; exact .refl s
  | cons window rest ih =>
    intro s h
    -- the other windows, after something was logged
    have hrest : ∀ {s' level text}, KernelEdits format config tree image s s' →
        Ends (do
          TableStore.write level text
          mapWindows format config tree rest) s'
          (fun _ s' => KernelEdits format config tree image s s')
          (onRefusal fun _ s' => KernelEdits format config tree image s s') := by
      intro s' level text he
      rw [ends_bind]
      refine ends_write_edits.weaken (fun _ s₂ h₂ => ?_) fun _ _ he' => he.trans he'
      have hdone := he.trans h₂
      exact (ih (h.edits hdone)).weaken (fun _ _ he => hdone.trans he) fun _ _ he => hdone.trans he
    rw [mapWindows, ends_bind, ends_attempt]
    refine (ends_mapViews image h).mono (fun _ s' he => ?_) fun f s' he => ?_
    · simp only
      rw [ends_bind]
      refine ends_write_edits.weaken (fun _ s₂ h₂ => ?_) fun _ _ he' => he.trans he'
      have hdone := he.trans h₂
      rw [ends_bind]
      exact (ih (h.edits hdone)).weaken (fun _ _ he => hdone.trans he) fun _ _ he => hdone.trans he
    · cases f with
      | fault fault => exact he
      | refused error =>
        cases error with
        | outOfMemory => exact he
        | _ => exact hrest he

theorem ends_populate {map : BootMap} {windows : List DeviceWindow}
    (h : TreeReady format tree stock s) :
    Ends (populate format config tree map image windows) s
      (fun _ s' => KernelEdits format config tree image s s')
      (onRefusal fun _ s' => KernelEdits format config tree image s s') := by
  rw [populate, ends_bind]
  refine (ends_mapRegions h).weaken (fun _ s₁ h₁ => ?_) fun _ _ he => he
  rw [ends_bind]
  refine (ends_mapImage (h.edits h₁)).weaken (fun _ s₂ h₂ => ?_) fun _ _ he => h₁.trans he
  have hdone := h₁.trans h₂
  exact (ends_mapWindows (h.edits hdone)).weaken (fun _ _ he => hdone.trans he)
    fun _ _ he => hdone.trans he

end Manager

end KernelMemory
