/-
  KernelMemory.Proofs.Boot.KernelImage — whether the running kernel stays mapped.

  The kernel runs where the boot loader put it, at an address in the upper half, and goes on
  running there when the processor is brought to the kernel tree.  So the tree must map the image
  at that address.  Bring-up maps the image that is published, and only if that starts where the
  loader says the kernel does.  Otherwise it logs a warning and starts the manager all the same.

  The image is published from the first region of its kind, and modules are of that kind too.
  Where no module is below the kernel, a bring-up that returns keeps the kernel mapped.  Where one
  is, bring-up returns as well, with a tree that does not map the running kernel.

  Main results:
    * `ends_prepare` — the machine when the manager is started, and how that is configured;
    * `bringUp_keeps_image` — the kernel image after bring-up, if it is the lowest of its kind;
    * `bringUp_drops_image` — a module below the kernel;
    * `bringUp_unmaps_image` — a loader's answer where that leaves the kernel unmapped.
-/

import KernelMemory.Proofs.Boot.ImageRegion
import KernelMemory.Proofs.Manager.ImageView

namespace KernelMemory

namespace Boot

open Machine Steps

variable {responses : Responses} {claim : HeapClaim} {cpu : CpuId} {stackTop : VirtAddr}
  {ranges : List Range} {stack : Option Span} {offset : Nat} {range : Range} {virtual : VirtAddr}
  {config : Config} {map : BootMap} {m m' : Machine}

/-! ## Before the manager is started -/

theorem Logged.still (h : Logged m m') : Still m m' := by
  obtain ⟨records, rfl⟩ := h
  exact still_log records

/-- What bring-up does before it starts the manager; tells how that is to be configured, and the
map. -/
def prepare (responses : Responses) (claim : HeapClaim) (stackTop : VirtAddr) :
    MachineSteps (Config × BootMap) := do
  match responses.directMap, responses.ranges with
  | none, _ => violated "higher-half direct map request unanswered"
  | some _, none => violated "memory map request unanswered"
  | some offset, some ranges =>
    let stack ← stackFrames stackTop offset
    let bootstrap ← claimBootstrapHeap claim ranges stack offset
    match BootMap.ofRecords (bootRecords ranges (carveOuts stack bootstrap)) with
    | .error error => violated s!"bad boot memory map: {error.message}"
    | .ok map =>
      onStore (TableStore.writeAll map.describe)
      if ← Manager.initFrames map then
        claimPool claim offset
        return (← managerConfig responses offset, map)
      else
        violated "frame allocator initialized twice"

/-- The end of bring-up: a manager that cannot be started stops the kernel. -/
def finishBringUp (config : Config) : Except MemoryError AddressSpace → MachineSteps Config
  | .ok _ => return config
  | .error error => violated s!"translation manager failed to start: {error.message}"

theorem bringUp_eq (responses : Responses) (claim : HeapClaim) (cpu : CpuId)
    (stackTop : VirtAddr) :
    bringUp responses claim cpu stackTop = (do
      let prepared ← prepare responses claim stackTop
      let result ← Steps.attempt
        (Manager.init .wide prepared.1 cpu prepared.2 deviceWindows)
      finishBringUp prepared.1 result) := by
  obtain ⟨answered, directMap, executable⟩ := responses
  cases directMap with
  | none => rfl
  | some offset =>
    cases answered with
    | none => rfl
    | some ranges =>
      simp only [bringUp, prepare, Manager.initFrames_eq, bind_assoc]
      congr 1
      funext stack
      congr 1
      funext bootstrap
      cases BootMap.ofRecords (bootRecords ranges (carveOuts stack bootstrap)) with
      | error error => rfl
      | ok map =>
        simp only [bind_assoc]
        congr 1
        funext _
        congr 1
        funext first
        cases first with
        | false => rfl
        | true =>
          simp only [startManager, if_true, bind_assoc, pure_bind]
          rfl

/-- A bring-up that returned had started the manager on the machine that was prepared. -/
theorem prepared_of_bringUp (e : bringUp responses claim cpu stackTop m = .ok config m') :
    ∃ map prepared space, prepare responses claim stackTop m = .ok (config, map) prepared
      ∧ Manager.init .wide config cpu map deviceWindows prepared = .ok space m' := by
  rw [bringUp_eq] at e
  obtain ⟨⟨prepared, map⟩, machine, hprepare, e⟩ := bind_eq_ok_iff.mp e
  obtain ⟨result, started, hattempt, e⟩ := bind_eq_ok_iff.mp e
  cases result with
  | error error => cases e
  | ok space =>
    cases e
    exact ⟨map, machine, space, hprepare, eq_ok_of_attempt hattempt⟩

/-- Where the manager starts on the machine that was prepared, bring-up returns. -/
theorem bringUp_of_prepared {prepared : Machine} {space : AddressSpace}
    (hprepare : prepare responses claim stackTop m = .ok (config, map) prepared)
    (hinit : Manager.init .wide config cpu map deviceWindows prepared = .ok space m') :
    bringUp responses claim cpu stackTop m = .ok config m' := by
  have hattempt : Steps.attempt (Manager.init .wide config cpu map deviceWindows) prepared
      = .ok (.ok space) m' := by
    unfold Steps.attempt
    rw [hinit]
  rw [bringUp_eq, bind_of_ok hprepare, bind_of_ok hattempt]
  rfl

theorem ends_claimPool (claim : HeapClaim) (offset : Nat) (m : Machine) :
    Ends (claimPool claim offset) m (fun _ m' => Logged m m') (fun _ _ => True) := by
  unfold claimPool
  rw [ends_bind, ends_get]
  split
  · exact ⟨_, rfl⟩
  · rw [ends_bind, ends_add]
    refine ⟨fun _ => ?_, fun _ => trivial⟩
    split
    · exact ⟨_, rfl⟩
    · exact ⟨_, rfl⟩

/-- Where the kernel image is to run: at the address that the loader tells, if the image published
starts where the loader says the kernel does. -/
def imageBase (responses : Responses) (image : Option MemoryRegion) : Option VirtAddr :=
  match responses.executable with
  | none => none
  | some (physical, virtual) =>
    if image.map MemoryRegion.base = some physical then some virtual else none

theorem ends_managerConfig (responses : Responses) (offset : Nat) (m : Machine) :
    Ends (managerConfig responses offset) m
      (fun config m' => Logged m m'
        ∧ config.kernelImageBase = imageBase responses m.descriptor.kernelImage)
      (fun _ _ => False) := by
  unfold managerConfig imageBase
  cases responses.executable with
  | none => exact ⟨⟨_, rfl⟩, rfl⟩
  | some loaded =>
    simp only
    rw [ends_bind, ends_get]
    split
    · exact ⟨.refl m, rfl⟩
    · exact ⟨⟨_, rfl⟩, rfl⟩

/-- A machine on which nothing was started. -/
structure Fresh (m : Machine) : Prop where
  bitmap : m.store.frames.bitmap = none
  arena : m.store.arena = Arena.empty
  spaces : m.spaces = none
  image : m.descriptor.kernelImage = none

theorem fresh_powerOn (poolPages : Nat) : Fresh (powerOn poolPages) := ⟨rfl, rfl, rfl, rfl⟩

theorem Fresh.sound (h : Fresh m) : ∃ stock, m.Sound .wide stock := by
  refine ⟨_, sound_unstarted ?_ h.spaces h.arena⟩
  have hframes : m.store.frames = ⟨m.store.frames.poolPages, none⟩ := by rw [← h.bitmap]
  rw [hframes]
  exact FrameAllocator.wellFormed_unstarted m.store.frames.poolPages

theorem Fresh.logged (h : Fresh m) (hl : Logged m m') : Fresh m' where
  bitmap := by rw [hl.frames, h.bitmap]
  arena := hl.still.quiet.store.arena.trans h.arena
  spaces := hl.still.spaces.trans h.spaces
  image := by rw [hl.descriptor, h.image]

/-- The allocator was started with a map, and the manager was not. -/
structure Launched (map : BootMap) (m : Machine) : Prop where
  sound : ∃ stock, m.Sound .wide stock
  spaces : m.spaces = none
  image : m.descriptor.kernelImage = map.image?

theorem Launched.logged (h : Launched map m) (hl : Logged m m') : Launched map m' where
  sound := h.sound.imp fun _ hsound => hl.still.quiet.sound hsound
  spaces := hl.still.spaces.trans h.spaces
  image := by rw [hl.descriptor, h.image]

theorem Fresh.ends_initFrames (h : Fresh m) (hmap : map.stop < Word.bound) :
    Ends (Manager.initFrames map) m (fun first m' => first = true → Launched map m')
      (fun _ _ => False) := by
  obtain ⟨stock, hsound⟩ := h.sound
  refine (Manager.ends_initFrames hsound hmap).mono (fun first m' hs hfirst => ?_) fun _ _ hf => hf
  rcases hs with ⟨-, hcovered⟩ | ⟨rfl, -⟩
  · refine ⟨⟨_, hcovered.calm.sound hsound⟩, ?_, ?_⟩
    · rw [← census_eq_none, hcovered.calm.census, census_eq_none, h.spaces]
    · rw [hcovered.image, h.image, Option.none_or]
  · cases hfirst

/-- What is known when the manager is started. -/
structure Prepared (responses : Responses) (ranges : List Range) (stack : Option Span)
    (config : Config) (map : BootMap) (m : Machine) : Prop extends Launched map m where
  /-- The map is made of the ranges, with the boot stack and the bootstrap heap split out. -/
  records : ∃ bootstrap, (∀ span ∈ bootstrap, SuitsHeap ranges stack span)
    ∧ map.records = bootRecords ranges (carveOuts stack bootstrap)
  base : config.kernelImageBase = imageBase responses map.image?

/-- Whatever the heap answers: where bring-up comes to start the manager, this is known. -/
theorem ends_prepare (h : Answers responses stackTop ranges offset stack) (fresh : Fresh m)
    (claim : HeapClaim) :
    Ends (prepare responses claim stackTop) m
      (fun prepared m' => Prepared responses ranges stack prepared.1 prepared.2 m')
      (fun _ _ => True) := by
  unfold prepare
  rw [h.mapped, h.described]
  simp only
  rw [ends_bind, ends_lift_ok h.standing, ends_bind]
  refine (ends_claimBootstrapHeap_shown h.words claim m).mono (fun bootstrap claimed hclaimed => ?_)
    fun _ _ _ => trivial
  obtain ⟨hlogged, hsuits⟩ := hclaimed
  obtain ⟨map, hmap, hrecords, hstop⟩ :=
    (tiled_bootRecords h.ordered (h.carveOuts_ordered hsuits)).ofRecords
  have hwords : map.stop < Word.bound := by
    rw [hstop]
    exact lastStop_lt_bound ranges
  simp only [hmap]
  -- before the allocator starts, the map is written to the log
  obtain ⟨described, hdescribed, hwritten⟩ : ∃ described,
      onStore (TableStore.writeAll map.describe) claimed = .ok () described
        ∧ Logged claimed described := ⟨_, rfl, _, rfl⟩
  rw [ends_bind, Ends, hdescribed]
  show Ends _ described _ _
  rw [ends_bind]
  refine ((fresh.logged (hlogged.trans hwritten)).ends_initFrames hwords).mono
    (fun first started hstarted => ?_) fun _ _ _ => trivial
  cases first with
  | false => trivial
  | true =>
    have launched := hstarted rfl
    rw [if_pos rfl, ends_bind]
    refine (ends_claimPool claim offset started).mono (fun _ pooled hpooled => ?_)
      fun _ _ _ => trivial
    rw [ends_bind]
    refine (ends_managerConfig responses offset pooled).mono (fun config ready hready => ?_)
      fun _ _ _ => trivial
    obtain ⟨hconfigured, hbase⟩ := hready
    rw [hpooled.descriptor, launched.image] at hbase
    exact ⟨launched.logged (hpooled.trans hconfigured), ⟨bootstrap, hsuits, hrecords⟩, hbase⟩

/-! ## The kernel image -/

/-- A kernel that the boot loader put into one of the ranges and is running at another address, in
the upper half.  The boot stack is elsewhere. -/
structure Loaded (responses : Responses) (ranges : List Range) (stack : Option Span)
    (range : Range) (virtual : VirtAddr) : Prop where
  listed : range ∈ ranges
  kind : range.kind = .kernelImage
  running : responses.executable = some (range.base, virtual)
  base_mod : range.base % frameSize = 0
  virtual_mod : virtual % frameSize = 0
  upper : Format.wide.userEnd ≤ virtual
  clear : ∀ span ∈ stack, ∀ address, range.Holds address → ¬ span.Holds address

/-- A range that is not free, and that the boot stack is not in, has nothing split out of it. -/
theorem clear_carveOuts {bootstrap : Option Span} (hr : RangesOrdered ranges)
    (hsuits : ∀ span ∈ bootstrap, SuitsHeap ranges stack span) (hrange : range ∈ ranges)
    (hkind : range.kind ≠ .free)
    (hstack : ∀ span ∈ stack, ∀ address, range.Holds address → ¬ span.Holds address) :
    range.Clear (carveOuts stack bootstrap) := by
  intro c hc address hholds hinside
  rcases mem_carveOuts.mp hc with ⟨span, hspan, rfl⟩ | ⟨span, hspan, rfl⟩
  · exact hstack span hspan address hholds hinside
  · -- the heap is in a free range
    obtain ⟨other, hother, hfree, hin⟩ := (hsuits span hspan).exists_range
    have hsame : other = range := eq_of_apart hr.apart hother hrange (hin address hinside) hholds
    rw [hsame] at hfree
    exact hkind hfree

/-- A range of whole pages that is not empty holds its base. -/
theorem Range.base_lt_stop (hword : range.base < Word.bound) (hmod : range.base % frameSize = 0)
    (hpos : range.length ≠ 0) : range.base < range.stop := by
  have hlast : Word.max % frameSize = 4095 := by decide
  have hbound : range.base < Word.max + 1 := hword
  unfold Range.stop Word.saturatingAdd
  grind

/-- A range whose last byte is below that of the last word ends where its length says. -/
theorem Range.stop_sub_base (h : range.base + (range.stop - range.base - 1) < Word.max - 1)
    (hlt : range.base < range.stop) : range.stop - range.base = range.length := by
  unfold Range.stop Word.saturatingAdd at *
  grind

/-- Where no range of its kind is below it, the running kernel stays mapped: if bring-up returns,
the kernel space translates the addresses at which the kernel runs to where it was loaded. -/
theorem bringUp_keeps_image (h : Answers responses stackTop ranges offset stack)
    (loaded : Loaded responses ranges stack range virtual)
    (lowest : ∀ other ∈ ranges, other.kind = .kernelImage → other.length ≠ 0 →
      range.base ≤ other.base)
    (fresh : Fresh m) (e : bringUp responses claim cpu stackTop m = .ok config m') :
    ∃ kernel, m'.kernelSpace = some kernel ∧ ∀ i < range.length,
      m'.translate .wide kernel (virtual + i) = .ok (some (range.base + i)) := by
  obtain ⟨map, prepared, kernel, hprepare, hinit⟩ := prepared_of_bringUp e
  have hprepared := (ends_prepare h fresh claim).of_ok hprepare
  obtain ⟨bootstrap, hsuits, hrecords⟩ := hprepared.records
  obtain ⟨stock, hsound⟩ := hprepared.sound
  refine ⟨kernel, Manager.kernelSpace_of_init hsound hprepared.spaces hinit, fun i hi => ?_⟩
  have hlt := Range.base_lt_stop (h.ordered.words range loaded.listed) loaded.base_mod (by omega)
  have hpublished : map.image? = some range.region.region :=
    image?_of_lowest h.ordered (h.carveOuts_ordered hsuits) hrecords loaded.listed loaded.kind hlt
      (clear_carveOuts h.ordered hsuits loaded.listed (by simp [loaded.kind]) loaded.clear) lowest
  have hbase : config.kernelImageBase = some virtual := by
    rw [hprepared.base, imageBase, loaded.running, hpublished]
    exact if_pos rfl
  have hpos : 0 < range.stop - range.base := Nat.sub_pos_of_lt hlt
  obtain ⟨hcheck, htranslate⟩ := Manager.init_shows_image hsound hprepared.spaces hbase
    (hprepared.image.trans hpublished) hpos (loaded.virtual_mod.trans loaded.base_mod.symm) hinit
  -- the image was in range, so the end of its range is no cut-off word
  obtain ⟨-, hlast, -⟩ := Manager.checkRange_eq_ok hpos hcheck
  have hwithin : Format.wide.physicalEnd ≤ Word.max - 1 := by decide
  have hsize := Range.stop_sub_base (Nat.lt_of_lt_of_le hlast hwithin) hlt
  have hnull : frameSize ≤ Format.wide.userEnd := by decide
  refine htranslate i ?_ (Nat.le_trans (Nat.le_trans hnull loaded.upper) (Nat.le_add_right _ _))
  show i < range.stop - range.base
  omega

/-- Where a range of its kind is below it, and holds something, the running kernel is not mapped as
an image: the manager is not even asked to. -/
theorem bringUp_drops_image (h : Answers responses stackTop ranges offset stack)
    (loaded : Loaded responses ranges stack range virtual) {other : Range}
    (listed : other ∈ ranges) (kind : other.kind = .kernelImage) (holds : other.base < other.stop)
    (clear : ∀ span ∈ stack, ∀ address, other.Holds address → ¬ span.Holds address)
    (lower : other.base < range.base) (fresh : Fresh m)
    (e : bringUp responses claim cpu stackTop m = .ok config m') :
    config.kernelImageBase = none := by
  obtain ⟨map, prepared, kernel, hprepare, -⟩ := prepared_of_bringUp e
  have hprepared := (ends_prepare h fresh claim).of_ok hprepare
  obtain ⟨bootstrap, hsuits, hrecords⟩ := hprepared.records
  have hdiffers := image?_of_lower h.ordered (h.carveOuts_ordered hsuits) hrecords listed kind holds
    (clear_carveOuts h.ordered hsuits listed (by simp [kind]) clear) lower
  rw [hprepared.base, imageBase, loaded.running]
  exact if_neg hdiffers

/-! ### Modules above the kernel and below it -/

/-- What the kernel tree shows at an address, if bring-up comes to build it and can. -/
def treeView (responses : Responses) (claim : HeapClaim) (stackTop : VirtAddr) (m : Machine)
    (virt : VirtAddr) : Option (Option PhysAddr) :=
  match prepare responses claim stackTop m with
  | .error _ _ => none
  | .ok (config, map) prepared =>
    match TableStore.addTable .wide Format.wide.topLevel false prepared.store with
    | .error _ _ => none
    | .ok root s =>
      match Manager.populate .wide config ⟨root, false⟩ map prepared.descriptor.kernelImage
        deviceWindows s with
      | .error _ _ => none
      | .ok _ s' => some ((s'.arena.view .wide root virt).map Prod.fst)

/-- Where the kernel tree can be built, bring-up returns, and translates an address as the tree
shows it. -/
theorem exists_bringUp (h : Answers responses stackTop ranges offset stack) (fresh : Fresh m)
    (cpu : CpuId) {found : Option PhysAddr}
    (hview : treeView responses claim stackTop m virtual = some found) :
    ∃ config m' kernel, bringUp responses claim cpu stackTop m = .ok config m'
      ∧ m'.kernelSpace = some kernel ∧ m'.translate .wide kernel virtual = .ok found := by
  unfold treeView at hview
  split at hview
  · cases hview
  · rename_i config map prepared hprepare
    split at hview
    · cases hview
    · rename_i root s hroot
      split at hview
      · cases hview
      · rename_i mapped s' hpopulate
        injection hview with hfound
        have hprepared := (ends_prepare h fresh claim).of_ok hprepare
        obtain ⟨stock, hsound⟩ := hprepared.sound
        obtain ⟨kernel, m', hinit, hdone, hinstalled⟩ :=
          Manager.exists_init cpu hsound hprepared.spaces hroot hpopulate
        refine ⟨config, m', kernel, bringUp_of_prepared hprepare hinit, hinstalled.kernelSpace, ?_⟩
        rw [hinstalled.translate hdone.started.sound, hfound]

/-- A loader that put the kernel at 0x3000, has it run in the upper half, and shows memory in the
lower half. -/
def kernelAt (ranges : List Range) : Responses :=
  ⟨some ranges, some 0x200000000000, some (0x3000, 0xFFFFFFFF80000000)⟩

/-- Where the kernel was put. -/
def kernelRange : Range := ⟨0x3000, 0x4000, kindOfEntry 6⟩

/-- The kernel, a module above it, and memory. -/
def moduleAbove : List Range :=
  [kernelRange, ⟨0x8000, 0x2000, kindOfEntry 6⟩, ⟨0x10000, 0x40000, kindOfEntry 0⟩]

/-- The kernel, a module below it, and memory. -/
def moduleBelow : List Range :=
  [⟨0x1000, 0x2000, kindOfEntry 6⟩, kernelRange, ⟨0x10000, 0x40000, kindOfEntry 0⟩]

theorem moduleAbove_ordered : RangesOrdered moduleAbove :=
  .of_stops (by decide) (by decide) (by decide)

theorem moduleBelow_ordered : RangesOrdered moduleBelow :=
  .of_stops (by decide) (by decide) (by decide)

/-- Of the memory, the boot stack takes the first 64 KiB. -/
theorem kernelAt_answers (hordered : RangesOrdered ranges) :
    Answers (kernelAt ranges) 0x200000020000 ranges 0x200000000000 (some ⟨0x10000, 0x20000⟩) :=
  ⟨rfl, rfl, hordered, by decide +kernel⟩

theorem kernelAt_loaded (listed : kernelRange ∈ ranges) :
    Loaded (kernelAt ranges) ranges (some ⟨0x10000, 0x20000⟩) kernelRange 0xFFFFFFFF80000000 where
  listed := listed
  kind := rfl
  running := rfl
  base_mod := by decide
  virtual_mod := by decide
  upper := by decide
  clear := by
    rintro _ ⟨⟩ address ⟨-, hlt⟩ ⟨hge, -⟩
    have hstop : address < 0x7000 := hlt
    have hlow : 0x10000 ≤ address := hge
    omega

theorem bringUp_keeps_image_moduleAbove : ∃ config m',
    Answers (kernelAt moduleAbove) 0x200000020000 moduleAbove 0x200000000000
        (some ⟨0x10000, 0x20000⟩)
      ∧ Loaded (kernelAt moduleAbove) moduleAbove (some ⟨0x10000, 0x20000⟩) kernelRange
        0xFFFFFFFF80000000
      ∧ (∀ other ∈ moduleAbove, other.kind = .kernelImage → other.length ≠ 0 →
        kernelRange.base ≤ other.base)
      ∧ Fresh (powerOn poolPages)
      ∧ bringUp (kernelAt moduleAbove) (fun _ _ => true) 0 0x200000020000 (powerOn poolPages)
        = .ok config m'
      ∧ ∃ kernel, m'.kernelSpace = some kernel ∧ ∀ i < 0x4000,
        m'.translate .wide kernel (0xFFFFFFFF80000000 + i) = .ok (some (0x3000 + i)) := by
  have answers := kernelAt_answers moduleAbove_ordered
  have loaded : Loaded (kernelAt moduleAbove) moduleAbove (some ⟨0x10000, 0x20000⟩) kernelRange
      0xFFFFFFFF80000000 := kernelAt_loaded (by decide)
  have lowest : ∀ other ∈ moduleAbove, other.kind = .kernelImage → other.length ≠ 0 →
      kernelRange.base ≤ other.base := by decide
  have hview : treeView (kernelAt moduleAbove) (fun _ _ => true) 0x200000020000
      (powerOn poolPages) 0xFFFFFFFF80000000 = some (some 0x3000) := by decide +kernel
  obtain ⟨config, m', -, run, -⟩ := exists_bringUp answers (fresh_powerOn poolPages) 0 hview
  exact ⟨config, m', answers, loaded, lowest, fresh_powerOn poolPages, run,
    bringUp_keeps_image answers loaded lowest (fresh_powerOn poolPages) run⟩

/-- The ranges are in order and of whole pages, the kernel is one of them, it runs in range and off
the direct map, and the boot stack is elsewhere.  Bring-up returns, and the kernel space does not
map the first byte of the kernel. -/
theorem bringUp_unmaps_image : ∃ config m' kernel,
    Answers (kernelAt moduleBelow) 0x200000020000 moduleBelow 0x200000000000
        (some ⟨0x10000, 0x20000⟩)
      ∧ (∀ range ∈ moduleBelow, range.base % frameSize = 0 ∧ range.length % frameSize = 0)
      ∧ Loaded (kernelAt moduleBelow) moduleBelow (some ⟨0x10000, 0x20000⟩) kernelRange
        0xFFFFFFFF80000000
      ∧ Manager.checkRange .wide 0xFFFFFFFF80000000 kernelRange.base kernelRange.length = .ok ()
      ∧ (∀ range ∈ moduleBelow, range.stop + 0x200000000000 ≤ 0xFFFFFFFF80000000)
      ∧ bringUp (kernelAt moduleBelow) (fun _ _ => true) 0 0x200000020000 (powerOn poolPages)
        = .ok config m'
      ∧ m'.kernelSpace = some kernel
      ∧ m'.translate .wide kernel 0xFFFFFFFF80000000 = .ok none := by
  have answers := kernelAt_answers moduleBelow_ordered
  have hview : treeView (kernelAt moduleBelow) (fun _ _ => true) 0x200000020000
      (powerOn poolPages) 0xFFFFFFFF80000000 = some none := by decide +kernel
  obtain ⟨config, m', kernel, run, hkernel, htranslate⟩ :=
    exists_bringUp answers (fresh_powerOn poolPages) 0 hview
  exact ⟨config, m', kernel, answers, by decide, kernelAt_loaded (by decide), by decide, by decide,
    run, hkernel, htranslate⟩

end Boot

end KernelMemory
