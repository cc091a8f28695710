/-
  KernelMemory.Proofs.Manager.ImageView — the kernel image in the kernel space.

  When the manager is started, the regions of the boot map are mapped first, then the kernel image
  that is published, where the configuration says that it runs, and then the device windows.  What
  is mapped at the image's addresses stays mapped to the same frames, as the windows only fill
  slots that are empty or keep the frame.  A start that cannot map the image does not return.

  Main results:
    * `ends_mapImage_shown`, `ends_populate_shown` — the image in the tree that is built;
    * `init_shows_image` — the image in the kernel space after the start.
-/

import KernelMemory.Proofs.Manager.Starting

namespace KernelMemory

/-- The bytes of a region are seen under a root from an address on, page 0 apart. -/
def Arena.Shown (format : Format) (a : Arena) (root : TableId) (virt : Nat) (image : MemoryRegion) :
    Prop :=
  ∀ i < image.size, frameSize ≤ virt + i →
    ∃ flags, a.view format root (virt + i) = some (image.base + i, flags)

/-- What was seen stays so as slots are filled. -/
theorem Arena.Shown.grows {format : Format} {a b : Arena} {root : TableId} {virt : Nat}
    {image : MemoryRegion} (h : a.Shown format root virt image) (grows : Grows a b) :
    b.Shown format root virt image := by
  intro i hi hnull
  obtain ⟨flags, hview⟩ := h i hi hnull
  exact view_grows grows hview

namespace Manager

open Machine Steps

variable {format : Format} {config : Config} {tree : KernelTree} {stock : Stock} {s : TableStore}
  {m m' : Machine} {cpu : CpuId} {virt : VirtAddr} {image : MemoryRegion}

/-- The pages of a range that was checked hold all of it, where the two sides of it start alike in
their pages. -/
theorem covers_viewRequest {virt phys size : Nat} {flags : PageFlags} (hpos : 0 < size)
    (h : checkRange format virt phys size = .ok ()) (alike : virt % frameSize = phys % frameSize)
    {i : Nat} (hi : i < size) (hnull : frameSize ≤ virt + i) :
    (viewRequest config tree virt phys size flags).Covers (virt + i) (phys + i) := by
  obtain ⟨-, hlast, -⟩ := checkRange_eq_ok hpos h
  have hle := format.physicalEnd_le
  obtain ⟨v, p, length, hb⟩ := exists_pageBounds virt phys (show size ≤ 2 ^ 52 by omega)
  obtain ⟨hv, hp, hl, hvle, hvlt, hple, hplt, hend, -⟩ := pageBounds_spec hb
  refine (MapRequest.covers_iff hb).mpr ⟨hnull, ?_⟩
  unfold Part
  simp only [frameSize] at *
  omega

/-- The image was checked, and is seen where it is to run. -/
structure ImageShown (format : Format) (root : TableId) (virt : VirtAddr) (image : MemoryRegion)
    (s : TableStore) : Prop where
  checked : checkRange format virt image.base image.size = .ok ()
  shown : s.arena.Shown format root virt image

/-- Mapping the image shows it. -/
theorem ends_mapImage_shown (h : TreeReady format tree stock s)
    (hbase : config.kernelImageBase = some virt) (hpos : 0 < image.size)
    (alike : virt % frameSize = image.base % frameSize) :
    Ends (mapImage format config tree (some image)) s
      (fun _ s' => ImageShown format tree.root virt image s') (onRefusal fun _ _ => True) := by
  unfold mapImage
  rw [hbase]
  simp only
  rw [ends_bind, mapView_eq (Nat.ne_of_gt hpos), ends_bind, ends_ofResult]
  refine ⟨fun _ hcheck => ?_, fun _ _ => trivial⟩
  have ready : (viewRequest config tree virt image.base image.size PageFlags.kernelData).Ready format
      tree.root s := ⟨.of_checkRange rfl hpos hcheck, h.root⟩
  refine (Walk.ends_mapRange h.orderly ready).weaken (fun _ s' hs => ?_) fun _ _ _ => trivial
  rw [TableStore.ends_write]
  exact ⟨hcheck, fun i hi hnull =>
    ⟨_, hs.overlaid.inside (covers_viewRequest hpos hcheck alike hi hnull)⟩⟩

/-- The tree that is built shows the image. -/
theorem ends_populate_shown {map : BootMap} {windows : List DeviceWindow}
    (h : TreeReady format tree stock s) (hbase : config.kernelImageBase = some virt)
    (hpos : 0 < image.size) (alike : virt % frameSize = image.base % frameSize) :
    Ends (populate format config tree map (some image) windows) s
      (fun _ s' => ImageShown format tree.root virt image s') (onRefusal fun _ _ => True) := by
  rw [populate, ends_bind]
  refine (ends_mapRegions h).weaken
    (fun _ s₁ (h₁ : KernelEdits format config tree (some image) s s₁) => ?_) fun _ _ _ => trivial
  have ready₁ := h.edits h₁
  rw [ends_bind]
  refine ((ends_mapImage ready₁).and (ends_mapImage_shown ready₁ hbase hpos alike)).mono
    (fun _ s₂ h₂ => ?_) fun f _ hf => ?_
  · have ready₂ := ready₁.edits h₂.1
    refine (ends_mapWindows ready₂).weaken
      (fun _ s₃ (h₃ : KernelEdits format config tree (some image) s₂ s₃) => ?_) fun _ _ _ => trivial
    exact ⟨h₂.2.checked, h₂.2.shown.grows
      (h₃.grows ready₂.orderly (allReady_kernel tree ready₂.root))⟩
  · cases f with
    | refused error => trivial
    | fault fault => exact hf.2

/-- The space that a start tells of is the kernel space. -/
theorem kernelSpace_of_init {map : BootMap} {windows : List DeviceWindow} {space : AddressSpace}
    (h : m.Sound format stock) (hspaces : m.spaces = none)
    (e : init format config cpu map windows m = .ok space m') : m'.kernelSpace = some space := by
  have hends : Ends (init format config cpu map windows) m _ _ :=
    ends_init_of_populate h hspaces (fun _ _ => True) (fun _ => True) fun _ hfirst =>
      (ends_populate hfirst.ready).weaken (fun _ _ _ => trivial) fun _ _ _ => trivial
  obtain ⟨-, -, _, _, -, hinstalled⟩ := hends.of_ok e
  exact hinstalled.kernelSpace

/-- Where the manager starts, the kernel space translates the addresses at which the published image
is to run to the image. -/
theorem init_shows_image {map : BootMap} {windows : List DeviceWindow} {space : AddressSpace}
    (h : m.Sound format stock) (hspaces : m.spaces = none)
    (hbase : config.kernelImageBase = some virt) (himage : m.descriptor.kernelImage = some image)
    (hpos : 0 < image.size) (alike : virt % frameSize = image.base % frameSize)
    (e : init format config cpu map windows m = .ok space m') :
    checkRange format virt image.base image.size = .ok ()
      ∧ ∀ i < image.size, frameSize ≤ virt + i →
        m'.translate format space (virt + i) = .ok (some (image.base + i)) := by
  have hends : Ends (init format config cpu map windows) m _ _ :=
    ends_init_of_populate h hspaces (fun root s => ImageShown format root virt image s)
      (fun _ => True) fun _ hfirst => by
        rw [himage]
        exact ends_populate_shown hfirst.ready hbase hpos alike
  obtain ⟨hinit, -, root, s, hshown, hinstalled⟩ := hends.of_ok e
  refine ⟨hshown.checked, fun i hi hnull => ?_⟩
  obtain ⟨flags, hview⟩ := hshown.shown i hi hnull
  rw [hinstalled.translate hinit.started.sound, hview]
  rfl

end Manager

end KernelMemory
