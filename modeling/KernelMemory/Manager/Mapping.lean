/-
  KernelMemory.Manager.Mapping — mapping ranges into the kernel space.

  Kernel memory is seen at its own address and, where the configuration says so, once more
  at an offset.  Both views are checked before either is touched.
-/

import KernelMemory.Manager.State

namespace KernelMemory

namespace Manager

/-- Checks that a range can be expressed by the format, virtually and physically. -/
def checkRange (format : Format) (virt : VirtAddr) (phys : PhysAddr) (size : Nat) :
    Except MemoryError Unit :=
  if size = 0 then .ok ()
  else
    match Word.add? virt (size - 1), Word.add? phys (size - 1) with
    | some lastVirt, some lastPhys =>
      if format.virtualRangeInRange virt lastVirt && format.physicalInRange lastPhys then .ok ()
      else .error .addressOutOfRange
    | _, _ => .error .addressOutOfRange

/-- The kernel tree as an operation finds it: its root table, and whether that may get new
slots. -/
structure KernelTree where
  root : TableId
  rootSealed : Bool
  deriving DecidableEq, Repr

/-- Maps a range into the kernel tree. -/
def mapView (format : Format) (config : Config) (tree : KernelTree) (virt : VirtAddr)
    (phys : PhysAddr) (size : Nat) (flags : PageFlags) : TableSteps MapSummary := do
  if size = 0 then
    return {}
  else
    Steps.ofResult (checkRange format virt phys size)
    Walk.mapRange format
      { root := tree.root, virt := virt, phys := phys, size := size, flags := flags,
        rootSealed := tree.rootSealed, user := false, largePages := config.largePages }

/-- The second address of kernel memory, where one is configured. -/
def secondView (config : Config) (address : PhysAddr) : Except MemoryError (Option VirtAddr) :=
  match config.directMapOffset with
  | none => .ok none
  | some offset =>
    match Word.add? address offset with
    | some virt => .ok (some virt)
    | none => .error .addressOutOfRange

/-- Maps kernel memory in all its views; tells whether an entry changed. -/
def mapViews (format : Format) (config : Config) (tree : KernelTree) (address : PhysAddr)
    (size : Nat) (policy : CachePolicy) : TableSteps Bool := do
  let flags := PageFlags.kernelData.withCachePolicy policy
  let second ← Steps.ofResult (secondView config address)
  Steps.ofResult (checkRange format (VirtAddr.identity address) address size)
  match second with
  | none =>
    let identity ← mapView format config tree (VirtAddr.identity address) address size flags
    return identity.changed
  | some virt =>
    Steps.ofResult (checkRange format virt address size)
    let identity ← mapView format config tree (VirtAddr.identity address) address size flags
    let shifted ← mapView format config tree virt address size flags
    return identity.changed || shifted.changed

/-! ## The kernel tree at start -/

/-- The part of a boot region that the format can map at its own address. -/
def reachable (format : Format) (region : BootRegion) : TableSteps (Option MemoryRegion) := do
  let limit := min format.physicalEnd format.identityEnd
  if limit ≤ region.base then
    TableStore.write .warn
      s!"{region.kind.name} region at {hex region.base} is beyond {format.name} reach"
    return none
  else if limit < region.stop then
    let kept := Size.text (limit - region.base)
    TableStore.write .warn
      s!"{region.kind.name} region at {hex region.base} clipped to {kept} of {Size.text region.size}"
    return some ⟨region.base, limit - region.base⟩
  else
    return some region.region

/-- The policy a boot region is mapped with. -/
def regionPolicy (region : BootRegion) : CachePolicy :=
  if region.isUncached then .uncached else .writeBack

/-- Maps boot regions, each in all its views. -/
def mapRegions (format : Format) (config : Config) (tree : KernelTree) :
    List BootRegion → TableSteps Unit
  | [] => return ()
  | region :: rest => do
    match ← reachable format region with
    | none => pure ()
    | some part =>
      let policy := regionPolicy region
      let _ ← mapViews format config tree part.base part.size policy
      TableStore.write .debug
        s!"mapped {region.kind.name} {hex part.base}..{hex part.stop} {policy.name}"
    mapRegions format config tree rest

/-- Maps the kernel image where it is linked to run. -/
def mapImage (format : Format) (config : Config) (tree : KernelTree)
    (image : Option MemoryRegion) : TableSteps Unit :=
  match config.kernelImageBase with
  | none => return ()
  | some virt =>
    match image with
    | none => TableStore.write .warn "kernel image base set but no kernel image region known"
    | some region => do
      let _ ← mapView format config tree virt region.base region.size PageFlags.kernelData
      TableStore.write .debug s!"mapped kernel image {region.text} at {hex virt}"

/-- Maps device windows; tells which were mapped.  A window that cannot be mapped is passed
over, unless for want of memory. -/
def mapWindows (format : Format) (config : Config) (tree : KernelTree) :
    List DeviceWindow → TableSteps (List DeviceWindow)
  | [] => return []
  | window :: rest => do
    match ← Steps.attempt (mapViews format config tree window.base window.size window.policy) with
    | .ok _ =>
      TableStore.write .debug s!"mapped device window {window.text}"
      return window :: (← mapWindows format config tree rest)
    | .error .outOfMemory => Steps.refuse .outOfMemory
    | .error error =>
      TableStore.write .warn s!"device window {window.text} skipped: {error.message}"
      mapWindows format config tree rest

/-- Builds the kernel tree of a boot map; tells which device windows were mapped. -/
def populate (format : Format) (config : Config) (tree : KernelTree) (map : BootMap)
    (image : Option MemoryRegion) (windows : List DeviceWindow) :
    TableSteps (List DeviceWindow) := do
  mapRegions format config tree (map.regions.filter BootRegion.isMapped)
  mapImage format config tree image
  mapWindows format config tree windows

end Manager

end KernelMemory
