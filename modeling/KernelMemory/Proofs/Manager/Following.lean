/-
  KernelMemory.Proofs.Manager.Following — building the kernel tree where there is more room.

  What the manager maps at its start it maps range by range, so a relation between stores that is kept
  when a range is mapped is kept by all of it.
-/

import KernelMemory.Manager.Operations
import KernelMemory.Proofs.Paging.Following

namespace KernelMemory

open Manager Steps

namespace TableStore.Respected

variable {excused : Failure → Prop} {R : TableStore → TableStore → Prop} {format : Format}
  {config : Config} {tree : KernelTree}

theorem mapView (h : Respected excused R) {virt phys size : Nat} {flags : PageFlags} :
    Follows excused R (mapView format config tree virt phys size flags) := by
  unfold Manager.mapView
  split
  · exact (lockstep_pure _).follows
  · exact (lockstep_ofResult _).follows.bind fun _ => h.mapRange

theorem mapViews (h : Respected excused R) {address size : Nat} {policy : CachePolicy} :
    Follows excused R (mapViews format config tree address size policy) := by
  unfold Manager.mapViews
  apply (lockstep_ofResult _).follows.bind
  intro second
  apply (lockstep_ofResult _).follows.bind
  intro _
  cases second with
  | none => exact h.mapView.bind fun _ => (lockstep_pure _).follows
  | some virt =>
    exact (lockstep_ofResult _).follows.bind fun _ => h.mapView.bind fun _ =>
      h.mapView.bind fun _ => (lockstep_pure _).follows

theorem reachable (h : Respected excused R) (region : BootRegion) :
    Follows excused R (reachable format region) := by
  unfold Manager.reachable
  simp only
  split
  · exact (h.write _ _).bind fun _ => (lockstep_pure _).follows
  · split
    · exact (h.write _ _).bind fun _ => (lockstep_pure _).follows
    · exact (lockstep_pure _).follows

theorem mapRegions (h : Respected excused R) : ∀ {regions : List BootRegion},
    Follows excused R (mapRegions format config tree regions) := by
  intro regions
  induction regions with
  | nil => exact (lockstep_pure _).follows
  | cons region rest ih =>
    rw [Manager.mapRegions]
    apply (h.reachable region).bind_option
    · intro part
      exact h.mapViews.bind fun _ => (h.write _ _).bind fun _ => ih
    · exact ih

theorem mapImage (h : Respected excused R) {image : Option MemoryRegion} :
    Follows excused R (mapImage format config tree image) := by
  unfold Manager.mapImage
  split
  · exact (lockstep_pure _).follows
  · split
    · exact h.write _ _
    · exact h.mapView.bind fun _ => h.write _ _

end TableStore.Respected

end KernelMemory
