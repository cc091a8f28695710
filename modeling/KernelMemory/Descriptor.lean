/-
  KernelMemory.Descriptor — what the memory subsystem tells the rest of the kernel: where
  the kernel image, the boot stack and the heap pool are, and which device windows are
  mapped.

  Each fact is published once: the first publication stands, later ones change nothing.
-/

import KernelMemory.Paging.Flags
import KernelMemory.Region

namespace KernelMemory

/-! ## Device windows -/

/-- A range of device registers the kernel needs mapped. -/
structure DeviceWindow where
  base : PhysAddr
  size : Nat
  policy : CachePolicy := .uncached
  deriving DecidableEq, Repr

namespace DeviceWindow

/-- The window as bounds and cache policy; the end is cut off at the largest word and
written in decimal. -/
def text (window : DeviceWindow) : String :=
  s!"{hex window.base}..{Word.saturatingAdd window.base window.size} ({window.policy.name})"

/-- Technical form of a window. -/
def debug (window : DeviceWindow) : String :=
  s!"DeviceWindow \x7b base: {window.base.debug}, size: {window.size}, policy: {window.policy.name} \x7d"

end DeviceWindow

/-! ## The descriptor -/

/-- The published facts. -/
structure Descriptor where
  kernelImage : Option MemoryRegion := none
  kernelStack : Option MemoryRegion := none
  heap : Option MemoryRegion := none
  deviceWindows : Option (List DeviceWindow) := none
  deriving DecidableEq, Repr

namespace Descriptor

/-- Publishes the kernel image; tells whether this was the first time. -/
def publishKernelImage (d : Descriptor) (region : MemoryRegion) : Bool × Descriptor :=
  (d.kernelImage.isNone, { d with kernelImage := d.kernelImage.or (some region) })

/-- Publishes the boot stack; tells whether this was the first time. -/
def publishKernelStack (d : Descriptor) (region : MemoryRegion) : Bool × Descriptor :=
  (d.kernelStack.isNone, { d with kernelStack := d.kernelStack.or (some region) })

/-- Publishes the heap pool; tells whether this was the first time. -/
def publishHeap (d : Descriptor) (region : MemoryRegion) : Bool × Descriptor :=
  (d.heap.isNone, { d with heap := d.heap.or (some region) })

/-- Publishes the mapped device windows; tells whether this was the first time. -/
def publishDeviceWindows (d : Descriptor) (windows : List DeviceWindow) : Bool × Descriptor :=
  (d.deviceWindows.isNone, { d with deviceWindows := d.deviceWindows.or (some windows) })

/-- The published device windows; none until they are published. -/
def windows (d : Descriptor) : List DeviceWindow := d.deviceWindows.getD []

/-- Technical form of a region that may be unpublished. -/
def debugRegion : Option MemoryRegion → String
  | none => "None"
  | some region => s!"Some({region.debug})"

/-- Technical form of the descriptor. -/
def debug (d : Descriptor) : String :=
  let image := debugRegion d.kernelImage
  let stack := debugRegion d.kernelStack
  let heap := debugRegion d.heap
  let windows := ", ".intercalate (d.windows.map DeviceWindow.debug)
  s!"KernelDescriptor \x7b kernel_image: {image}, kernel_stack: {stack}, heap: {heap}, device_windows: [{windows}] \x7d"

/-- Stops the kernel because a condition it relies on does not hold. -/
def fatal (text : String) : Except Fault α := .error (.contractViolated text)

@[simp] theorem kernelImage_publishKernelImage (d : Descriptor) (region : MemoryRegion) :
    (d.publishKernelImage region).2.kernelImage = some (d.kernelImage.getD region) := by
  cases h : d.kernelImage <;> simp [publishKernelImage, h]

@[simp] theorem heap_publishHeap (d : Descriptor) (region : MemoryRegion) :
    (d.publishHeap region).2.heap = some (d.heap.getD region) := by
  cases h : d.heap <;> simp [publishHeap, h]

end Descriptor

end KernelMemory
