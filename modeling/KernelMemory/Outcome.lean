/-
  KernelMemory.Outcome — why an operation of the memory manager was refused, and how
  operations end.
-/

import KernelMemory.Fault
import KernelMemory.Frames.Allocator

namespace KernelMemory

/-- Why the memory manager refused an operation. -/
inductive MemoryError where
  | notInitialized
  | outOfMemory
  | bootstrapOnly
  | incompatible
  | notActive
  | kernelSpace
  | notUserAddress
  | addressOutOfRange
  | nestedKernelEntry
  | notInKernel
  | unknownAddressSpace
  | addressSpaceActive
  | unsupportedMode
  deriving DecidableEq, Repr

namespace MemoryError

/-- The text of an error. -/
def message : MemoryError → String
  | notInitialized => "the memory manager has not been initialized"
  | outOfMemory => "out of physical memory for translation tables"
  | bootstrapOnly => "new top-level kernel entries can only be created during bootstrap"
  | incompatible => "the range overlaps an incompatible existing mapping"
  | notActive => "the address space is not the active one"
  | kernelSpace => "the operation is not allowed on the kernel address space"
  | notUserAddress => "the range is outside the user half of the address space"
  | addressOutOfRange => "the address cannot be expressed by this translation format"
  | nestedKernelEntry => "already running on the kernel address space through enter_kernel"
  | notInKernel => "leave_kernel without a matching enter_kernel"
  | unknownAddressSpace => "the address space is not known to this memory manager"
  | addressSpaceActive => "the address space is active or saved and cannot be destroyed"
  | unsupportedMode => "the CPU cannot run this translation format"

/-- The word an error goes by. -/
def name : MemoryError → String
  | notInitialized => "NotInitialized"
  | outOfMemory => "OutOfMemory"
  | bootstrapOnly => "BootstrapOnly"
  | incompatible => "Incompatible"
  | notActive => "NotActive"
  | kernelSpace => "KernelSpace"
  | notUserAddress => "NotUserAddress"
  | addressOutOfRange => "AddressOutOfRange"
  | nestedKernelEntry => "NestedKernelEntry"
  | notInKernel => "NotInKernel"
  | unknownAddressSpace => "UnknownAddressSpace"
  | addressSpaceActive => "AddressSpaceActive"
  | unsupportedMode => "UnsupportedMode"

/-- Every error. -/
def all : List MemoryError :=
  [notInitialized, outOfMemory, bootstrapOnly, incompatible, notActive, kernelSpace,
    notUserAddress, addressOutOfRange, nestedKernelEntry, notInKernel, unknownAddressSpace,
    addressSpaceActive, unsupportedMode]

theorem mem_all (error : MemoryError) : error ∈ all := by cases error <;> decide

/-- What a missing frame means to the memory manager. -/
def ofFrameError : FrameError → MemoryError
  | .notInitialized => notInitialized
  | .outOfMemory => outOfMemory
  | .orderTooLarge _ => outOfMemory

end MemoryError

/-! ## Ways to stop -/

/-- Why an operation did not run to its end. -/
inductive Failure where
  /-- It was refused; the caller is told. -/
  | refused (error : MemoryError)
  /-- A contract was broken; the kernel stops. -/
  | fault (fault : Fault)
  deriving DecidableEq, Repr

/-- Steps on a state that may stop early.  What was done before stays done. -/
abbrev Steps (σ : Type) := EStateM Failure σ

namespace Steps

/-- Stops because the operation is refused. -/
def refuse (error : MemoryError) : Steps σ α := throw (.refused error)

/-- Stops because a contract is broken. -/
def stop (fault : Fault) : Steps σ α := throw (.fault fault)

/-- Runs steps to their end or to a refusal, which becomes a value. -/
def attempt (steps : Steps σ α) : Steps σ (Except MemoryError α) := fun state =>
  match steps state with
  | .ok a state => .ok (.ok a) state
  | .error (.refused error) state => .ok (.error error) state
  | .error (.fault fault) state => .error (.fault fault) state

/-- Goes on with a value, or stops with its refusal. -/
def ofResult : Except MemoryError α → Steps σ α
  | .ok a => pure a
  | .error error => refuse error

instance : MonadLift (Except Fault) (Steps σ) where
  monadLift
    | .ok a => pure a
    | .error fault => stop fault

end Steps

end KernelMemory
