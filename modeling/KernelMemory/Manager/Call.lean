/-
  KernelMemory.Manager.Call — everything that can be asked of the frame allocator and the
  memory manager, as data, and runs made of it.

  A call is made on a processor.  It changes the machine whether it succeeds or is refused;
  a fault ends the run.  Results stated here:
    * `run_append` — a run in two parts is the one run after the other.
-/

import KernelMemory.Manager.Operations

namespace KernelMemory

/-- What can be asked of the frame allocator and the memory manager. -/
inductive Call where
  /-- Start the frame allocator with a boot map. -/
  | initFrames (map : BootMap)
  | allocatePage
  | allocateBlock (order : Nat) (zone : Zone)
  | freePage (address : PhysAddr)
  | freeBlock (address : PhysAddr) (order : Nat)
  /-- Start the memory manager with a boot map and the device windows to map. -/
  | init (map : BootMap) (windows : List DeviceWindow)
  | mapKernel (address : PhysAddr) (size : Nat) (policy : CachePolicy)
  | createSpace
  | deleteSpace (space : AddressSpace)
  | mapUser (space : AddressSpace) (virt : VirtAddr) (phys : PhysAddr) (size : Nat)
  | enterKernel
  | leaveKernel
  | switchTo (space : AddressSpace)

/-- What a call that was not refused answers. -/
inductive Answer where
  | done
  /-- Whether this was the first start. -/
  | first (isFirst : Bool)
  /-- The frame or block handed out. -/
  | frame (result : Except FrameError PhysAddr)
  /-- The address space made. -/
  | space (space : AddressSpace)

namespace Manager

open Machine

/-- Makes a call on a processor. -/
def perform (format : Format) (config : Config) (cpu : CpuId) : Call → MachineSteps Answer
  | .initFrames map => do return .first (← uninterrupted cpu (initFrames map))
  | .allocatePage => do return .frame (← uninterrupted cpu (onStore TableStore.allocatePage))
  | .allocateBlock order zone => do
    return .frame (← uninterrupted cpu (onStore (TableStore.allocateBlock order zone)))
  | .freePage address => do
    uninterrupted cpu (onStore (TableStore.freePage address))
    return .done
  | .freeBlock address order => do
    uninterrupted cpu (onStore (TableStore.freeBlock address order))
    return .done
  | .init map windows => do return .space (← init format config cpu map windows)
  | .mapKernel address size policy => do
    mapKernel format config cpu address size policy
    return .done
  | .createSpace => do return .space (← createSpace format cpu)
  | .deleteSpace space => do
    deleteSpace format cpu space
    return .done
  | .mapUser space virt phys size => do
    mapUser format config cpu space virt phys size
    return .done
  | .enterKernel => do
    enterKernel cpu
    return .done
  | .leaveKernel => do
    leaveKernel cpu
    return .done
  | .switchTo space => do
    switchTo cpu space
    return .done

/-- The machine after a call, whatever its result; a fault leaves no machine. -/
def after (format : Format) (config : Config) (m : Machine) (call : CpuId × Call) :
    Except Fault Machine :=
  match perform format config call.1 call.2 m with
  | .ok _ m => .ok m
  | .error (.refused _) m => .ok m
  | .error (.fault fault) _ => .error fault

/-- The machine after calls made one after another, each on its processor. -/
def run (format : Format) (config : Config) (m : Machine) (calls : List (CpuId × Call)) :
    Except Fault Machine :=
  calls.foldlM (after format config) m

@[simp] theorem run_nil (format : Format) (config : Config) (m : Machine) :
    run format config m [] = .ok m := rfl

theorem run_cons (format : Format) (config : Config) (m : Machine) (call : CpuId × Call)
    (calls : List (CpuId × Call)) :
    run format config m (call :: calls)
      = (after format config m call).bind fun m => run format config m calls := by
  simp [run, bind]

theorem run_append (format : Format) (config : Config) (m : Machine)
    (calls more : List (CpuId × Call)) :
    run format config m (calls ++ more)
      = (run format config m calls).bind fun m => run format config m more := by
  simp [run, bind]

end Manager

end KernelMemory
