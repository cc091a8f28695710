/-
  KernelMemory.Lock — critical sections: locks that keep interrupts off while they are held.

  A guard remembers whether interrupts were enabled when it was made, disables them, and
  restores what it remembers when it is dropped.  A lock's guard also holds the lock.  Guards
  may be dropped in any order.
-/

import KernelMemory.Cpu

namespace KernelMemory

/-- Names a lock. -/
abbrev LockId := Nat

/-- A guard that is alive. -/
structure Guard where
  /-- What the interrupt flag was when the guard was made. -/
  wereEnabled : Bool
  /-- The lock the guard holds, if it is not a bare interrupt guard. -/
  lock : Option LockId
  deriving DecidableEq, Repr

/-- A processor's interrupt flag, and the guards alive on it by name. -/
structure Sections where
  interrupts : Bool
  guards : List (Nat × Guard)
  /-- The name of the next guard. -/
  next : Nat
  deriving DecidableEq, Repr

namespace Sections

/-- No guard is alive. -/
def start (interrupts : Bool) : Sections := ⟨interrupts, [], 0⟩

/-- Whether a guard holds the lock. -/
def isHeld (s : Sections) (lock : LockId) : Bool :=
  s.guards.any fun (_, guard) => guard.lock == some lock

/-- Whether a guard of that name is alive. -/
def isAlive (s : Sections) (name : Nat) : Bool := (s.guards.lookup name).isSome

/-- The newest guard alive that holds a lock. -/
def newestHolder (s : Sections) : Option Nat :=
  (s.guards.find? fun (_, guard) => guard.lock.isSome).map Prod.fst

/-- Disables interrupts under a new guard, which is the newest. -/
def push (s : Sections) (lock : Option LockId) : Sections :=
  ⟨false, (s.next, ⟨s.interrupts, lock⟩) :: s.guards, s.next + 1⟩

/-- Drops a guard: releases its lock and restores what it remembers. -/
def drop (s : Sections) (name : Nat) : Sections :=
  match s.guards.lookup name with
  | none => s
  | some guard =>
    ⟨guard.wereEnabled || s.interrupts, s.guards.filter (fun entry => entry.1 != name), s.next⟩

/-- Makes a bare interrupt guard. -/
def disable (s : Sections) : Sections := s.push none

/-- Takes a lock, which must be free: waiting for one held on the same processor never
ends. -/
def acquire (s : Sections) (lock : LockId) : Option Sections :=
  if s.isHeld lock then none else some (s.push (some lock))

/-- Takes a lock if it is free.  Otherwise the guard made for the attempt is dropped at
once. -/
def tryAcquire (s : Sections) (lock : LockId) : Bool × Sections :=
  if s.isHeld lock then (false, s.disable.drop s.next) else (true, s.push (some lock))

end Sections

end KernelMemory
