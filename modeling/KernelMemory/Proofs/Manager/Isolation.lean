/-
  KernelMemory.Proofs.Manager.Isolation — what one address space sees of what is done to others.

  All spaces live in one store of tables, names of tables and frames are used again, and the
  upper halves of all roots share their tables.  Still mapping user memory is seen in its space
  alone, mapping kernel memory is not seen below `userEnd` of a task, and nothing else is seen
  at all.  What is mapped stays where it is mapped; only attributes change.

  Main results:
    * `isolation` — so it is for every step from every state of every run.
-/

import KernelMemory.Proofs.Manager.Populated

namespace KernelMemory

open Machine Manager Steps

section

variable {format : Format} {config : Config} {stock stock' : Stock} {cpu : CpuId}
  {action : Action} {m m' : Machine} {space : AddressSpace} {v : Nat}

/-! ## Actions -/

/-- Whether an action maps memory. -/
def Action.maps : Action → Prop
  | .call (.mapKernel ..) | .call (.mapUser ..) | .map _ => True
  | _ => False

/-- What an action of a processor leaves as it is, whatever its result. -/
structure Isolated (format : Format) (action : Action) (m m' : Machine) : Prop where
  /-- Mapping user memory, as a call or in sections, is seen in the lower half of its space. -/
  mapUser : ∀ {range : UserRange}, action = .call range.call ∨ action = .map range →
    ∀ {space : AddressSpace} {v : Nat}, format.virtualInRange v = true →
      space ≠ range.space ∨ format.userEnd ≤ v → SameAt format m m' space v
  /-- Mapping kernel memory is not seen in the lower half of tasks. -/
  mapKernel : ∀ {address size : Nat} {policy : CachePolicy},
    action = .call (.mapKernel address size policy) →
      ∀ {spaces : Spaces} {space : AddressSpace} {v : Nat}, m.spaces = some spaces →
        space ∈ spaces.tasks → v < format.userEnd → SameAt format m m' space v
  /-- Nothing else is seen in the spaces that go on to exist. -/
  others : ¬ action.maps → ∀ {space : AddressSpace} {v : Nat}, m.Alive space → m'.Alive space →
    SameAt format m m' space v
  /-- What an address of such a space is translated to stays. -/
  steady : ∀ {space : AddressSpace} {v p : Nat}, m.Alive space → m'.Alive space →
    m.translate format space v = .ok (some p) → m'.translate format space v = .ok (some p)

section

variable (e : Effect format config cpu stock m action stock' m') (h : m.Sound format stock)
include e h

/-- What does not map memory is not seen. -/
theorem sameAt_of_not_maps (hnot : ¬ action.maps) (halive : m.Alive space)
    (hleft : m'.Alive space) : SameAt format m m' space v := by
  cases e with
  | refrained hr _ => exact hr.calm.sameAt
  | covered hc => exact hc.calm.sameAt
  | started hi =>
    obtain ⟨spaces, hspaces, -⟩ := halive
    rw [hi.started.unstarted] at hspaces
    cases hspaces
  | created hc _ => exact sameAt_of_created hc h halive
  | deleted hd _ _ => exact sameAt_of_deleted hd h halive hleft
  | moved _ hq _ _ => exact (hq.calm h).sameAt
  | _ => exact absurd trivial hnot

theorem translate_of_effect (halive : m.Alive space) (hleft : m'.Alive space) {p : PhysAddr}
    (hp : m.translate format space v = .ok (some p)) :
    m'.translate format space v = .ok (some p) := by
  by_cases hmaps : action.maps
  · cases e with
    | mappedKernel hk => exact translate_of_mappedKernel hk h hp
    | mappedUser hu => exact translate_of_mappedUser hu.tables h hp
    | mapped hu _ => exact translate_of_mappedUser hu h hp
    | refrained hr _ => rw [hr.calm.sameAt.translate, hp]
    | moved _ hq _ _ => rw [(hq.calm h).sameAt.translate, hp]
    | _ => exact hmaps.elim
  · rw [(sameAt_of_not_maps e h hmaps halive hleft).translate, hp]

theorem isolated_of_effect : Isolated format action m m' where
  mapUser := fun {range} haction {space v} hrange hne => by
    have hshape : Refrained stock' m m' ∨ MappedUser format range.space range.virt range.phys m m' := by
      rcases haction with rfl | rfl
      · unfold UserRange.call at e
        cases e with
        | refrained hr _ => exact .inl hr
        | mappedUser hu => exact .inr hu.tables
        | moved hmoves => exact hmoves.elim
      · cases e with
        | refrained hr _ => exact .inl hr
        | mapped hu _ => exact .inr hu
        | moved hmoves => exact hmoves.elim
    rcases hshape with hr | hu
    · exact hr.calm.sameAt
    · exact sameAt_of_mappedUser hu h hrange hne
  mapKernel := fun {_ _ _} haction {spaces space v} hspaces htask hv => by
    subst haction
    cases e with
    | refrained hr _ => exact hr.calm.sameAt
    | mappedKernel hk => exact sameAt_of_mappedKernel hk h hspaces htask hv
    | moved hmoves => exact hmoves.elim
  others := fun hnot _ _ halive hleft => sameAt_of_not_maps e h hnot halive hleft
  steady := fun halive hleft hp => translate_of_effect e h halive hleft hp

end

/-! ## States -/

/-- What spaces have in common: all see the kernel's upper half, and none sees page 0. -/
structure Parted (format : Format) (m : Machine) : Prop where
  upper : ∀ {spaces : Spaces} {space : AddressSpace} {v : Nat}, m.spaces = some spaces →
    space ∈ spaces.tasks → format.virtualInRange v = true → format.userEnd ≤ v →
      m.translate format space v = m.translate format spaces.kernel v
  null : ∀ (space : AddressSpace) {v : Nat}, v < frameSize → m.translate format space v = .ok none

theorem parted_of_sound (h : m.Sound format stock) : Parted format m where
  upper := translate_upper h
  null := fun space {v} hv => by
    cases hroot : m.rootTable space with
    | none => rw [Machine.translate, hroot]
    | some root =>
      obtain ⟨⟨spaces, hspaces, -⟩, hl, -⟩ := rootTable_eq_some h hroot
      rw [translate_eq_view h hroot, Arena.view, (h.spaces hspaces).null hl hv]
      rfl

/-- In every state that processors reach, spaces share what they should, and whatever a
processor does next, spaces see no more of it than they should. -/
theorem isolation {poolPages : Nat} {s : System} (h : Reachable format config AnyCall poolPages s) :
    Parted format s.machine ∧ ∀ {cpu : CpuId} {action : Action} {s' : System},
      Step format config AnyCall cpu action s s' → Isolated format action s.machine s'.machine :=
  ⟨parted_of_sound h.sound.machine,
    fun hstep => isolated_of_effect (hstep.effect h.sound) h.sound.machine⟩

/-- In particular, where kernel memory and the memory of a task are mapped. -/
theorem isolation_with_task : ∃ s spaces space, Reachable .narrow mirrored AnyCall 0 s
    ∧ s.machine.Populated spaces space ∧ Parted .narrow s.machine
    ∧ ∀ {cpu : CpuId} {action : Action} {s' : System},
      Step .narrow mirrored AnyCall cpu action s s' →
        Isolated .narrow action s.machine s'.machine := by
  obtain ⟨s, spaces, space, hs, hmapped⟩ :
      ∃ s spaces space, Reachable .narrow mirrored AnyCall 0 s ∧ _ :=
    exists_populated trivial trivial trivial (fun _ => trivial) fun _ => trivial
  exact ⟨s, spaces, space, hs, hmapped, isolation hs⟩

end

end KernelMemory
