/-
  KernelMemory.Proofs.Manager.Placement — the roots that processors run on.

  The manager notes for each processor the root that is loaded there and the one it will go
  back to.  What it notes is what is loaded, and both are roots of spaces that exist, or the
  root the processor was powered on with, which is 0.  A processor that was never noted still
  has that root.

  Main results:
    * `Placed.keep` — operations that leave the processors alone, and the spaces they use;
    * `Placed.move` — a processor gets another root;
    * `switched_load`, `Switched.trans` — how it is loaded there.
-/

import KernelMemory.Proofs.Manager.Turns

namespace KernelMemory

namespace Machine

variable {format : Format} {stock : Stock} {m m' m'' : Machine}

/-- What is noted of a processor. -/
def roots? (m : Machine) (cpu : CpuId) : Option CpuRoots :=
  m.spaces.bind fun spaces => spaces.cpuRoots[cpu]?

theorem roots?_of_some {spaces : Spaces} (h : m.spaces = some spaces) (cpu : CpuId) :
    m.roots? cpu = spaces.cpuRoots[cpu]? := by rw [roots?, h]; rfl

/-- The root of a space that exists, or the root after power-on. -/
def Legit (m : Machine) (root : PhysAddr) : Prop := root = 0 ∨ m.Alive ⟨root⟩

/-- Whether a root is loaded on a processor, or a processor will go back to it. -/
def Uses (m : Machine) (root : PhysAddr) : Prop :=
  (∃ cpu, (m.cpu cpu).root = root)
    ∨ ∃ cpu roots, m.roots? cpu = some roots ∧ (roots.loaded = root ∨ roots.saved = some root)

/-- Every processor runs on a root as noted, and goes back to one, that is legitimate. -/
structure Placed (m : Machine) : Prop where
  loaded : ∀ {cpu roots}, m.roots? cpu = some roots → roots.loaded = (m.cpu cpu).root
  unknown : ∀ {cpu}, m.roots? cpu = none → (m.cpu cpu).root = 0
  legit : ∀ cpu, m.Legit (m.cpu cpu).root
  saved : ∀ {cpu roots root}, m.roots? cpu = some roots → roots.saved = some root → m.Legit root

/-- A root in use is that of a space that exists, or the root after power-on. -/
theorem Placed.legit_of_uses (h : m.Placed) {root : PhysAddr} (huses : m.Uses root) :
    m.Legit root := by
  rcases huses with ⟨cpu, rfl⟩ | ⟨cpu, roots, hnoted, hloaded | hsaved⟩
  · exact h.legit cpu
  · rw [← hloaded, h.loaded hnoted]
    exact h.legit cpu
  · exact h.saved hnoted hsaved

theorem placed_powerOn (poolPages : Nat) : (powerOn poolPages).Placed where
  loaded := fun h => by cases h
  unknown := fun _ => by simp [powerOn, cpu, Cpu.powerOn]
  legit := fun _ => .inl (by simp [powerOn, cpu, Cpu.powerOn])
  saved := fun h => by cases h

/-- The roots of all processors are as they were, and none was loaded. -/
structure SameRoots (m m' : Machine) : Prop where
  root : ∀ cpu, (m'.cpu cpu).root = (m.cpu cpu).root
  noted : ∀ cpu, m'.roots? cpu = m.roots? cpu
  feed : m'.rootFeed = m.rootFeed

theorem SameRoots.refl (m : Machine) : SameRoots m m := ⟨fun _ => rfl, fun _ => rfl, rfl⟩

theorem SameRoots.trans (h : SameRoots m m') (h' : SameRoots m' m'') : SameRoots m m'' :=
  ⟨fun cpu => (h'.root cpu).trans (h.root cpu), fun cpu => (h'.noted cpu).trans (h.noted cpu),
    h'.feed.trans h.feed⟩

/-- The roots in use are those that were. -/
theorem SameRoots.uses (h : SameRoots m m') {root : PhysAddr} : m'.Uses root ↔ m.Uses root := by
  unfold Uses
  simp only [h.root, h.noted]

theorem sameRoots_of_spaces {spaces spaces' : Spaces} (hcpus : m'.cpus = m.cpus)
    (h : m.spaces = some spaces) (h' : m'.spaces = some spaces')
    (hnoted : spaces'.cpuRoots = spaces.cpuRoots) (hfeed : m'.rootFeed = m.rootFeed) :
    SameRoots m m' where
  root := fun other => by rw [cpu, hcpus]; rfl
  noted := fun other => by rw [roots?_of_some h, roots?_of_some h', hnoted]
  feed := hfeed

/-- Processors keep their places if the roots in use stay legitimate. -/
theorem Placed.keep_legit (h : m.Placed) (hroots : SameRoots m m')
    (hlegit : ∀ {root}, m.Uses root → m.Legit root → m'.Legit root) : m'.Placed where
  loaded := fun {cpu roots} hr => by
    rw [hroots.noted] at hr
    rw [hroots.root]
    exact h.loaded hr
  unknown := fun {cpu} hr => by
    rw [hroots.noted] at hr
    rw [hroots.root]
    exact h.unknown hr
  legit := fun cpu => by
    rw [hroots.root]
    exact hlegit (.inl ⟨cpu, rfl⟩) (h.legit cpu)
  saved := fun {cpu roots root} hr hs => by
    rw [hroots.noted] at hr
    exact hlegit (.inr ⟨cpu, roots, hr, .inr hs⟩) (h.saved hr hs)

/-- They do if the spaces in use go on to exist. -/
theorem Placed.keep (h : m.Placed) (hroots : SameRoots m m')
    (halive : ∀ {root}, m.Uses root → m.Alive ⟨root⟩ → m'.Alive ⟨root⟩) : m'.Placed :=
  h.keep_legit hroots fun huses hlegit => hlegit.imp_right (halive huses)

/-- One processor was brought to a root, and it is noted where it will go back to. -/
structure Moved (cpu : CpuId) (roots : CpuRoots) (m m' : Machine) : Prop where
  root : (m'.cpu cpu).root = roots.loaded
  others : ∀ {other}, other ≠ cpu → (m'.cpu other).root = (m.cpu other).root
  noted : ∀ other, m'.roots? other = if other = cpu then some roots else m.roots? other

theorem getElem?_setRoots (spaces : Spaces) (cpu : CpuId) (roots : CpuRoots) (other : CpuId) :
    (spaces.setRoots cpu roots).cpuRoots[other]?
      = if other = cpu then some roots else spaces.cpuRoots[other]? := by
  simp only [Spaces.setRoots, Std.TreeMap.getElem?_insert, Nat.compare_eq_eq, eq_comm (a := other)]

/-- The root was loaded, unless the processor was on it already. -/
structure Switched (cpu : CpuId) (roots : CpuRoots) (m m' : Machine) : Prop
    extends Moved cpu roots m m' where
  feed : m'.rootFeed = if roots.loaded = (m.cpu cpu).root then m.rootFeed else roots.loaded

/-- Noting other roots for a processor switches it, if it runs on the one noted. -/
theorem switched_setRoots {spaces : Spaces} (h : m.spaces = some spaces) {cpu : CpuId}
    {roots : CpuRoots} (hloaded : (m.cpu cpu).root = roots.loaded) :
    Switched cpu roots m { m with spaces := some (spaces.setRoots cpu roots) } where
  root := hloaded
  others := fun _ => rfl
  noted := fun other => by
    rw [roots?_of_some rfl, roots?_of_some h, getElem?_setRoots]
  feed := by rw [if_pos hloaded.symm]

/-- Loading another root switches a processor. -/
theorem switched_load {spaces : Spaces} (h : m.spaces = some spaces) {cpu : CpuId}
    {root : PhysAddr} (hne : (m.cpu cpu).root ≠ root) :
    Switched cpu ⟨root, spaces.savedRoot cpu⟩ m
      { m.modifyCpu cpu fun c => c.loadRoot root with
          rootFeed := root, spaces := some (spaces.noteLoaded cpu root) } where
  root := congrArg Cpu.root (cpu_modifyCpu_same m cpu fun c => c.loadRoot root)
  others := fun hne =>
    congrArg Cpu.root (cpu_modifyCpu_other m (fun c => c.loadRoot root) (Ne.symm hne))
  noted := fun other => by
    rw [roots?_of_some rfl, roots?_of_some h, Spaces.noteLoaded, getElem?_setRoots]
  feed := by rw [if_neg (Ne.symm hne)]

/-- A switch after roots were noted, and none was loaded, is a switch. -/
theorem Switched.trans {cpu : CpuId} {roots roots' : CpuRoots} (h : Switched cpu roots m m')
    (hstay : (m.cpu cpu).root = roots.loaded) (h' : Switched cpu roots' m' m'') :
    Switched cpu roots' m m'' where
  root := h'.root
  others := fun hne => (h'.others hne).trans (h.others hne)
  noted := fun other => by
    rw [h'.noted, h.noted]
    split <;> rfl
  feed := by rw [h'.feed, h.feed, h.root, if_pos hstay.symm, hstay]

/-- Nothing is loaded after the switch. -/
theorem Switched.keep {cpu : CpuId} {roots : CpuRoots} (h : Switched cpu roots m m')
    (h' : SameRoots m' m'') : Switched cpu roots m m'' where
  root := (h'.root cpu).trans h.root
  others := fun hne => (h'.root _).trans (h.others hne)
  noted := fun other => (h'.noted other).trans (h.noted other)
  feed := h'.feed.trans h.feed

theorem Placed.move {cpu : CpuId} {roots : CpuRoots} (h : m.Placed) (hmoved : Moved cpu roots m m')
    (halive : ∀ {space}, m.Alive space → m'.Alive space) (hloaded : m'.Legit roots.loaded)
    (hsaved : ∀ {root}, roots.saved = some root → m'.Legit root) : m'.Placed where
  loaded := fun {other r} hr => by
    rw [hmoved.noted] at hr
    split at hr
    · rename_i heq
      injection hr with hr
      rw [heq, hmoved.root, hr]
    · rename_i hne
      rw [hmoved.others hne]
      exact h.loaded hr
  unknown := fun {other} hr => by
    rw [hmoved.noted] at hr
    split at hr
    · cases hr
    · rename_i hne
      rw [hmoved.others hne]
      exact h.unknown hr
  legit := fun other => by
    by_cases heq : other = cpu
    · -- this processor is on its new root, the others are where they were
      rw [heq, hmoved.root]
      exact hloaded
    · rw [hmoved.others heq]
      exact (h.legit other).imp_right halive
  saved := fun {other r root} hr hs => by
    rw [hmoved.noted] at hr
    split at hr
    · injection hr with hr
      rw [← hr] at hs
      exact hsaved hs
    · exact (h.saved hr hs).imp_right halive

theorem alive_of_census (h : m'.census = m.census) {space : AddressSpace} :
    m'.Alive space ↔ m.Alive space := by
  rw [alive_iff, alive_iff, h]

end Machine

end KernelMemory
