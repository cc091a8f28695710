/-
  KernelMemory.Proofs.Manager.System — processors that share the memory manager.

  Sections that a lock covers are taken one at a time, by any processor, in any order.  Mapping
  user memory takes four of them, and other processors may act in between.  Callers give back
  frames that they hold, and no others; nothing else is asked of them here.  What one theorem
  asks in addition is a rule on calls.

  Main results:
    * `Step.effect` — a step of the system is an action of one processor;
    * `Reachable.sound` — every state of every run is sound.
-/

import Mathlib.Logic.Function.Basic
import KernelMemory.Proofs.Manager.Effects

namespace KernelMemory

open Machine Manager Steps

/-- How far a processor is in mapping user memory. -/
inductive Stage where
  | idle
  | checked (range : UserRange)
  | entered (range : UserRange)
  | mapped (range : UserRange) (result : Except MemoryError Unit)

/-- Whether the processor entered the kernel space to map user memory, and did not leave yet. -/
def Stage.inside : Stage → Prop
  | .entered _ | .mapped .. => True
  | _ => False

/-- The machine, the frames that callers hold, and how far each processor is. -/
structure System where
  machine : Machine
  stock : Stock
  stage : CpuId → Stage

/-- The system after power-on. -/
def System.powerOn (poolPages : Nat) : System :=
  ⟨Machine.powerOn poolPages, ⟨∅, 0⟩, fun _ => .idle⟩

/-- Mapping user memory is its four sections, one after another. -/
theorem mapUser_eq_sections (format : Format) (config : Config) (cpu : CpuId) (range : UserRange) :
    mapUser format config cpu range.space range.virt range.phys range.size = (do
      if range.space.root ≠ (← activeRoot cpu) then
        Steps.refuse .notActive
      else
        enterKernel cpu
        let result ← attempt (mapTask format config cpu range.space range.virt range.phys range.size)
        finishUser cpu range.virt range.size result) := rfl

/-! ## Runs -/

/-- A step of one processor.  A fault is not a step: the system stops. -/
inductive Step (format : Format) (config : Config) (Rule : Call → Prop) (cpu : CpuId) :
    Action → System → System → Prop where
  | call {s : System} {call : Call} {result : Except MemoryError Answer} {m' : Machine}
      (idle : s.stage cpu = .idle) (permitted : call.Permitted s.stock.held) (rule : Rule call)
      (ends : attempt (perform format config cpu call) s.machine = .ok result m') :
      Step format config Rule cpu (.call call) s ⟨m', call.stockAfter s.stock m' result, s.stage⟩
  | check {s : System} {range : UserRange} (idle : s.stage cpu = .idle) (rule : Rule range.call)
      (active : range.space.root = (s.machine.cpu cpu).root) :
      Step format config Rule cpu (.check range) s
        ⟨s.machine, s.stock, Function.update s.stage cpu (.checked range)⟩
  | enter {s : System} {range : UserRange} {m' : Machine} (stage : s.stage cpu = .checked range)
      (ends : enterKernel cpu s.machine = .ok () m') :
      Step format config Rule cpu (.enter range) s
        ⟨m', s.stock, Function.update s.stage cpu (.entered range)⟩
  | turnedAway {s : System} {range : UserRange} {error : MemoryError} {m' : Machine}
      (stage : s.stage cpu = .checked range)
      (ends : enterKernel cpu s.machine = .error (.refused error) m') :
      Step format config Rule cpu (.enter range) s
        ⟨m', s.stock, Function.update s.stage cpu .idle⟩
  | map {s : System} {range : UserRange} {result : Except MemoryError Unit} {m' : Machine}
      (stage : s.stage cpu = .entered range)
      (ends : attempt (mapTask format config cpu range.space range.virt range.phys range.size) s.machine
        = .ok result m') :
      Step format config Rule cpu (.map range) s
        ⟨m', s.stock, Function.update s.stage cpu (.mapped range result)⟩
  | leave {s : System} {range : UserRange} {result answer : Except MemoryError Unit} {m' : Machine}
      (stage : s.stage cpu = .mapped range result)
      (ends : attempt (finishUser cpu range.virt range.size result) s.machine = .ok answer m') :
      Step format config Rule cpu (.leave range) s
        ⟨m', s.stock, Function.update s.stage cpu .idle⟩

/-- The states of the runs in which every call keeps the rule. -/
inductive Reachable (format : Format) (config : Config) (Rule : Call → Prop) (poolPages : Nat) :
    System → Prop where
  | start : Reachable format config Rule poolPages (System.powerOn poolPages)
  | step {s s' : System} {cpu : CpuId} {action : Action} (before : Reachable format config Rule poolPages s)
      (step : Step format config Rule cpu action s s') : Reachable format config Rule poolPages s'

/-- A run from one state to another with `Along` at both ends and everywhere between. -/
inductive Run (format : Format) (config : Config) (Rule : Call → Prop) (Along : System → Prop) :
    System → System → Prop where
  | refl {s : System} (along : Along s) : Run format config Rule Along s s
  | step {s t u : System} {cpu : CpuId} {action : Action} (before : Run format config Rule Along s t)
      (step : Step format config Rule cpu action t u) (along : Along u) :
      Run format config Rule Along s u

/-- Calls of every kind, asked nothing in addition. -/
abbrev AnyCall : Call → Prop := fun _ => True

section

variable {format : Format} {config : Config} {Rule : Call → Prop} {poolPages : Nat}
  {cpu : CpuId} {action : Action} {s s' : System}

/-- The range that a processor is to map and has not mapped yet. -/
def Stage.waiting? : Stage → Option UserRange
  | .checked range | .entered range => some range
  | _ => none

/-- A step of one processor leaves the others where they are. -/
theorem Step.stage_of_ne (h : Step format config Rule cpu action s s') {other : CpuId}
    (hne : other ≠ cpu) : s'.stage other = s.stage other := by
  cases h with
  | call => rfl
  | _ => exact Function.update_of_ne hne _ _

/-- Ranges that wait to be mapped keep the rule. -/
theorem Reachable.waiting (h : Reachable format config Rule poolPages s) :
    ∀ {cpu : CpuId} {range : UserRange}, (s.stage cpu).waiting? = some range → Rule range.call := by
  induction h with
  | start => intro cpu range hw; cases hw
  | @step s s' mover action _ hstep ih =>
    intro cpu range hw
    -- the processor that moved is at a new stage, the others are at the one they were at
    by_cases heq : cpu = mover
    · subst heq
      cases hstep with
      | call idle permitted rule ends => exact ih hw
      | check idle rule active =>
        simp only [Function.update_self, Stage.waiting?, Option.some.injEq] at hw
        rw [← hw]
        exact rule
      | enter stage ends =>
        simp only [Function.update_self, Stage.waiting?, Option.some.injEq] at hw
        rw [← hw]
        exact ih (by rw [stage]; rfl)
      | _ => simp [Stage.waiting?] at hw
    · rw [hstep.stage_of_ne heq] at hw
      exact ih hw

/-- What mapping came to, where a processor did not leave the kernel space yet, it came to in a state
of the run. -/
theorem Reachable.of_mapped (h : Reachable format config Rule poolPages s) :
    ∀ {cpu : CpuId} {range : UserRange} {result : Except MemoryError Unit},
      s.stage cpu = .mapped range result →
        ∃ t m', Reachable format config Rule poolPages t ∧ t.stage cpu = .entered range
          ∧ attempt (mapTask format config cpu range.space range.virt range.phys range.size) t.machine
            = .ok result m' := by
  induction h with
  | start => intro cpu range result hstage; cases hstage
  | @step s s' mover action before hstep ih =>
    intro cpu range result hstage
    by_cases heq : cpu = mover
    · subst heq
      cases hstep with
      | call idle permitted rule ends => exact ih hstage
      | map stage ends =>
        simp only [Function.update_self, Stage.mapped.injEq] at hstage
        obtain ⟨rfl, rfl⟩ := hstage
        exact ⟨s, _, before, stage, ends⟩
      | _ => simp at hstage
    · rw [hstep.stage_of_ne heq] at hstage
      exact ih hstage

/-- The call that an action makes or, if it maps user memory, is part of. -/
def Action.call? : Action → Option Call
  | .call made => some made
  | .map range => some range.call
  | _ => none

/-- What is mapped keeps the rule. -/
theorem Step.rule (h : Reachable format config Rule poolPages s)
    (hstep : Step format config Rule cpu action s s') {call : Call} (hcall : action.call? = some call) :
    Rule call := by
  cases hstep with
  | call idle permitted rule ends =>
    injection hcall with hcall
    rw [← hcall]
    exact rule
  | map stage ends =>
    injection hcall with hcall
    rw [← hcall]
    exact h.waiting (by rw [stage]; rfl)
  | _ => cases hcall

/-! ## Sound states -/

/-- What holds of the system at all times. -/
structure System.Sound (format : Format) (s : System) : Prop where
  machine : s.machine.Sound format s.stock
  placed : s.machine.Placed
  inside : ∀ {cpu}, (s.stage cpu).inside → ∃ root, savedRoot s.machine cpu = some root

theorem sound_start (format : Format) (poolPages : Nat) : (System.powerOn poolPages).Sound format :=
  ⟨sound_powerOn format poolPages, placed_powerOn poolPages, fun h => h.elim⟩

/-- A step has the effect of its action. -/
theorem Step.effect (h : Step format config Rule cpu action s s') (hs : s.Sound format) :
    Effect format config cpu s.stock s.machine action s'.stock s'.machine := by
  cases h with
  | @call _ call result m' idle permitted rule ends =>
    have hends := (ends_perform hs.machine hs.placed permitted).of_attempt ends
    cases result with
    | ok answer => exact hends
    | error error => exact hends
  | check idle rule active => exact effect_refl hs.machine _
  | enter stage ends =>
    obtain ⟨hq, spaces, hspaces, hswitched⟩ := ends_enterKernel.of_ok ends
    exact .moved trivial hq (placed_enter hs.placed hq hspaces hswitched) hswitched
  | turnedAway stage ends =>
    obtain rfl := ends_enterKernel.of_error ends
    exact effect_refl hs.machine _
  | @map _ range result m' stage ends =>
    have hends := (ends_mapTask hs.machine).overflow.state_of_attempt ends
    exact .mapped hends.1 hends.2
  | @leave _ range result answer m' stage ends =>
    obtain ⟨saved, hsaved⟩ := hs.inside (by rw [stage]; trivial)
    have hends := (ends_finishUser hs.placed hsaved).state_of_attempt ends
    exact .moved trivial hends.1 (placed_leave hs.placed hends.1 hsaved hends.2) hends.2

/-- A processor that is inside after a step has a root to go back to. -/
theorem Step.inside (h : Step format config Rule cpu action s s') (hs : s.Sound format)
    {other : CpuId} (hother : (s'.stage other).inside) :
    ∃ root, savedRoot s'.machine other = some root := by
  have hkept := (h.effect hs).others
  by_cases heq : other = cpu
  · subst heq
    cases h with
    | call idle permitted rule ends =>
      rw [show (System.stage ⟨_, _, s.stage⟩ other) = .idle from idle] at hother
      exact hother.elim
    | check idle rule active => simp [Stage.inside] at hother
    | enter stage ends =>
      obtain ⟨-, spaces, -, hmoved⟩ := ends_enterKernel.of_ok ends
      exact ⟨(s.machine.cpu other).root, savedRoot_of_moved hmoved.toMoved⟩
    | turnedAway stage ends => simp [Stage.inside] at hother
    | @map _ range result m' stage ends =>
      obtain ⟨root, hroot⟩ := hs.inside (by rw [stage]; trivial)
      have hsame := ((ends_mapTask hs.machine).overflow.state_of_attempt ends).2
      exact ⟨root, by rw [savedRoot, hsame.noted]; exact hroot⟩
    | leave stage ends => simp [Stage.inside] at hother
  · rw [h.stage_of_ne heq] at hother
    obtain ⟨root, hroot⟩ := hs.inside hother
    exact ⟨root, by rw [savedRoot, hkept other heq]; exact hroot⟩

theorem Step.sound (h : Step format config Rule cpu action s s') (hs : s.Sound format) :
    s'.Sound format where
  machine := (h.effect hs).sound hs.machine
  placed := (h.effect hs).placed hs.placed
  inside := h.inside hs

theorem Reachable.sound (h : Reachable format config Rule poolPages s) : s.Sound format := by
  induction h with
  | start => exact sound_start format poolPages
  | step _ hstep ih => exact hstep.sound ih

/-- What keeps a rule keeps a weaker one. -/
theorem Step.mono {Rule' : Call → Prop} (h : Step format config Rule cpu action s s')
    (weaker : ∀ call, Rule call → Rule' call) : Step format config Rule' cpu action s s' := by
  cases h with
  | call idle permitted rule ends => exact .call idle permitted (weaker _ rule) ends
  | check idle rule active => exact .check idle (weaker _ rule) active
  | enter stage ends => exact .enter stage ends
  | turnedAway stage ends => exact .turnedAway stage ends
  | map stage ends => exact .map stage ends
  | leave stage ends => exact .leave stage ends

theorem Reachable.mono {Rule' : Call → Prop} (h : Reachable format config Rule poolPages s)
    (weaker : ∀ call, Rule call → Rule' call) : Reachable format config Rule' poolPages s := by
  induction h with
  | start => exact .start
  | step _ hstep ih => exact ih.step (hstep.mono weaker)

/-! ## From one state to another -/

section

variable {Along : System → Prop}

theorem Run.along_start (h : Run format config Rule Along s s') : Along s := by
  induction h with
  | refl along => exact along
  | step before step along ih => exact ih

theorem Run.along (h : Run format config Rule Along s s') : Along s' := by
  cases h with
  | refl along => exact along
  | step before step along => exact along

theorem Run.reachable (h : Run format config Rule Along s s')
    (hs : Reachable format config Rule poolPages s) : Reachable format config Rule poolPages s' := by
  induction h with
  | refl along => exact hs
  | step before step along ih => exact ih.step step

/-- What no step of a run changes is at its end what it was at its start. -/
theorem Run.eq_of_step {α : Type} {f : System → α} (h : Run format config Rule Along s s')
    (hs : Reachable format config Rule poolPages s)
    (keeps : ∀ {t u : System} {cpu : CpuId} {action : Action},
      Reachable format config Rule poolPages t → Along t → Along u →
        Step format config Rule cpu action t u → f u = f t) : f s' = f s := by
  induction h with
  | refl along => rfl
  | step before step along ih => exact (keeps (before.reachable hs) before.along along step).trans ih

end

/-! ## A run that makes a task space -/

/-- A call that is answered is a step. -/
theorem Step.of_ok {call : Call} {answer : Answer} {m m' : Machine} {stock : Stock}
    {stage : CpuId → Stage} (idle : stage cpu = .idle) (permitted : call.Permitted stock.held)
    (rule : Rule call) (e : perform format config cpu call m = .ok answer m') :
    Step format config Rule cpu (.call call) ⟨m, stock, stage⟩
      ⟨m', call.stockAfter stock m' (.ok answer), stage⟩ :=
  .call idle permitted rule (by rw [attempt, e])

section

variable {m m' : Machine} {space : AddressSpace}

theorem perform_of_init {map : BootMap} {windows : List DeviceWindow}
    (e : init format config cpu map windows m = .ok space m') :
    perform format config cpu (.init map windows) m = .ok (.space space) m' := by
  rw [perform, bind_of_ok e]
  rfl

theorem perform_of_createSpace (e : createSpace format cpu m = .ok space m') :
    perform format config cpu .createSpace m = .ok (.space space) m' := by
  rw [perform, bind_of_ok e]
  rfl

theorem perform_of_deleteSpace (e : deleteSpace format cpu space m = .ok () m') :
    perform format config cpu (.deleteSpace space) m = .ok .done m' := by
  rw [perform, bind_of_ok e]
  rfl

theorem perform_of_switchTo (e : switchTo cpu space m = .ok () m') :
    perform format config cpu (.switchTo space) m = .ok .done m' := by
  rw [perform, bind_of_ok e]
  rfl

theorem perform_of_mapUser {virt phys size : Nat}
    (e : mapUser format config cpu space virt phys size m = .ok () m') :
    perform format config cpu (.mapUser space virt phys size) m = .ok .done m' := by
  rw [perform, bind_of_ok e]
  rfl

end

/-- Calls from power-on on that were all answered, the machine they end in, and the frames that
callers hold then. -/
structure Answered (format : Format) (config : Config) (Rule : Call → Prop) (poolPages : Nat)
    (calls : List (CpuId × Call)) (m : Machine) (stock : Stock) : Prop where
  run : run format config (Machine.powerOn poolPages) calls = .ok m
  reachable : Reachable format config Rule poolPages ⟨m, stock, fun _ => .idle⟩

theorem answered_nil : Answered format config Rule poolPages [] (Machine.powerOn poolPages) ⟨∅, 0⟩ :=
  ⟨rfl, .start⟩

theorem Answered.next {calls : List (CpuId × Call)} {call : Call} {answer : Answer}
    {m m' : Machine} {stock : Stock} (h : Answered format config Rule poolPages calls m stock)
    (permitted : call.Permitted stock.held) (rule : Rule call)
    (e : perform format config cpu call m = .ok answer m') :
    Answered format config Rule poolPages (calls ++ [(cpu, call)]) m'
      (call.stockAfter stock m' (.ok answer)) where
  run := by
    have hafter : after format config m (cpu, call) = .ok m' := by
      unfold after
      rw [e]
    rw [run_append, h.run]
    show Manager.run format config m [(cpu, call)] = .ok m'
    rw [run_cons, hafter]
    rfl
  reachable := h.reachable.step (Step.of_ok rfl permitted rule e)

section

variable {calls : List (CpuId × Call)} {m : Machine} {stock : Stock}

/-- The allocator starts with any map. -/
theorem answered_initFrames {map : BootMap} (hwords : map.stop < Word.bound)
    (rule : Rule (.initFrames map)) (cpu : CpuId) :
    ∃ m stock, Answered format config Rule poolPages [(cpu, .initFrames map)] m stock
      ∧ m.store.frames = (FrameAllocator.init ⟨poolPages, none⟩ map {}).2.1 ∧ m.spaces = none := by
  obtain ⟨m, e, hframes, hspaces⟩ : ∃ m,
      perform format config cpu (.initFrames map) (Machine.powerOn poolPages) = .ok (.first true) m
        ∧ m.store.frames = (FrameAllocator.init ⟨poolPages, none⟩ map {}).2.1
        ∧ m.spaces = none := ⟨_, rfl, rfl, rfl⟩
  exact ⟨m, _, answered_nil.next hwords rule e, hframes, hspaces⟩

/-- With a frame for the root, the manager starts where building the kernel tree is not refused. -/
theorem Answered.init (h : Answered format config Rule poolPages calls m stock) (map : BootMap)
    (windows : List DeviceWindow) (hspaces : m.spaces = none) {frame : PhysAddr}
    (hframe : m.store.frames.allocatePage.1 = .ok frame)
    (rule : Rule (.init map windows)) (cpu : CpuId) (built : TableId → TableStore → Prop)
    (hbuilt : ∀ {frame : PhysAddr} {root : TableId} {s : TableStore},
      m.store.frames.allocatePage = (.ok frame, s.frames) →
      FirstRoot format stock m.memory frame root s →
        Ends (populate format config ⟨root, false⟩ map m.descriptor.kernelImage windows) s
          (fun _ s' => built root s') (fun _ _ => False)) :
    ∃ m' stock', Answered format config Rule poolPages (calls ++ [(cpu, .init map windows)]) m' stock'
      ∧ ∃ root space s, built root s ∧ Installed format cpu root space s m m' := by
  have hinit : Ends (perform format config cpu (.init map windows)) m
      (fun _ m' => ∃ root space s, built root s ∧ Installed format cpu root space s m m')
      (fun _ _ => False) := by
    rw [perform, ends_bind]
    refine (ends_init_of_populate h.reachable.sound.machine hspaces built (fun _ => False) ?_).mono
      (fun space m' hdone => ?_) fun f m' hf => ?_
    · intro frame root s hframes hfirst
      refine (hbuilt hframes hfirst).mono (fun _ _ hs => hs) fun _ _ hf => hf.elim
    · obtain ⟨-, -, root, s, hs, hinstalled⟩ := hdone
      exact ⟨root, space.root, s, hs, hinstalled⟩
    · cases f with
      | fault fault => exact hf
      | refused error =>
        obtain ⟨-, hfalse | ⟨error, herror, -⟩⟩ := hf
        · exact hfalse
        · rw [hframe] at herror
          cases herror
  obtain ⟨_, m', e, hdone⟩ := exists_of_ends hinit
  exact ⟨m', _, h.next trivial rule e, hdone⟩

/-- With a frame for the root, a task space is made. -/
theorem ends_perform_createSpace (h : m.Sound format stock) {spaces : Spaces}
    (hspaces : m.spaces = some spaces) {frame : PhysAddr}
    (hframe : m.store.frames.allocatePage.1 = .ok frame) :
    Ends (perform format config cpu .createSpace) m
      (fun _ m' => ∃ space, Created format stock space m m' ∧ SameRoots m m')
      (fun _ _ => False) := by
  rw [perform, ends_bind]
  refine (ends_createSpace h).mono (fun space m' hm' => ⟨space, hm'⟩) fun f m' hf => ?_
  cases f with
  | fault fault => exact hf
  | refused error =>
    rcases hf.2 with hnone | ⟨error, herror⟩
    · rw [hspaces] at hnone
      cases hnone
    · rw [hframe] at herror
      cases herror

theorem Answered.createSpace (h : Answered format config Rule poolPages calls m stock)
    {spaces : Spaces} (hspaces : m.spaces = some spaces) {frame : PhysAddr}
    (hframe : m.store.frames.allocatePage.1 = .ok frame) (rule : Rule .createSpace) (cpu : CpuId) :
    ∃ m' stock', Answered format config Rule poolPages (calls ++ [(cpu, .createSpace)]) m' stock'
      ∧ ∃ space, Created format stock space m m' := by
  obtain ⟨_, m', e, space, hcreated, -⟩ :=
    exists_of_ends (ends_perform_createSpace h.reachable.sound.machine hspaces hframe)
  exact ⟨m', _, h.next trivial rule e, space, hcreated⟩

end

/-- Where a map has a free frame and nothing to map, the allocator and the manager start; then
there is no task yet, the kernel root is in the first free frame, and of the processors only this
one is on it. -/
theorem exists_started {map : BootMap} (hwords : map.stop < Word.bound)
    (hregions : map.regions.filter BootRegion.isMapped = [])
    (hbase : config.kernelImageBase = none) {frames : FrameAllocator}
    (hframes : (FrameAllocator.init ⟨poolPages, none⟩ map {}).2.1 = frames) {first : PhysAddr}
    (hfirst : frames.allocatePage.1 = .ok first) (ruleFrames : Rule (.initFrames map))
    (ruleInit : Rule (.init map [])) (cpu : CpuId) :
    ∃ m stock, Answered format config Rule poolPages
        [(cpu, .initFrames map), (cpu, .init map [])] m stock
      ∧ m.store.frames = frames.allocatePage.2
      ∧ ∃ spaces, m.spaces = some spaces ∧ spaces.tasks = [] ∧ spaces.kernel.root = first
        ∧ (m.cpu cpu).root = spaces.kernel.root ∧ savedRoot m cpu = none
        ∧ ∀ other, other ≠ cpu → m.roots? other = none := by
  obtain ⟨m₁, stock₁, h₁, hframes₁, hspaces₁⟩ : ∃ m stock,
      Answered format config Rule poolPages [(cpu, .initFrames map)] m stock ∧ _ ∧ _ :=
    answered_initFrames hwords ruleFrames cpu
  rw [hframes] at hframes₁
  obtain ⟨m₂, stock₂, h₂, root, space, s, ⟨hleft, hframe⟩, hinstalled⟩ := h₁.init map [] hspaces₁
    (by rw [hframes₁]; exact hfirst) ruleInit cpu
    (fun root s => s.frames = frames.allocatePage.2 ∧ s.arena.frame? root = some first)
    fun {frame root s} hallocated hroot => by
      rw [hframes₁] at hallocated
      rw [populate_bare hregions hbase, ends_pure, hallocated]
      rw [hallocated] at hfirst
      injection hfirst with hfirst
      exact ⟨rfl, by rw [← hfirst]; exact hroot.frame_root⟩
  obtain ⟨spaces, hspaces, heq⟩ := exists_of_census hinstalled.census
  simp only [Spaces.census, Prod.mk.injEq] at heq
  refine ⟨m₂, stock₂, h₂, hinstalled.frames.trans hleft, spaces, hspaces, heq.2.2, ?_, ?_, ?_, ?_⟩
  · -- the root of the kernel space is the frame of its root table
    have hkernel := (h₂.reachable.sound.machine.spaces hspaces).kernel
    rw [heq.1, hinstalled.unmarked.alike.frame, hframe] at hkernel
    exact (Option.some.inj hkernel).symm
  · rw [hinstalled.moved.root, heq.2.1]
  · exact savedRoot_of_moved hinstalled.moved
  · intro other hne
    rw [hinstalled.moved.noted, if_neg hne, roots?, hspaces₁]
    rfl

/-- Four frames of free memory, which the kernel does not map. -/
def smallMap : BootMap :=
  ⟨[⟨0, .free, ⟨false, true⟩⟩, ⟨4 * frameSize, .endMarker, .none⟩], by decide⟩

/-- Four frames are enough for that, and one is left for the root of a task. -/
theorem exists_started_smallMap (hbase : config.kernelImageBase = none)
    (ruleFrames : Rule (.initFrames smallMap)) (ruleInit : Rule (.init smallMap [])) :
    ∃ m stock, Answered format config Rule 0 [(0, .initFrames smallMap), (0, .init smallMap [])] m stock
      ∧ m.store.frames.allocatePage.1 = .ok (2 * frameSize)
      ∧ ∃ spaces, m.spaces = some spaces ∧ spaces.tasks = []
        ∧ (m.cpu 0).root = spaces.kernel.root ∧ savedRoot m 0 = none
        ∧ ∀ other, other ≠ 0 → m.roots? other = none := by
  have hframes : (FrameAllocator.init ⟨0, none⟩ smallMap {}).2.1
      = ⟨0, some (FrameBitmap.ofMap smallMap)⟩ := by decide +kernel
  have hfirst : (FrameAllocator.mk 0 (some (FrameBitmap.ofMap smallMap))).allocatePage.1
      = .ok frameSize := by decide +kernel
  have hsecond : (FrameAllocator.mk 0 (some (FrameBitmap.ofMap smallMap))).allocatePage.2.allocatePage.1
      = .ok (2 * frameSize) := by decide +kernel
  obtain ⟨m, stock, h, hleft, spaces, hspaces, htasks, -, hat⟩ : ∃ m stock,
      Answered format config Rule 0 [(0, .initFrames smallMap), (0, .init smallMap [])] m stock
        ∧ _ ∧ _ :=
    exists_started (by decide) (by decide) hbase hframes hfirst ruleFrames ruleInit 0
  exact ⟨m, stock, h, by rw [hleft]; exact hsecond, spaces, hspaces, htasks, hat⟩

end

end KernelMemory
