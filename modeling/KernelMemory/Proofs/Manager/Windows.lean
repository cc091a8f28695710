/-
  KernelMemory.Proofs.Manager.Windows — device windows that are mapped, and those that are skipped.

  A window that cannot be mapped is skipped with a warning, and is not published.  It is walked page
  by page, in one view and then in the other, up to a page that something is in the way of; what was
  mapped before that page stays mapped.  This is all that comes of a skipped window, and only what
  can be seen comes of it: where it changes no address, tables and frames are as they were, and the
  windows after it are mapped as if it had not been given.

  Main results:
    * `ends_mapViews_window` — one window;
    * `ends_mapWindows_laid`, `ends_populate_windows` — the windows of a list, and all of the tree;
    * `windows_mapped_or_skipped` — the kernel space after the start.
-/

import KernelMemory.Proofs.Manager.Following
import KernelMemory.Proofs.Manager.ImageView
import KernelMemory.Proofs.Manager.Sheets
import KernelMemory.Proofs.Paging.Notice

namespace KernelMemory

open Machine Manager Steps

/-! ## Windows as sheets -/

namespace DeviceWindow

/-- What a window is mapped with. -/
def pageFlags (window : DeviceWindow) : PageFlags :=
  PageFlags.kernelData.withCachePolicy window.policy

/-- The memory of a window. -/
def region (window : DeviceWindow) : MemoryRegion := ⟨window.base, window.size⟩

/-- One view of a window. -/
def viewSheet (window : DeviceWindow) (virt : VirtAddr) : Sheet :=
  rangeSheet virt window.base window.size window.pageFlags

/-- Views of a window, each over those before. -/
def viewsSheet (window : DeviceWindow) (views : List VirtAddr) : Sheet :=
  KernelMemory.viewsSheet window.base window.size window.pageFlags views

/-- A window in all its views. -/
def sheet (config : Config) (window : DeviceWindow) : Sheet :=
  window.viewsSheet (config.views window.base)

end DeviceWindow

/-- What is mapped of a window before the page that something is in the way of: some of its views,
and of the next one the pages before that page, which shows something else. -/
inductive Halfway (config : Config) (window : DeviceWindow) (below : Sheet) : Sheet → Prop where
  | at_page {before after : List VirtAddr} {virt : VirtAddr} {front q : Nat}
      {found : Nat × PageFlags} (views : config.views window.base = before ++ virt :: after)
      (page : window.viewSheet virt front = some (q, window.pageFlags))
      (mod : front % frameSize = 0)
      (taken : (((window.viewSheet virt).upTo front).onto (window.viewsSheet before)).onto below front
        = some found)
      (differs : found ≠ (q, window.pageFlags)) :
      Halfway config window below (((window.viewSheet virt).upTo front).onto (window.viewsSheet before))

/-- Nothing comes of a window: it is out of range in some view, or what is mapped of it before the page
that something is in the way of does not change what is seen. -/
def DeviceWindow.Traceless (format : Format) (config : Config) (window : DeviceWindow)
    (below : Sheet) : Prop :=
  config.Beyond format window.base window.size
    ∨ ∃ part, Halfway config window below part
      ∧ ∀ w, format.virtualInRange w = true → part.onto below w = below w

/-- How device windows come to be seen, from what was seen before them: which of them are published,
which are not but have left something behind, and what is seen in the end. -/
inductive WindowsLaid (format : Format) (config : Config) :
    Sheet → List DeviceWindow → List DeviceWindow → List DeviceWindow → Sheet → Prop where
  | nil (below : Sheet) : WindowsLaid format config below [] [] [] below
  /-- A window that is in range is mapped. -/
  | mapped {below top : Sheet} {window : DeviceWindow} {rest published left : List DeviceWindow}
      (within : ¬ config.Beyond format window.base window.size)
      (later : WindowsLaid format config ((window.sheet config).onto below) rest published left top) :
      WindowsLaid format config below (window :: rest) (window :: published) left top
  /-- A window is skipped, and nothing comes of it. -/
  | skipped {below top : Sheet} {window : DeviceWindow} {rest published left : List DeviceWindow}
      (traceless : window.Traceless format config below)
      (later : WindowsLaid format config below rest published left top) :
      WindowsLaid format config below (window :: rest) published left top
  /-- A window is skipped halfway, which can be seen. -/
  | halfway {below top part : Sheet} {window : DeviceWindow} {rest published left : List DeviceWindow}
      (halted : Halfway config window below part)
      (seen : ∃ w, format.virtualInRange w = true ∧ part.onto below w ≠ below w)
      (later : WindowsLaid format config (part.onto below) rest published left top) :
      WindowsLaid format config below (window :: rest) published (window :: left) top

section

variable {format : Format} {config : Config} {window : DeviceWindow} {below part top : Sheet}
  {windows published left : List DeviceWindow} {w : Nat}

/-- What is left of a window is seen where the window would be. -/
theorem Halfway.eq_none (h : Halfway config window below part) (hw : window.sheet config w = none) :
    part w = none := by
  obtain @⟨before, after, virt, front, q, found, views, -, -, -, -⟩ := h
  rw [DeviceWindow.sheet, views, DeviceWindow.viewsSheet, viewsSheet_append, Sheet.onto_eq_none,
    KernelMemory.viewsSheet, Sheet.onto_eq_none] at hw
  obtain ⟨⟨-, hvirt⟩, hbefore⟩ := hw
  refine Sheet.onto_eq_none.mpr ⟨Option.eq_none_iff_forall_ne_some.mpr fun p hp => ?_, hbefore⟩
  have hshown := (Sheet.upTo_eq_some.mp hp).2
  cases hvirt.symm.trans hshown

theorem WindowsLaid.sublist (h : WindowsLaid format config below windows published left top) :
    published.Sublist windows := by
  induction h with
  | nil below => exact List.Sublist.slnil
  | mapped within later ih => exact ih.cons_cons _
  | skipped traceless later ih => exact ih.cons _
  | halfway halted seen later ih => exact ih.cons _

/-- Where all windows are published, none has left anything behind. -/
theorem WindowsLaid.left_eq_nil (h : WindowsLaid format config below windows published left top)
    (all : windows.length ≤ published.length) : left = [] := by
  induction h with
  | nil below => rfl
  | mapped within later ih => exact ih (Nat.le_of_succ_le_succ all)
  | skipped traceless later ih => exact absurd (Nat.lt_of_lt_of_le all later.sublist.length_le) (Nat.lt_irrefl _)
  | halfway halted seen later ih =>
    exact absurd (Nat.lt_of_lt_of_le all later.sublist.length_le) (Nat.lt_irrefl _)

/-- Windows in all their views, each over what was seen before it. -/
def windowsSheet (config : Config) : List DeviceWindow → Sheet → Sheet
  | [], below => below
  | window :: rest, below => windowsSheet config rest ((window.sheet config).onto below)

/-- Apart from the windows that have left something behind, the published ones are what is seen. -/
theorem WindowsLaid.top_eq (h : WindowsLaid format config below windows published left top)
    (apart : ∀ window ∈ left, window.sheet config w = none) :
    ∀ {start : Sheet}, start w = below w → top w = windowsSheet config published start w := by
  induction h with
  | nil below => exact fun hstart => hstart.symm
  | mapped within later ih => exact fun hstart => ih apart (by rw [Sheet.onto, Sheet.onto, hstart])
  | skipped traceless later ih => exact ih apart
  | halfway halted seen later ih =>
    intro start hstart
    refine ih (fun window hwindow => apart window (List.mem_cons_of_mem _ hwindow)) ?_
    rw [Sheet.onto, halted.eq_none (apart _ List.mem_cons_self), Option.none_or, hstart]

end

/-- The kernel image, where the configuration says that it is mapped. -/
def imageSheet (config : Config) (image : Option MemoryRegion) : Sheet :=
  match config.kernelImageBase, image with
  | some virt, some region => rangeSheet virt region.base region.size PageFlags.kernelData
  | _, _ => .blank

/-- What the kernel space shows before device windows are mapped. -/
def startSheet (format : Format) (config : Config) (map : BootMap) (image : Option MemoryRegion) :
    Sheet :=
  (imageSheet config image).onto (regionsSheet format config (mappedRegions map))

namespace Manager

variable {format : Format} {config : Config} {tree : KernelTree} {stock : Stock}
  {virt phys size base : Nat} {flags : PageFlags} {s s' s₁ s₂ t : TableStore}
  {window : DeviceWindow} {windows published : List DeviceWindow} {below : Sheet}

/-! ## One window -/

/-- What was noticed is not hidden by what is laid over it with the same attributes. -/
theorem noticed_of_painted {top : Sheet} (h : SameOrNoticed format tree.root flags s s₁)
    (hpainted : Painted format tree stock top s₁ s₂)
    (hflags : ∀ {w found}, top w = some found → found.2 = flags)
    (h' : SameOrNoticed format tree.root flags s₁ s₂) :
    SameOrNoticed format tree.root flags s s₂ := by
  rcases h with same | ⟨w, q, hw, hshown, hnew⟩
  · rcases h' with same' | ⟨w, q, hw, hshown, hnew⟩
    · exact .inl ⟨same'.frames.trans same.frames, same'.arena.trans same.arena⟩
    · exact .inr ⟨w, q, hw, hshown, same.arena ▸ hnew⟩
  · obtain ⟨flags', hkept⟩ := hpainted.keeps hshown
    refine .inr ⟨w, q, hw, ?_, hnew⟩
    rw [hpainted.view hw, Sheet.onto] at hkept ⊢
    cases hfound : top w with
    | none =>
      rw [Option.none_or]
      exact hshown
    | some found =>
      rw [hfound, Option.some_or] at hkept
      rw [Option.some_or, hkept, ← hflags hfound, Option.some.inj hkept]

/-- One view of memory changes something that can be seen, or nothing. -/
theorem ends_mapView_noticed (h : TreeReady format tree stock s)
    (hcheck : checkRange format virt phys size = .ok ()) :
    Ends (mapView format config tree virt phys size flags) s
      (fun _ s' => SameOrNoticed format tree.root flags s s')
      (onRefusal fun e s' => e = .incompatible → SameOrNoticed format tree.root flags s s') := by
  by_cases hsize : size = 0
  · subst hsize
    rw [mapView, if_pos rfl]
    exact .inl ⟨rfl, rfl⟩
  · have hready : (viewRequest config tree virt phys size flags).Ready format tree.root s :=
      ⟨.of_checkRange rfl (Nat.pos_of_ne_zero hsize) hcheck, h.root⟩
    have hwalkable := h.orderly.walkable
    rw [h.orderly.ledger.initialized h.total_ne_zero] at hwalkable
    rw [mapView_eq hsize, ends_bind, ends_ofResult_ok hcheck]
    exact Walk.ends_mapRange_noticed hwalkable hready.fitted

/-- Views of a window were mapped, and nothing else. -/
structure ViewsMapped (format : Format) (tree : KernelTree) (stock : Stock) (window : DeviceWindow)
    (views : List VirtAddr) (s s' : TableStore) : Prop where
  painted : Painted format tree stock (window.viewsSheet views) s s'
  noticed : SameOrNoticed format tree.root window.pageFlags s s'
  shown : ∀ virt ∈ views, virt % frameSize = window.base % frameSize →
    s'.arena.Shown format tree.root virt window.region

theorem ViewsMapped.start (h : TreeReady format tree stock s) (window : DeviceWindow) :
    ViewsMapped format tree stock window [] s s where
  painted := .of_same h ⟨rfl, rfl⟩
  noticed := .inl ⟨rfl, rfl⟩
  shown := nofun

theorem ViewsMapped.next {views : List VirtAddr} (h : ViewsMapped format tree stock window views s s₁)
    (hcheck : checkRange format virt window.base window.size = .ok ())
    (hpainted : Painted format tree stock (window.viewSheet virt) s₁ s₂)
    (hnoticed : SameOrNoticed format tree.root window.pageFlags s₁ s₂) :
    ViewsMapped format tree stock window (views ++ [virt]) s s₂ where
  painted := by
    rw [DeviceWindow.viewsSheet, viewsSheet_append]
    exact h.painted.trans hpainted
  noticed := noticed_of_painted h.noticed hpainted rangeSheet_flags hnoticed
  shown := fun v hv alike i hi hnull => by
    rcases List.mem_append.mp hv with hv | hv
    · obtain ⟨flags, hview⟩ := h.shown v hv alike i hi hnull
      exact hpainted.keeps hview
    · obtain rfl := List.mem_singleton.mp hv
      have hpos : 0 < window.size := Nat.zero_lt_of_lt hi
      have hfound : window.viewSheet v (v + i) = some (window.base + i, window.pageFlags) :=
        (@rangeSheet_eq_some_iff window.pageFlags
          (viewRequest {} tree v window.base window.size window.pageFlags) hpos _ _ _).mpr
          ⟨covers_viewRequest hpos hcheck alike hi hnull, rfl⟩
      refine ⟨window.pageFlags, ?_⟩
      rw [hpainted.view (hpainted.inRange hfound), Sheet.onto, hfound]
      rfl

/-- A window that was not mapped, though not for want of memory, left nothing behind, or what was
mapped of it until something was in the way. -/
inductive WindowSkipped (format : Format) (config : Config) (tree : KernelTree) (stock : Stock)
    (window : DeviceWindow) (below : Sheet) (s s' : TableStore) : Prop where
  | untouched (traceless : window.Traceless format config below) (same : s.Same s')
  | halfway {part : Sheet} (halted : Halfway config window below part)
      (painted : Painted format tree stock part s s')
      (noticed : Noticed format tree.root window.pageFlags s s')

/-- A window is mapped in all its views, or skipped. -/
theorem ends_mapViews_window (h : TreeReady format tree stock s) (unsealed : tree.rootSealed = false)
    (hbelow : ∀ {w}, format.virtualInRange w = true →
      s.arena.view format tree.root w = below w) (window : DeviceWindow) :
    Ends (mapViews format config tree window.base window.size window.policy) s
      (fun _ s' => ¬ config.Beyond format window.base window.size
        ∧ ViewsMapped format tree stock window (config.views window.base) s s')
      (onRefusal fun e s' => e ≠ .outOfMemory →
        WindowSkipped format config tree stock window below s s') := by
  refine ends_mapViews_each (fun views s₁ => ViewsMapped format tree stock window views s s₁)
    (fun hbeyond _ => .untouched (.inl hbeyond) ⟨rfl, rfl⟩) (.start h window)
    fun {before after virt s₁} hviews hcheck hmapped => ?_
  refine ((ends_mapView_painted hmapped.painted.ready hcheck).and
    (ends_mapView_noticed hmapped.painted.ready hcheck)).mono (fun _ s' h' => hmapped.next hcheck h'.1 h'.2)
    fun f s' hf => ?_
  cases f with
  | fault fault => exact hf.1
  | refused error =>
    obtain ⟨⟨front, q, hhalted⟩, hnoticed⟩ := hf
    intro hmemory
    have hpainted := hmapped.painted.trans hhalted.painted
    rcases hhalted.why with rfl | ⟨-, sealing⟩ | ⟨rfl, p, flags', hfound, hdiffers⟩
    · exact absurd rfl hmemory
    · cases unsealed.symm.trans sealing
    · have hrange := hhalted.inRange
      rw [hpainted.view hrange, Sheet.onto, hbelow hrange] at hfound
      have halfway : Halfway config window below _ :=
        .at_page hviews hhalted.page hhalted.mod hfound fun hsame => by
          cases hsame
          exact hdiffers.elim (fun hne => hne rfl) fun hne => hne rfl
      rcases noticed_of_painted hmapped.noticed hhalted.painted
        (fun hsome => rangeSheet_flags (Sheet.upTo_eq_some.mp hsome).2) (hnoticed rfl) with
          same | hseen
      · refine .untouched (.inr ⟨_, halfway, fun w hw => ?_⟩) same
        have hview := hpainted.view hw
        rw [same.arena, Sheet.onto, hbelow hw] at hview
        exact hview.symm
      · exact .halfway halfway hpainted hseen

/-! ## The windows of a list -/

/-- After a window the others come, whether it was mapped or skipped. -/
theorem ends_mapWindows_cons {rest : List DeviceWindow} {done : List DeviceWindow → TableStore → Prop}
    (hviews : Ends (mapViews format config tree window.base window.size window.policy) s
      (fun _ s₁ => ∀ {s₂}, s₁.Same s₂ → Ends (mapWindows format config tree rest) s₂
        (fun published s' => done (window :: published) s') (onRefusal fun _ _ => True))
      (onRefusal fun e s₁ => e ≠ .outOfMemory → ∀ {s₂}, s₁.Same s₂ →
        Ends (mapWindows format config tree rest) s₂ done (onRefusal fun _ _ => True))) :
    Ends (mapWindows format config tree (window :: rest)) s done (onRefusal fun _ _ => True) := by
  rw [mapWindows, ends_bind, ends_attempt]
  refine hviews.mono (fun _ s₁ h₁ => ?_) fun f s₁ hf => ?_
  · simp only
    rw [ends_bind, TableStore.ends_write, ends_bind]
    exact h₁ ⟨rfl, rfl⟩
  · cases f with
    | fault fault => exact hf
    | refused error =>
      have hrest : error ≠ .outOfMemory → ∀ {level text}, Ends (do
          TableStore.write level text
          mapWindows format config tree rest) s₁ done (onRefusal fun _ _ => True) := by
        intro hmemory level text
        rw [ends_bind, TableStore.ends_write]
        exact hf hmemory ⟨rfl, rfl⟩
      cases error with
      | outOfMemory => trivial
      | _ => exact hrest (by rintro ⟨⟩)

/-- Where there is more room, these windows are all mapped when they alone are given, and the tables
come out as they did here. -/
def MappedAlone (format : Format) (config : Config) (tree : KernelTree)
    (published : List DeviceWindow) (s s' : TableStore) : Prop :=
  ∀ t, TableStore.Roomier s t →
    ∃ t', mapWindows format config tree published t = .ok published t' ∧ TableStore.Roomier s' t'

theorem MappedAlone.nil (s : TableStore) : MappedAlone format config tree [] s s :=
  fun t h => ⟨t, rfl, h⟩

/-- A window that was skipped is not missed. -/
theorem MappedAlone.same (h : MappedAlone format config tree published s₁ s') (same : s.Same s₁) :
    MappedAlone format config tree published s s' := fun t ht => h t (ht.same same ⟨rfl, rfl⟩)

/-- One that was mapped is mapped again. -/
theorem MappedAlone.cons {changed : Bool} (h : MappedAlone format config tree published s₂ s')
    (e : mapViews format config tree window.base window.size window.policy s = .ok changed s₁)
    (same : s₁.Same s₂) : MappedAlone format config tree (window :: published) s s' := by
  intro t ht
  obtain ⟨t₁, e₁, ht₁⟩ := TableStore.respected_roomier.mapViews.of_ok ht e
  obtain ⟨t', e', ht'⟩ := h { t₁ with log := t₁.log.push ⟨.debug, s!"mapped device window {window.text}"⟩ }
    (ht₁.same same ⟨rfl, rfl⟩)
  refine ⟨t', ?_, ht'⟩
  have hattempt : Steps.attempt (mapViews format config tree window.base window.size window.policy) t
      = .ok (.ok changed) t₁ := by
    unfold Steps.attempt
    rw [e₁]
  rw [mapWindows, bind_of_ok hattempt]
  simp only
  rw [bind_of_ok (show TableStore.write .debug s!"mapped device window {window.text}" t₁ = .ok () _ from
    rfl), bind_of_ok e']
  rfl

/-- The windows of a list were mapped or skipped. -/
structure WindowsMapped (format : Format) (config : Config) (tree : KernelTree) (stock : Stock)
    (below : Sheet) (windows published : List DeviceWindow) (s s' : TableStore) : Prop where
  ready : TreeReady format tree stock s'
  keeps : ∀ {w q flags}, s.arena.view format tree.root w = some (q, flags) →
    ∃ flags', s'.arena.view format tree.root w = some (q, flags')
  shown : ∀ window ∈ published, ∀ virt ∈ config.views window.base,
    virt % frameSize = window.base % frameSize → s'.arena.Shown format tree.root virt window.region
  laid : ∃ left top, WindowsLaid format config below windows published left top
    ∧ (∀ {w}, format.virtualInRange w = true → s'.arena.view format tree.root w = top w)
    ∧ (left = [] → MappedAlone format config tree published s s')

theorem WindowsMapped.mapped {changed : Bool} {rest : List DeviceWindow}
    (h : WindowsMapped format config tree stock ((window.sheet config).onto below) rest published s₂ s')
    (e : mapViews format config tree window.base window.size window.policy s = .ok changed s₁)
    (within : ¬ config.Beyond format window.base window.size)
    (hmapped : ViewsMapped format tree stock window (config.views window.base) s s₁)
    (same : s₁.Same s₂) :
    WindowsMapped format config tree stock below (window :: rest) (window :: published) s s' := by
  obtain ⟨left, top, hlaid, hview, halone⟩ := h.laid
  refine ⟨h.ready, fun hview => ?_, fun w hw virt hvirt alike => ?_, left, top, .mapped within hlaid, hview,
    fun hleft => (halone hleft).cons e same⟩
  · obtain ⟨flags, hkept⟩ := hmapped.painted.keeps hview
    exact h.keeps (same.arena ▸ hkept)
  · rcases List.mem_cons.mp hw with rfl | hw
    · intro i hi hnull
      obtain ⟨flags, hfirst⟩ := hmapped.shown virt hvirt alike i hi hnull
      exact h.keeps (same.arena ▸ hfirst)
    · exact h.shown w hw virt hvirt alike

theorem WindowsMapped.skipped {rest : List DeviceWindow}
    (h : WindowsMapped format config tree stock below rest published s₁ s')
    (traceless : window.Traceless format config below) (same : s.Same s₁) :
    WindowsMapped format config tree stock below (window :: rest) published s s' := by
  obtain ⟨left, top, hlaid, hview, halone⟩ := h.laid
  exact ⟨h.ready, fun hview => h.keeps (same.arena ▸ hview), h.shown, left, top, .skipped traceless hlaid,
    hview,
    fun hleft => (halone hleft).same same⟩

theorem WindowsMapped.halfway {part : Sheet} {rest : List DeviceWindow}
    (h : WindowsMapped format config tree stock (part.onto below) rest published s₂ s')
    (hbelow : ∀ {w}, format.virtualInRange w = true → s.arena.view format tree.root w = below w)
    (halted : Halfway config window below part) (painted : Painted format tree stock part s s₁)
    (noticed : Noticed format tree.root window.pageFlags s s₁) (same : s₁.Same s₂) :
    WindowsMapped format config tree stock below (window :: rest) published s s' := by
  obtain ⟨left, top, hlaid, hview, -⟩ := h.laid
  obtain ⟨w, q, hw, hshown, hnew⟩ := noticed
  refine ⟨h.ready, fun hview => ?_, h.shown, window :: left, top, .halfway halted ⟨w, hw, ?_⟩ hlaid,
    hview, nofun⟩
  · obtain ⟨flags, hkept⟩ := painted.keeps hview
    exact h.keeps (same.arena ▸ hkept)
  · rw [painted.view hw, Sheet.onto, hbelow hw] at hshown
    rw [hbelow hw, ← hshown] at hnew
    exact hnew.symm

theorem ends_mapWindows_laid (unsealed : tree.rootSealed = false) :
    ∀ {windows : List DeviceWindow} {below : Sheet} {s : TableStore},
      TreeReady format tree stock s →
      (∀ {w}, format.virtualInRange w = true → s.arena.view format tree.root w = below w) →
      Ends (mapWindows format config tree windows) s
        (fun published s' => WindowsMapped format config tree stock below windows published s s')
        (onRefusal fun _ _ => True) := by
  -- induction on the windows, each over what was seen before it
  intro windows
  induction windows with
  | nil =>
    intro below s h hbelow
    exact ⟨h, fun hview => ⟨_, hview⟩, nofun, [], below, .nil below, hbelow, fun _ => .nil s⟩
  | cons window rest ih =>
    intro below s h hbelow
    have hrest : ∀ {part s₁ s₂}, Painted format tree stock part s s₁ → s₁.Same s₂ →
        Ends (mapWindows format config tree rest) s₂
          (fun published s' => WindowsMapped format config tree stock (part.onto below) rest published
            s₂ s') (onRefusal fun _ _ => True) := by
      intro part s₁ s₂ hpainted same
      have hdone := hpainted.between ⟨rfl, rfl⟩ same
      refine ih hdone.ready fun {w} hw => ?_
      rw [hdone.view hw, Sheet.onto, hbelow hw]
      rfl
    refine ends_mapWindows_cons (((ends_self _ s).and
      (ends_mapViews_window h unsealed hbelow window)).mono (fun changed s₁ h₁ => ?_)
      fun f s₁ hf => ?_)
    · obtain ⟨e, within, hmapped⟩ := h₁
      intro s₂ same
      exact (hrest hmapped.painted same).weaken (fun _ _ h' => h'.mapped e within hmapped same)
        fun _ _ _ => trivial
    · cases f with
      | fault fault => exact hf.2
      | refused error =>
        intro hmemory s₂ same
        cases hf.2 hmemory with
        | untouched traceless same' =>
          have hsame : s.Same s₂ := ⟨same.frames.trans same'.frames, same.arena.trans same'.arena⟩
          refine (ih (h.same hsame) fun {w} hw => ?_).weaken (fun _ _ h' => h'.skipped traceless hsame)
            fun _ _ _ => trivial
          rw [hsame.arena]
          exact hbelow hw
        | halfway halted painted noticed =>
          exact (hrest painted same).weaken
            (fun _ _ h' => h'.halfway hbelow halted painted noticed same) fun _ _ _ => trivial

/-! ## The kernel tree -/

/-- Mapping the image shows it, as far as the configuration asks for it. -/
theorem ends_mapImage_painted (h : TreeReady format tree stock s) (image : Option MemoryRegion) :
    Ends (mapImage format config tree image) s
      (fun _ s' => Painted format tree stock (imageSheet config image) s s')
      (onRefusal fun _ _ => True) := by
  unfold mapImage imageSheet
  cases config.kernelImageBase with
  | none => exact .of_same h ⟨rfl, rfl⟩
  | some virt =>
    cases image with
    | none => exact .of_same h ⟨rfl, rfl⟩
    | some region =>
      simp only
      rw [ends_bind]
      cases hcheck : checkRange format virt region.base region.size with
      | error error =>
        have hsize : region.size ≠ 0 := by
          intro hzero
          rw [checkRange, if_pos hzero] at hcheck
          cases hcheck
        rw [mapView_eq hsize, ends_bind, hcheck]
        trivial
      | ok _ =>
        refine (ends_mapView_painted h hcheck).weaken (fun _ s₁ h₁ => ?_) fun _ _ _ => trivial
        exact h₁.between ⟨rfl, rfl⟩ ⟨rfl, rfl⟩

/-- The kernel tree of a map, with those windows that can be mapped. -/
structure TreeBuilt (format : Format) (config : Config) (tree : KernelTree) (map : BootMap)
    (image : Option MemoryRegion) (windows published : List DeviceWindow) (s s' : TableStore) :
    Prop where
  shown : ∀ window ∈ published, ∀ virt ∈ config.views window.base,
    virt % frameSize = window.base % frameSize → s'.arena.Shown format tree.root virt window.region
  laid : ∃ left top,
    WindowsLaid format config (startSheet format config map image) windows published left top
      ∧ (∀ {w}, format.virtualInRange w = true → s'.arena.view format tree.root w = top w)
      ∧ (left = [] → ∀ t, TableStore.Roomier s t → ∃ t',
        populate format config tree map image published t = .ok published t'
          ∧ TableStore.Roomier s' t')

theorem ends_populate_windows {map : BootMap} {image : Option MemoryRegion}
    (h : TreeReady format tree stock s) (unsealed : tree.rootSealed = false)
    (vacant : ∀ w, s.arena.view format tree.root w = none) :
    Ends (populate format config tree map image windows) s
      (fun published s' => TreeBuilt format config tree map image windows published s s')
      (fun _ _ => True) := by
  rw [populate, ends_bind]
  refine ((ends_self _ s).and (ends_mapRegions_painted nonempty_of_mapped h)).mono (fun _ s₁ h₁ => ?_)
    fun _ _ _ => trivial
  obtain ⟨e₁, hregions⟩ := h₁
  rw [ends_bind]
  refine ((ends_self _ s₁).and (ends_mapImage_painted hregions.ready image)).mono (fun _ s₂ h₂ => ?_)
    fun _ _ _ => trivial
  obtain ⟨e₂, himage⟩ := h₂
  have hstart : ∀ {w}, format.virtualInRange w = true →
      s₂.arena.view format tree.root w = startSheet format config map image w := by
    intro w hw
    rw [(hregions.trans himage).view hw, Sheet.onto, vacant, Option.or_none]
    rfl
  refine (ends_mapWindows_laid unsealed himage.ready hstart).mono (fun published s' h' => ?_)
    fun _ _ _ => trivial
  obtain ⟨left, top, hlaid, hview, halone⟩ := h'.laid
  refine ⟨h'.shown, left, top, hlaid, hview, fun hleft t ht => ?_⟩
  obtain ⟨t₁, e₁', ht₁⟩ := TableStore.respected_roomier.mapRegions.of_ok ht e₁
  obtain ⟨t₂, e₂', ht₂⟩ := TableStore.respected_roomier.mapImage.of_ok ht₁ e₂
  obtain ⟨t', e', ht'⟩ := halone hleft t₂ ht₂
  exact ⟨t', by rw [populate, bind_of_ok e₁', bind_of_ok e₂', e'], ht'⟩

/-! ## The start -/

section

variable {cpu : CpuId} {m m' : Machine} {map : BootMap} {space : AddressSpace} {root : TableId}

/-- What the manager publishes when it is started is what it mapped. -/
theorem ends_finishInit_published (mapped : List DeviceWindow) :
    Ends (finishInit format cpu root (.ok mapped)) m
      (fun _ m' => m'.descriptor = (m.descriptor.publishDeviceWindows mapped).2) (fun _ _ => True) := by
  have hcommit : ∀ m₁ : Machine,
      Ends (commit format) m₁ (fun _ m₂ => m₂.descriptor = m₁.descriptor) (fun _ _ => True) := by
    intro m₁
    cases hdone : m₁.store.arena.commit format m₁.memory with
    | error fault => simp only [Ends, commit, hdone]
    | ok done => simp only [Ends, commit, hdone]
  rw [finishInit, ends_bind, ends_modify, ends_bind]
  refine (hcommit _).mono (fun _ m₁ h₁ => ?_) fun _ _ _ => trivial
  rw [ends_bind, ends_onStore]
  refine (ends_self _ m₁.store).mono (fun table s _ => ?_) fun _ _ _ => trivial
  rw [ends_bind, ends_onCpu, ends_bind, ends_modify, ends_bind, ends_get, ends_bind]
  exact h₁

/-- The start, told by how the kernel tree was built and which windows were mapped. -/
theorem ends_init_built {windows : List DeviceWindow} (h : m.Sound format stock)
    (hspaces : m.spaces = none)
    (built : TableId → TableStore → List DeviceWindow → TableStore → Prop)
    (hbuilt : ∀ {frame : PhysAddr} {root : TableId} {s : TableStore},
      FirstRoot format stock m.memory frame root s →
        Ends (populate format config ⟨root, false⟩ map m.descriptor.kernelImage windows) s
          (fun mapped s' => built root s mapped s') (fun _ _ => True)) :
    Ends (init format config cpu map windows) m
      (fun space m' => ∃ root s mapped s',
        TableStore.addTable format format.topLevel false m.store = .ok root s
          ∧ built root s mapped s' ∧ m'.descriptor = (m.descriptor.publishDeviceWindows mapped).2
          ∧ InitDone format config stock cpu space m m' ∧ Installed format cpu root space.root s' m m')
      (fun _ _ => True) := by
  rw [ends_init_unstarted hspaces, ends_bind, ends_onStore]
  refine ((ends_self _ m.store).and (ends_addRoot h hspaces)).mono (fun root s h₁ => ?_)
    fun _ _ _ => trivial
  obtain ⟨hroot, frame, -, hfirst⟩ := h₁
  rw [ends_bind, ends_attempt, ends_onStore]
  refine ((ends_populate hfirst.ready).and (hbuilt hfirst)).mono (fun mapped s' h₂ => ?_)
    fun f s' _ => ?_
  · refine ((ends_finishInit_built mapped hspaces hfirst h₂.1).and
      (ends_finishInit_published mapped)).mono (fun space m' h' => ?_) fun _ _ _ => trivial
    obtain ⟨⟨-, hinit, hinstalled⟩, hpublished⟩ := h'
    exact ⟨root, s, mapped, s', hroot, h₂.2, hpublished, hinit, hinstalled⟩
  · cases f with
    | fault fault => trivial
    | refused error =>
      simp only [finishInit]
      rw [ends_bind]
      exact (ends_self _ _).mono (fun _ _ _ => trivial) fun _ _ _ => trivial

end

end Manager

/-! ## The kernel space after the start -/

/-- The memory of a window holds an address. -/
def DeviceWindow.Holds (window : DeviceWindow) (a : Nat) : Prop :=
  window.base ≤ a ∧ a < window.base + window.size

/-- What is seen at an address of a space. -/
def Machine.shown (m : Machine) (format : Format) (space : AddressSpace) (virt : VirtAddr) :
    Except Fault (Option (Nat × PageFlags)) :=
  (m.covering format space virt).map (Option.map fun (mapping, level) =>
    (mapping.frame + virt % format.span level, mapping.flags))

/-- A machine before its manager is started: frames are in order, and there are no tables, no spaces
and no published windows. -/
structure Machine.Unstarted (m : Machine) : Prop where
  frames : m.store.frames.WellFormed
  spaces : m.spaces = none
  arena : m.store.arena = Arena.empty
  windows : m.descriptor.deviceWindows = none

section

variable {format : Format} {config : Config} {stock : Stock} {cpu : CpuId} {map : BootMap}
  {m m' m₂ : Machine} {space : AddressSpace} {root : TableId} {s : TableStore}
  {windows published : List DeviceWindow}

theorem Machine.Unstarted.sound (h : m.Unstarted) (format : Format) :
    m.Sound format m.store.frames.inUse := sound_unstarted h.frames h.spaces h.arena

/-- Windows that are published first stay so. -/
theorem Machine.Unstarted.publish (h : m.Unstarted) (mapped : List DeviceWindow) :
    (m.descriptor.publishDeviceWindows mapped).2.deviceWindows = some mapped := by
  rw [Descriptor.publishDeviceWindows]
  simp only
  rw [h.windows, Option.none_or]

theorem Manager.Installed.shown (h : Installed format cpu root space.root s m m')
    (hsound : m'.Sound format stock) (w : Nat) :
    m'.shown format space w = .ok (s.arena.view format root w) := by
  rw [Machine.shown, covering_eq_lookup hsound (h.rootTable hsound), h.lookup]
  rfl

/-- A store that was not used is as roomy as another one if it has as many free frames. -/
theorem Machine.Unstarted.roomier (h : m.Unstarted) (h₂ : m₂.Unstarted)
    (initialized : m.store.frames.isInitialized = true)
    (room : m.store.frames.available .normal ≤ m₂.store.frames.available .normal) :
    TableStore.Roomier m.store m₂.store where
  names := by rw [h.arena]; exact Arena.names_empty
  arena := by rw [h.arena, h₂.arena]; exact .refl _
  left := h.frames
  right := h₂.frames
  initialized := initialized
  room := room

/-- Where the tree can be built, the manager starts, publishes the windows that were mapped, and shows
the tree. -/
theorem exists_init_published {s' : TableStore} (h : m.Unstarted) (cpu : CpuId)
    (hroot : TableStore.addTable format format.topLevel false m.store = .ok root s)
    (hpopulate : populate format config ⟨root, false⟩ map m.descriptor.kernelImage windows s
      = .ok published s') :
    ∃ space m', init format config cpu map windows m = .ok space m'
      ∧ m'.descriptor.deviceWindows = some published
      ∧ ∀ w, m'.shown format space w = .ok (s'.arena.view format root w) := by
  obtain ⟨space, m', e, -⟩ := exists_init cpu (h.sound format) h.spaces hroot hpopulate
  have hends : Ends (init format config cpu map windows) m _ _ :=
    ends_init_built (h.sound format) h.spaces
      (fun root s mapped s' => populate format config ⟨root, false⟩ map m.descriptor.kernelImage
        windows s = .ok mapped s')
      fun _ => (ends_self _ _).mono (fun _ _ h' => h') fun _ _ _ => trivial
  obtain ⟨root₁, s₁, mapped, s₁', hroot₁, hpopulate₁, hpublished, hinit, hinstalled⟩ := hends.of_ok e
  cases hroot.symm.trans hroot₁
  cases hpopulate.symm.trans hpopulate₁
  refine ⟨space, m', e, ?_, fun w => hinstalled.shown hinit.started.sound w⟩
  rw [hpublished, h.publish]

/-- A start that went well has built its tree in a first table, publishes the windows that it mapped
there, and shows the tree. -/
theorem Machine.Unstarted.init_built (h : m.Unstarted)
    (e : init format config cpu map windows m = .ok space m') :
    ∃ root s published s', TableStore.addTable format format.topLevel false m.store = .ok root s
      ∧ s.frames.isInitialized = true
      ∧ TreeBuilt format config ⟨root, false⟩ map m.descriptor.kernelImage windows published s s'
      ∧ m'.descriptor.deviceWindows = some published
      ∧ (∀ w, m'.shown format space w = .ok (s'.arena.view format root w))
      ∧ ∀ w : Nat, m'.translate format space w
        = .ok ((s'.arena.view format root w).map Prod.fst) := by
  have hends : Ends (init format config cpu map windows) m _ _ :=
    ends_init_built (h.sound format) h.spaces
      (fun root s mapped s' => s.frames.isInitialized = true
        ∧ TreeBuilt format config ⟨root, false⟩ map m.descriptor.kernelImage windows mapped s s')
      fun hfirst => (ends_populate_windows hfirst.ready rfl hfirst.view_root).mono
        (fun _ _ h' => ⟨hfirst.ledger.initialized hfirst.ready.total_ne_zero, h'⟩) fun _ _ _ => trivial
  obtain ⟨root, s, published, s', hroot, ⟨hinitialized, hbuilt⟩, hpublished, hinit, hinstalled⟩ :=
    hends.of_ok e
  have hsound := hinit.started.sound
  exact ⟨root, s, published, s', hroot, hinitialized, hbuilt, by rw [hpublished, h.publish],
    hinstalled.shown hsound, hinstalled.translate hsound⟩

/-- Where the manager starts, the windows it publishes are some of those that were given, in their
order, and they are seen at their own addresses and at the offset.  Those that are skipped are out of
range, or something is in the way of a page.  The kernel space shows the boot regions and the image,
over them the windows that are published, and of those that are skipped halfway the pages up to the
one that is taken.  A start that is given the published windows alone, and
publishes them too, shows the same apart from these skipped windows; if there are none, then it does
publish them. -/
theorem windows_mapped_or_skipped (h : m.Unstarted)
    (e : init format config cpu map windows m = .ok space m') :
    ∃ published left top, m'.descriptor.deviceWindows = some published
      ∧ published.Sublist windows
      ∧ (∀ window ∈ published, ∀ a, window.Holds a →
          (frameSize ≤ a → m'.translate format space a = .ok (some a))
          ∧ ∀ offset, config.directMapOffset = some offset → offset % frameSize = 0 →
            frameSize ≤ offset + a → m'.translate format space (offset + a) = .ok (some a))
      ∧ WindowsLaid format config (startSheet format config map m.descriptor.kernelImage) windows
        published left top
      ∧ (∀ w, format.virtualInRange w = true → m'.shown format space w = .ok (top w))
      ∧ (∀ (cpu₂ : CpuId) (m₂ m₂' : Machine) (space₂ : AddressSpace), m₂.Unstarted →
          m₂.descriptor.kernelImage = m.descriptor.kernelImage →
          init format config cpu₂ map published m₂ = .ok space₂ m₂' →
          m₂'.descriptor.deviceWindows = some published →
          ∀ w, format.virtualInRange w = true → (∀ window ∈ left, window.sheet config w = none) →
            m₂'.shown format space₂ w = m'.shown format space w)
      ∧ (left = [] → ∀ (cpu₂ : CpuId) (m₂ : Machine), m₂.Unstarted →
          m₂.descriptor.kernelImage = m.descriptor.kernelImage →
          m.store.frames.available .normal ≤ m₂.store.frames.available .normal →
          ∃ space₂ m₂', init format config cpu₂ map published m₂ = .ok space₂ m₂'
            ∧ m₂'.descriptor.deviceWindows = some published
            ∧ ∀ w, format.virtualInRange w = true →
              m₂'.shown format space₂ w = m'.shown format space w) := by
  obtain ⟨root, s, published, s', hroot, hinitialized, hbuilt, hpublished, hshown, htranslate⟩ :=
    h.init_built e
  obtain ⟨left, top, hlaid, hview, halone⟩ := hbuilt.laid
  have hseen : ∀ window ∈ published, ∀ a, window.Holds a → ∀ shift, Shift config shift →
      shift % frameSize = 0 → frameSize ≤ a + shift →
      m'.translate format space (a + shift) = .ok (some a) := by
    intro window hwindow a ha shift hshift hpages hnull
    obtain ⟨i, rfl⟩ := Nat.exists_eq_add_of_le ha.1
    have hi : i < window.size := Nat.lt_of_add_lt_add_left ha.2
    have haddress : window.base + shift + i = window.base + i + shift := Nat.add_right_comm _ _ _
    have alike : (window.base + shift) % frameSize = window.base % frameSize := by
      rw [Nat.add_mod, hpages, Nat.add_zero, Nat.mod_mod]
    obtain ⟨flags, hfound⟩ := hbuilt.shown window hwindow _ (mem_views_iff.mpr ⟨shift, hshift, rfl⟩)
      alike i hi (by rw [haddress]; exact hnull)
    rw [htranslate, ← haddress, hfound]
    rfl
  refine ⟨published, left, top, hpublished, hlaid.sublist, fun window hwindow a ha => ⟨fun hnull => ?_,
    fun offset hoffset hpages hnull => ?_⟩, hlaid, fun w hw => ?_,
    fun cpu₂ m₂ m₂' space₂ h₂ himage e₂ hpublished₂ w hw apart => ?_,
    fun hleft cpu₂ m₂ h₂ himage hroom => ?_⟩
  · exact hseen window hwindow a ha 0 (.inl rfl) rfl hnull
  · rw [Nat.add_comm]
    exact hseen window hwindow a ha offset (.inr hoffset) hpages (by rw [Nat.add_comm]; exact hnull)
  · rw [hshown, hview hw]
  · obtain ⟨root₂, s₂, again, s₂', -, -, hbuilt₂, hagain, hshown₂, -⟩ := h₂.init_built e₂
    cases hpublished₂.symm.trans hagain
    obtain ⟨left₂, top₂, hlaid₂, hview₂, -⟩ := hbuilt₂.laid
    obtain rfl := hlaid₂.left_eq_nil (Nat.le_refl _)
    rw [himage] at hlaid₂
    rw [hshown₂, hview₂ hw, hshown, hview hw, hlaid.top_eq apart rfl, hlaid₂.top_eq nofun rfl]
  · obtain ⟨frame, hframes, -⟩ := (ends_addRoot (h.sound format) h.spaces).of_ok hroot
    have hinit₀ := FrameAllocator.isInitialized_allocatePage m.store.frames
    rw [hframes] at hinit₀
    obtain ⟨t, hroot₂, ht⟩ := (TableStore.respected_roomier.addTable _ _ _).of_ok
      (h.roomier h₂ (hinit₀.symm.trans hinitialized) hroom) hroot
    obtain ⟨t', hpopulate₂, ht'⟩ := halone hleft t ht
    rw [← himage] at hpopulate₂
    obtain ⟨space₂, m₂', e₂, hpublished₂, hshown₂⟩ := exists_init_published h₂ cpu₂ hroot₂ hpopulate₂
    refine ⟨space₂, m₂', e₂, hpublished₂, fun w _ => ?_⟩
    rw [hshown₂, hshown, Arena.view_congr (ht'.arena.lookup format w _ _)]

/-- Without windows the kernel space shows the boot regions and the image. -/
theorem shown_of_init_nil (h : m.Unstarted) (e : init format config cpu map [] m = .ok space m')
    {w : VirtAddr} (hw : format.virtualInRange w = true) :
    m'.shown format space w
      = .ok (startSheet format config map m.descriptor.kernelImage w) := by
  obtain ⟨root, s, published, s', -, -, hbuilt, -, hshown, -⟩ := h.init_built e
  obtain ⟨left, top, hlaid, hview, -⟩ := hbuilt.laid
  cases hlaid
  rw [hshown, hview hw]

/-! ### A window across the start of a large page -/

/-- What the start does to frames and tables. -/
def buildTree (format : Format) (config : Config) (map : BootMap) (image : Option MemoryRegion)
    (windows : List DeviceWindow) : TableSteps (TableId × List DeviceWindow) := do
  let root ← TableStore.addTable format format.topLevel false
  let mapped ← populate format config ⟨root, false⟩ map image windows
  return (root, mapped)

/-- Where the tree comes out somehow, the manager starts and shows it. -/
theorem exists_init_of_buildTree (format : Format) (config : Config) (map : BootMap)
    (windows : List DeviceWindow) (built : TableId → List DeviceWindow → TableStore → Prop)
    (h : m.Unstarted) (cpu : CpuId)
    (hbuilt : Ends (buildTree format config map m.descriptor.kernelImage windows) m.store
      (fun r s => built r.1 r.2 s) (fun _ _ => False)) :
    ∃ space m' root mapped s', init format config cpu map windows m = .ok space m'
      ∧ m'.descriptor.deviceWindows = some mapped ∧ built root mapped s'
      ∧ ∀ w, m'.shown format space w = .ok (s'.arena.view format root w) := by
  obtain ⟨r, s', e, hdone⟩ := exists_of_ends hbuilt
  obtain ⟨root, s, hroot, e⟩ := bind_eq_ok_iff.mp e
  obtain ⟨mapped, s', hpopulate, e⟩ := bind_eq_ok_iff.mp e
  cases e
  obtain ⟨space, m', hinit, hpublished, hshown⟩ := exists_init_published h cpu hroot hpopulate
  exact ⟨space, m', root, mapped, s', hinit, hpublished, hdone, hshown⟩

/-- A kernel image that is one large page, and memory before it. -/
def largeImageMap : BootMap :=
  ⟨[⟨0, .free, ⟨false, true⟩⟩, ⟨0x4000, .reserved, .none⟩, ⟨0x400000, .kernelImage, .none⟩,
    ⟨0x800000, .endMarker, .none⟩], by decide⟩

/-- A machine with the frames of that map. -/
def largeImageMachine : Machine :=
  { Machine.powerOn 0 with
    store := { TableStore.empty with frames := (FrameAllocator.init ⟨0, none⟩ largeImageMap {}).2.1 } }

theorem unstarted_largeImageMachine : largeImageMachine.Unstarted where
  frames := (FrameAllocator.init_wellFormed (FrameAllocator.wellFormed_unstarted 0) (by decide) {}).1
  spaces := rfl
  arena := rfl
  windows := rfl

/-- The page before the image. -/
def pageBefore : DeviceWindow := ⟨0x3ff000, 0x1000, .uncached⟩

/-- The first page of the image, which is cached there. -/
def pageInside : DeviceWindow := ⟨0x400000, 0x1000, .uncached⟩

/-- Both pages as one window. -/
def pagesAcross : DeviceWindow := ⟨0x3ff000, 0x2000, .uncached⟩

theorem viewSheet_pageInside {w p : Nat} {flags : PageFlags}
    (h : pageInside.viewSheet 0x400000 w = some (p, flags)) : 0x400000 ≤ w ∧ w < 0x401000 := by
  have hbounds : pageBounds 0x400000 0x400000 0x1000 = some (0x400000, 0x400000, 0x1000) := by decide
  rw [DeviceWindow.viewSheet, pageInside, rangeSheet, if_neg (by decide), hbounds, Option.bind_some,
    Option.ite_none_right_eq_some] at h
  exact h.1.2

/-- Nothing of one page is left where something is in its way. -/
theorem blank_of_halfway_pageInside {below part : Sheet} (h : Halfway {} pageInside below part) :
    part = .blank := by
  obtain @⟨before, after, virt, front, q, found, views, page, mod, -, -⟩ := h
  obtain ⟨rfl, rfl, -⟩ : before = [] ∧ virt = 0x400000 ∧ after = [] := by
    cases before with
    | nil =>
      cases views
      exact ⟨rfl, rfl, rfl⟩
    | cons first rest =>
      have hlength := congrArg List.length views
      simp [Config.views] at hlength
  obtain ⟨hle, hlt⟩ := viewSheet_pageInside page
  have hfront : front = 0x400000 := by
    simp only [frameSize] at mod
    omega
  funext w
  refine Option.eq_none_iff_forall_ne_some.mpr fun p hp => ?_
  rcases Sheet.onto_eq_some hp with hp | hp
  · obtain ⟨hbefore, hshown⟩ := Sheet.upTo_eq_some.mp hp
    have hfrom := (viewSheet_pageInside hshown).1
    omega
  · cases hp

/-- Of two windows the one is mapped and the other, which is skipped, is not missed. -/
theorem windows_mapped_or_skipped_pages : ∃ m space m' space₂ m₂', m.Unstarted
    ∧ init .narrow {} 0 largeImageMap [pageBefore, pageInside] m = .ok space m'
    ∧ m'.descriptor.deviceWindows = some [pageBefore]
    ∧ m'.translate .narrow space 0x3ff800 = .ok (some 0x3ff800)
    ∧ init .narrow {} 1 largeImageMap [pageBefore] m = .ok space₂ m₂'
    ∧ m₂'.descriptor.deviceWindows = some [pageBefore]
    ∧ ∀ w, Format.narrow.virtualInRange w = true →
      m₂'.shown .narrow space₂ w = m'.shown .narrow space w := by
  have h := unstarted_largeImageMachine
  obtain ⟨space, m', root, mapped, s', e, hmapped, rfl, -⟩ :=
    exists_init_of_buildTree .narrow {} largeImageMap [pageBefore, pageInside]
      (fun _ mapped _ => mapped = [pageBefore]) h 0 (by decide +kernel)
  obtain ⟨published, left, top, hpublished, -, hseen, hlaid, -, -, halone⟩ :=
    windows_mapped_or_skipped h e
  cases hmapped.symm.trans hpublished
  have hleft : left = [] := by
    cases hlaid with
    | mapped within later =>
      cases later with
      | skipped traceless later =>
        cases later
        rfl
      | halfway halted seen later =>
        obtain ⟨w, -, hw⟩ := seen
        rw [blank_of_halfway_pageInside halted] at hw
        exact absurd rfl hw
    | skipped traceless later =>
      cases later with
      | skipped traceless later => cases later
      | halfway halted seen later => cases later
    | halfway halted seen later =>
      cases later with
      | skipped traceless later => cases later
      | halfway halted seen later => cases later
  obtain ⟨space₂, m₂', e₂, hpublished₂, hshown⟩ := halone hleft 1 _ h rfl (Nat.le_refl _)
  refine ⟨_, space, m', space₂, m₂', h, e, hmapped, ?_, e₂, hpublished₂, hshown⟩
  exact (hseen pageBefore List.mem_cons_self 0x3ff800 ⟨by decide, by decide⟩).1 (by decide)

/-- The page before the image is not seen without windows. -/
theorem startSheet_pageBefore {image : Option MemoryRegion} :
    startSheet .narrow {} largeImageMap image 0x3ff000 = none := by
  have hregions : mappedRegions largeImageMap = [⟨⟨0x400000, 0x400000⟩, .kernelImage, .none⟩] := by
    decide
  have himage : imageSheet {} image = .blank := by cases image <;> rfl
  rw [startSheet, Sheet.onto, himage, hregions]
  decide +kernel

/-- An offset that is half a page beyond large pages. -/
def offPage : Config := { directMapOffset := some 0x1000800 }

/-- A page behind the image. -/
def pageBehind : DeviceWindow := ⟨0x801000, 0x1000, .uncached⟩

/-- Two pages as one window are not published, but the one before the image stays mapped; it is not
if no window is given.  And where the offset is not one of pages, what is seen there of a window that
is published is not the same byte of it. -/
theorem skipped_window_left :
    (∃ m space m', m.Unstarted
      ∧ init .narrow {} 0 largeImageMap [pagesAcross] m = .ok space m'
      ∧ m'.descriptor.deviceWindows = some []
      ∧ m'.shown .narrow space 0x3ff000 = .ok (some (0x3ff000, pagesAcross.pageFlags))
      ∧ (∃ space₂ m₂', init .narrow {} 0 largeImageMap [] m = .ok space₂ m₂')
      ∧ ∀ cpu m₂ space₂ m₂', m₂.Unstarted →
        init .narrow {} cpu largeImageMap [] m₂ = .ok space₂ m₂' →
        m₂'.shown .narrow space₂ 0x3ff000 = .ok none)
    ∧ ∃ m space m', m.Unstarted
      ∧ init .narrow offPage 0 largeImageMap [pageBehind] m = .ok space m'
      ∧ m'.descriptor.deviceWindows = some [pageBehind]
      ∧ m'.shown .narrow space (0x1000800 + 0x801000) = .ok (some (0x801800, pageBehind.pageFlags)) := by
  have h := unstarted_largeImageMachine
  constructor
  · obtain ⟨space, m', root, mapped, s', e, hmapped, ⟨rfl, hview⟩, hshown⟩ :=
      exists_init_of_buildTree .narrow {} largeImageMap [pagesAcross]
        (fun root mapped s => mapped = [] ∧ s.arena.view .narrow root 0x3ff000
          = some (0x3ff000, pagesAcross.pageFlags)) h 0 (by decide +kernel)
    obtain ⟨space₂, m₂', _, _, _, e₂, -⟩ := exists_init_of_buildTree .narrow {} largeImageMap []
      (fun _ _ _ => True) h 0 (by decide +kernel)
    exact ⟨_, space, m', h, e, hmapped, by rw [hshown, hview], ⟨space₂, m₂', e₂⟩,
      fun _ _ _ _ h₂ e₂ => by rw [shown_of_init_nil h₂ e₂ (by decide), startSheet_pageBefore]⟩
  · obtain ⟨space, m', root, mapped, s', e, hmapped, ⟨rfl, hview⟩, hshown⟩ :=
      exists_init_of_buildTree .narrow offPage largeImageMap [pageBehind]
        (fun root mapped s => mapped = [pageBehind] ∧ s.arena.view .narrow root (0x1000800 + 0x801000)
          = some (0x801800, pageBehind.pageFlags)) h 0 (by decide +kernel)
    exact ⟨_, space, m', h, e, hmapped, by rw [hshown, hview]⟩

end

end KernelMemory
