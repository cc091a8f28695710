/-
  KernelMemory.Proofs.Paging.Repeating — mapping the same range a second time.

  A slot that holds a table, or a page with the attributes of the request, stays as it is while
  the request is carried out: such slots are fixed.  Every step that the first pass makes leaves
  a fixed slot where it has been, so the second pass meets one at each slot that it reads, finds
  nothing to do there, and takes steps of the same sizes.  Nothing is assumed of the tables but
  that new ones get names that are not in use.

  Main results:
    * `Repeats.bind`, `Repeats.slot_bind` — how a second pass follows the first, step by step;
    * `repeats_descend`, `repeats_install`, `repeats_mapPages` — the walk;
    * `mapRange_again` — the second pass ends where it started.
-/

import KernelMemory.Paging.Walk
import KernelMemory.Proofs.Endings
import KernelMemory.Proofs.Paging.Commit

namespace KernelMemory

open Steps

/-! ## Slots that stay -/

/-- A request with these attributes leaves the slot as it is. -/
def Slot.Fixed (flags : PageFlags) : Slot → Prop
  | .empty => False
  | .table _ => True
  | .leaf mapping => mapping.flags = flags
  | .large mapping => mapping.flags = flags

/-- The slot maps a page, small or large. -/
def Slot.Maps (mapping : Mapping) (x : Slot) : Prop := x = .leaf mapping ∨ x = .large mapping

theorem Slot.Maps.fixed_iff {flags : PageFlags} {mapping : Mapping} {x : Slot} (h : x.Maps mapping) :
    x.Fixed flags ↔ mapping.flags = flags := by
  rcases h with rfl | rfl
  · exact Iff.rfl
  · exact Iff.rfl

theorem Walk.maps_pageSlot (target : Nat) (mapping : Mapping) :
    (pageSlot target mapping).Maps mapping := by
  unfold pageSlot
  split
  · exact .inl rfl
  · exact .inr rfl

namespace Arena

variable {flags : PageFlags} {a b c : Arena}

/-- The fixed slots are as they were. -/
def Retains (flags : PageFlags) (a b : Arena) : Prop :=
  ∀ (id index : Nat) (x : Slot), a.slot? id index = some x → x.Fixed flags →
    b.slot? id index = some x

theorem Retains.refl (flags : PageFlags) (a : Arena) : Retains flags a a :=
  fun _ _ _ hx _ => hx

theorem Retains.trans (h : Retains flags a b) (h' : Retains flags b c) : Retains flags a c :=
  fun id index x hx hfixed => h' id index x (h id index x hx hfixed) hfixed

theorem Alike.retains (h : Alike a b) : Retains flags a b := fun id index x hx _ => by
  rw [h.slot]
  exact hx

/-- Overwriting another slot. -/
theorem retains_put {id index : Nat} {old : Slot} (hold : a.slot? id index = some old)
    (hloose : ¬ old.Fixed flags) (new : Slot) : Retains flags a (a.put id index new) := by
  intro other place x hx hfixed
  rw [slot?_put]
  split
  · rename_i hsame
    rw [hsame.1, hsame.2, hold] at hx
    injection hx with hx
    rw [hx] at hloose
    exact absurd hfixed hloose
  · exact hx

/-- A new table takes over no slot. -/
theorem slot?_add_of_some (names : a.Names) (t : Table) {id index : Nat} {x : Slot}
    (hx : a.slot? id index = some x) : (a.add t).2.slot? id index = some x := by
  rw [slot?_add names, if_neg, hx]
  rintro rfl
  rw [slot?, get?_fst_add names] at hx
  cases hx

end Arena

/-! ## A second pass -/

namespace TableStore

variable {α β γ δ : Type} {flags : PageFlags} {s s' : TableStore}

/-- Steps led from `s` to `s'`, where others come to an end at once, now and as long as the fixed
slots stay. -/
structure Repeated (flags : PageFlags) (s s' : TableStore) (again : TableSteps β)
    (ok : β → Prop) : Prop where
  names : s'.arena.Names
  retains : s.arena.Retains flags s'.arena
  again : ∀ {t : TableStore}, s'.arena.Retains flags t.arena → ∃ b, again t = .ok b t ∧ ok b

/-- After the first steps, the second find nothing to do; `R` relates their results. -/
def Repeats (flags : PageFlags) (first : TableSteps α) (again : TableSteps β)
    (R : α → β → Prop) : Prop :=
  ∀ (s s' : TableStore) (a : α), s.arena.Names → first s = .ok a s' →
    Repeated flags s s' again (R a)

theorem repeats_pure {R : α → β → Prop} {a : α} {b : β} (h : R a b) :
    Repeats flags (pure a : TableSteps α) (pure b : TableSteps β) R := by
  intro s s' a' names e
  cases e
  exact ⟨names, .refl _ _, fun _ => ⟨b, rfl, h⟩⟩

theorem repeats_lift (result : Except Fault α) :
    Repeats flags (liftM result : TableSteps α) (liftM result : TableSteps α) Eq := by
  cases result with
  | ok a => exact repeats_pure rfl
  | error fault => exact fun _ _ _ _ e => nomatch e

theorem repeats_ofResult (result : Except MemoryError α) :
    Repeats flags (ofResult result : TableSteps α) (ofResult result : TableSteps α) Eq := by
  cases result with
  | ok a => exact repeats_pure rfl
  | error error => exact fun _ _ _ _ e => nomatch e

theorem Repeats.mono {first : TableSteps α} {again : TableSteps β} {R S : α → β → Prop}
    (h : Repeats flags first again R) (hle : ∀ {a b}, R a b → S a b) :
    Repeats flags first again S := by
  intro s s' a names e
  obtain ⟨names', retains, again⟩ := h s s' a names e
  exact ⟨names', retains, fun ht => (again ht).imp fun _ hb => ⟨hb.1, hle hb.2⟩⟩

theorem Repeats.bind {first : TableSteps α} {again : TableSteps β} {R : α → β → Prop}
    {next : α → TableSteps γ} {next' : β → TableSteps δ} {S : γ → δ → Prop}
    (h : Repeats flags first again R)
    (hnext : ∀ {a b}, R a b → Repeats flags (next a) (next' b) S) :
    Repeats flags (first >>= next) (again >>= next') S := by
  intro s s'' c names e
  obtain ⟨a, s', hfirst, hrest⟩ := bind_eq_ok_iff.mp e
  have h₁ := h _ _ _ names hfirst
  -- what the second steps come to is the same wherever the fixed slots are
  obtain ⟨b, -, hab⟩ := h₁.again (.refl _ s'.arena)
  have h₂ := hnext hab _ _ _ h₁.names hrest
  refine ⟨h₂.names, h₁.retains.trans h₂.retains, fun {t} ht => ?_⟩
  obtain ⟨b', hagain, hab'⟩ := h₁.again (h₂.retains.trans ht)
  obtain ⟨d, hlast, hcd⟩ := (hnext hab' _ _ _ h₁.names hrest).again ht
  exact ⟨d, (bind_of_ok hagain).trans hlast, hcd⟩

/-! ## Reading and writing -/

theorem slot_eq_ok_iff {id index : Nat} {x : Slot} :
    slot id index s = .ok x s' ↔ s' = s ∧ s.arena.slot? id index = some x := by
  unfold slot
  cases h : s.arena.slot id index with
  | error fault =>
    constructor
    · rintro ⟨⟩
    · rintro ⟨-, hx⟩
      rw [Arena.slot_eq_ok hx] at h
      cases h
  | ok y =>
    obtain ⟨t, ht, hy⟩ := Arena.slot_eq_ok_iff.mp h
    have hslot : s.arena.slot? id index = some y := by
      rw [Arena.slot?, ht]
      exact hy
    constructor
    · rintro ⟨⟩
      exact ⟨rfl, hslot⟩
    · rintro ⟨rfl, hx⟩
      rw [hslot] at hx
      cases hx
      rfl

/-- A slot that was not fixed is overwritten. -/
theorem setSlot_of_ok {id index : Nat} {old new : Slot} (names : s.arena.Names)
    (hold : s.arena.slot? id index = some old) (hloose : ¬ old.Fixed flags)
    (e : setSlot id index new s = .ok () s') :
    s'.arena.Names ∧ s.arena.Retains flags s'.arena ∧ s'.arena.slot? id index = some new := by
  unfold setSlot at e
  split at e
  · cases e
  · cases e
    refine ⟨names.put _ _ _, Arena.retains_put hold hloose new, ?_⟩
    rw [Arena.slot?_put, if_pos ⟨rfl, rfl⟩, hold]
    rfl

/-- A table is made beside those there are. -/
theorem addTable_of_ok {format : Format} {level : Nat} {user : Bool} {child : TableId}
    (names : s.arena.Names) (e : addTable format level user s = .ok child s') :
    s'.arena.Names ∧ ∀ id index x, s.arena.slot? id index = some x →
      s'.arena.slot? id index = some x := by
  have hlevel : level < format.levels := by
    refine Decidable.byContradiction fun hnot => ?_
    rw [addTable, if_neg hnot] at e
    cases e
  have hends : Ends (addTable format level user) s
      (fun _ s' => s'.arena.Names ∧ ∀ id index x, s.arena.slot? id index = some x →
        s'.arena.slot? id index = some x) (onRefusal fun _ _ => True) :=
    ends_addTable hlevel (fun frame s' _ harena => by
      rw [harena]
      exact ⟨names.add _, fun id index x hx => Arena.slot?_add_of_some names _ hx⟩)
      fun _ _ _ _ => trivial
  exact hends.of_ok e

/-- A fixed slot that is read is read again. -/
theorem Repeated.of_slot {id index : Nat} {x : Slot} {next : Slot → TableSteps β} {ok : β → Prop}
    (hx : s'.arena.slot? id index = some x) (hfixed : x.Fixed flags)
    (h : Repeated flags s s' (next x) ok) : Repeated flags s s' (slot id index >>= next) ok where
  names := h.names
  retains := h.retains
  again := fun {t} ht => by
    rw [bind_of_ok (slot_eq_ok_iff.mpr ⟨rfl, ht _ _ _ hx hfixed⟩)]
    exact h.again ht

/-- After a slot was read, the second steps need be looked at where it is fixed, and where it is
made so. -/
theorem Repeats.slot_bind {id index : Nat} {next : Slot → TableSteps α} {next' : Slot → TableSteps β}
    {R : α → β → Prop} (fixed : ∀ {x}, x.Fixed flags → Repeats flags (next x) (next' x) R)
    (loose : ∀ {x s s' a}, ¬ x.Fixed flags → s.arena.Names → s.arena.slot? id index = some x →
      next x s = .ok a s' → Repeated flags s s' (slot id index >>= next') (R a)) :
    Repeats flags (slot id index >>= next) (slot id index >>= next') R := by
  intro s s' a names e
  obtain ⟨x, t, hslot, hrest⟩ := bind_eq_ok_iff.mp e
  obtain ⟨rfl, hx⟩ := slot_eq_ok_iff.mp hslot
  by_cases hfixed : x.Fixed flags
  · have hdone := fixed hfixed _ _ _ names hrest
    exact .of_slot (hdone.retains _ _ _ hx hfixed) hfixed hdone
  · exact loose hfixed names hx hrest

end TableStore

/-! ## Steps that were made -/

/-- How many pages were met, whatever was done. -/
def MapSummary.steps (summary : MapSummary) : Nat :=
  summary.installed + summary.updated + summary.unchanged

namespace MapSummary

theorem steps_record (summary : MapSummary) (step : MapStep) :
    (summary.record step).steps = summary.steps + 1 := by
  cases step <;> simp only [record, steps] <;> omega

/-- Compared to where they started, the second pass met as many pages as the first, and changed
none. -/
def Repeats (start start' total total' : MapSummary) : Prop :=
  ∃ count, total.steps = start.steps + count
    ∧ total' = { start' with unchanged := start'.unchanged + count }

theorem repeats_refl (start start' : MapSummary) : Repeats start start' start start' :=
  ⟨0, rfl, rfl⟩

/-- One more page is met first. -/
theorem Repeats.record {start start' total total' : MapSummary} {step : MapStep}
    (h : Repeats (start.record step) (start'.record .unchanged) total total') :
    Repeats start start' total total' := by
  obtain ⟨count, hsteps, rfl⟩ := h
  rw [steps_record] at hsteps
  refine ⟨count + 1, by omega, ?_⟩
  simp only [MapSummary.record, MapSummary.mk.injEq, true_and]
  omega

end MapSummary

/-! ## The walk -/

namespace Walk

open TableStore

variable {format : Format} {request : MapRequest}

/-- A page that was met is unchanged when it is met again. -/
abbrev Settles (step again : Option MapStep) : Prop := again = step.map fun _ => .unchanged

theorem repeats_descend {virt phys target : Nat} : ∀ {steps id : Nat},
    Repeats request.flags (descend format request virt phys target steps id)
      (descend format request virt phys target steps id) Eq := by
  intro steps
  induction steps with
  | zero => intro id; exact repeats_pure rfl
  | succ steps ih =>
    intro id
    rw [descend]
    apply Repeats.slot_bind
    · intro x hfixed
      cases x with
      | table child => exact ih
      | empty => exact hfixed.elim
      | leaf mapping => exact fun _ _ _ _ e => nomatch e
      | large existing =>
        apply (repeats_lift _).bind
        rintro expected _ rfl
        split
        · exact repeats_pure rfl
        · exact fun _ _ _ _ e => nomatch e
    · intro x s s' a hloose names hx e
      cases x with
      | table child => exact absurd trivial hloose
      | leaf mapping => cases e
      | large existing =>
        -- a large page with other attributes is in the way
        obtain ⟨expected, t, -, e⟩ := bind_eq_ok_iff.mp e
        rw [if_neg fun hsame => hloose hsame.2] at e
        cases e
      | empty =>
        simp only at e
        split at e
        · cases e
        · -- the second pass goes down to the table that the first one makes
          obtain ⟨child, s₁, hadd, e⟩ := bind_eq_ok_iff.mp e
          obtain ⟨_, s₂, hset, e⟩ := bind_eq_ok_iff.mp e
          obtain ⟨names₁, hkeep⟩ := addTable_of_ok names hadd
          obtain ⟨names₂, hretains, hchild⟩ := setSlot_of_ok names₁ (hkeep _ _ _ hx) hloose hset
          have hdone := ih _ _ _ names₂ e
          refine .of_slot (hdone.retains _ _ _ hchild trivial) trivial
            ⟨hdone.names, .trans (fun id index x hx _ => hkeep id index x hx)
              (hretains.trans hdone.retains), hdone.again⟩

/-- A page that is mapped as asked for is left as it is. -/
theorem install_of_page {virt phys target id : Nat} {mapping : Mapping} {x : Slot} {t : TableStore}
    (hx : t.arena.slot? id (format.index virt target) = some x) (hpage : x.Maps mapping)
    (hframe : mapping.frame = phys) (hflags : mapping.flags = request.flags) :
    install format request virt phys target id t = .ok (some .unchanged) t := by
  have hremap : remap request virt phys target id (format.index virt target) mapping t
      = .ok .unchanged t := by
    rw [remap, if_neg (not_not.mpr hframe), if_pos hflags]
    rfl
  rw [install, bind_of_ok (slot_eq_ok_iff.mpr ⟨rfl, hx⟩)]
  rcases hpage with rfl | rfl
  · exact bind_of_ok hremap
  · exact bind_of_ok hremap

/-- A page that was written is found there by the second pass. -/
theorem repeated_written {virt phys target id : Nat} {old : Slot} {s s' : TableStore}
    (names : s.arena.Names) (hold : s.arena.slot? id (format.index virt target) = some old)
    (hloose : ¬ old.Fixed request.flags)
    (e : setSlot id (format.index virt target) (pageSlot target ⟨phys, request.flags⟩) s
      = .ok () s') :
    Repeated request.flags s s' (install format request virt phys target id)
      (· = some .unchanged) := by
  obtain ⟨names', hretains, hx⟩ := setSlot_of_ok names hold hloose e
  have hpage := maps_pageSlot target ⟨phys, request.flags⟩
  exact ⟨names', hretains, fun ht =>
    ⟨_, install_of_page (ht _ _ _ hx (hpage.fixed_iff.mpr rfl)) hpage rfl rfl, rfl⟩⟩

/-- So is one that was in the slot before, with the attributes of the request by now. -/
theorem repeated_remap {virt phys target id : Nat} {mapping : Mapping} {x : Slot}
    {s s' : TableStore} {step : MapStep} (names : s.arena.Names)
    (hx : s.arena.slot? id (format.index virt target) = some x) (hpage : x.Maps mapping)
    (e : remap request virt phys target id (format.index virt target) mapping s = .ok step s') :
    Repeated request.flags s s' (install format request virt phys target id)
      (· = some .unchanged) := by
  unfold remap at e
  split at e
  · cases e
  · rename_i hframe
    split at e
    · rename_i hflags
      cases e
      exact ⟨names, .refl _ _, fun ht => ⟨_, install_of_page
        (ht _ _ _ hx (hpage.fixed_iff.mpr hflags)) hpage (not_not.mp hframe) hflags, rfl⟩⟩
    · rename_i hflags
      obtain ⟨_, s₁, hset, e⟩ := bind_eq_ok_iff.mp e
      cases e
      exact repeated_written names hx (fun h => hflags (hpage.fixed_iff.mp h)) hset

theorem repeats_install {virt phys target id : Nat} :
    Repeats request.flags (install format request virt phys target id)
      (install format request virt phys target id) Settles := by
  intro s s' step names e
  rw [install] at e
  obtain ⟨x, t, hslot, e⟩ := bind_eq_ok_iff.mp e
  obtain ⟨rfl, hx⟩ := slot_eq_ok_iff.mp hslot
  cases x with
  | empty =>
    simp only at e
    split at e
    · cases e
    · obtain ⟨_, s₁, hset, e⟩ := bind_eq_ok_iff.mp e
      cases e
      exact repeated_written names hx (fun h => h) hset
  | table child =>
    cases e
    exact .of_slot hx trivial ⟨names, .refl _ _, fun _ => ⟨none, rfl, rfl⟩⟩
  | leaf mapping =>
    obtain ⟨done, s₁, hremap, e⟩ := bind_eq_ok_iff.mp e
    cases e
    exact repeated_remap names hx (.inl rfl) hremap
  | large mapping =>
    obtain ⟨done, s₁, hremap, e⟩ := bind_eq_ok_iff.mp e
    cases e
    exact repeated_remap names hx (.inr rfl) hremap

theorem repeats_mapPage {virt phys target : Nat} :
    Repeats request.flags (mapPage format request virt phys target)
      (mapPage format request virt phys target) Settles := by
  unfold mapPage
  apply repeats_descend.bind
  rintro descent _ rfl
  cases descent with
  | covered => exact repeats_pure rfl
  | reached id => exact repeats_install

/-- Where the first pass goes on without a page, so does the second. -/
theorem Repeats.bind_option {α β : Type} {flags : PageFlags}
    {first again : TableSteps (Option MapStep)} {next : Option MapStep → TableSteps α}
    {next' : Option MapStep → TableSteps β} {R : α → β → Prop} (h : Repeats flags first again Settles)
    (hsome : ∀ step, Repeats flags (next (some step)) (next' (some .unchanged)) R)
    (hnone : Repeats flags (next none) (next' none) R) :
    Repeats flags (first >>= next) (again >>= next') R := by
  apply h.bind
  rintro step _ rfl
  cases step with
  | none => exact hnone
  | some step => exact hsome step

theorem repeats_mapNext {virt phys remaining : Nat} :
    Repeats request.flags (mapNext format request virt phys remaining)
      (mapNext format request virt phys remaining) fun met again => again = (.unchanged, met.2) := by
  -- where no large page is mapped, a small one is, both times
  unfold mapNext
  split
  · refine Repeats.bind_option repeats_mapPage (fun _ => repeats_pure rfl) ?_
    exact Repeats.bind_option repeats_mapPage (fun _ => repeats_pure rfl) fun _ _ _ _ e => nomatch e
  · refine Repeats.bind_option (repeats_pure rfl) (fun _ => repeats_pure rfl) ?_
    exact Repeats.bind_option repeats_mapPage (fun _ => repeats_pure rfl) fun _ _ _ _ e => nomatch e

theorem repeats_mapPages : ∀ {rounds virt phys remaining : Nat} {start start' : MapSummary},
    Repeats request.flags (mapPages format request rounds virt phys remaining start)
      (mapPages format request rounds virt phys remaining start') (start.Repeats start') := by
  intro rounds
  induction rounds with
  | zero => intro virt phys remaining start start'; exact repeats_pure (MapSummary.repeats_refl _ _)
  | succ rounds ih =>
    intro virt phys remaining start start'
    rw [mapPages, mapPages]
    split
    · exact repeats_pure (MapSummary.repeats_refl _ _)
    · apply repeats_mapNext.bind
      rintro ⟨step, advance⟩ _ rfl
      simp only
      split
      · exact repeats_pure (MapSummary.repeats_refl _ _).record
      · apply (repeats_lift _).bind
        rintro virt' _ rfl
        apply (repeats_lift _).bind
        rintro phys' _ rfl
        exact ih.mono fun h => h.record

theorem repeats_mapRange (format : Format) (request : MapRequest) :
    Repeats request.flags (mapRange format request) (mapRange format request)
      fun total again => again = { unchanged := total.steps } := by
  have hpages : ∀ {rounds virt phys remaining : Nat},
      Repeats request.flags (mapPages format request rounds virt phys remaining {})
        (mapPages format request rounds virt phys remaining {})
        fun total again => again = { unchanged := total.steps } :=
    repeats_mapPages.mono fun ⟨count, hsteps, hagain⟩ => by
      rw [hagain, hsteps]
      rfl
  unfold mapRange
  split
  · exact fun _ _ _ _ e => nomatch e
  · rename_i virt phys length _
    split
    · apply (repeats_lift _).bind
      rintro next _ rfl
      exact hpages
    · exact hpages

/-- A range that was mapped is found mapped: nothing at all is changed by mapping it again. -/
theorem mapRange_again {s s' : TableStore} {summary : MapSummary} (names : s.arena.Names)
    (e : mapRange format request s = .ok summary s') :
    mapRange format request s' = .ok { unchanged := summary.steps } s' := by
  obtain ⟨again, hagain, rfl⟩ := (repeats_mapRange format request _ _ _ names e).again (.refl _ _)
  exact hagain

end Walk

end KernelMemory
