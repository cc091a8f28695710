/-
  KernelMemory.Proofs.Paging.Notice — what mapping a range changes can be seen.

  Where an address is mapped, the way down to it is made already, and a page that is mapped as asked
  for is left alone.  So tables change only with what is seen through them, also where the range is
  refused at some page: then either an address of the range shows what it did not show before, or
  the tables and frames are what they were.  Want of frames is the exception, as it may come after
  tables were made that show nothing yet.

  Main results:
    * `same_mapPage`, `same_mapNext` — a page of which the first address is mapped;
    * `ends_mapPages_noticed`, `ends_mapRange_noticed` — page after page, and a range.
-/

import KernelMemory.Proofs.Paging.Mapping

namespace KernelMemory

open Steps TableStore

/-! ## Addresses that are mapped -/

namespace Walk

variable {format : Format} {request : MapRequest} {s : TableStore} {virt phys target l : Nat}
  {m : Mapping}

/-- The way down to an address that is mapped is not changed. -/
theorem same_descend : ∀ {steps id : Nat},
    s.arena.lookup format virt (target + steps + 1) id = some (m, l) →
      Ends (descend format request virt phys target steps id) s
        (fun d s' => s' = s ∧ ∀ t, d = .reached t →
          s.arena.lookup format virt (target + 1) t = some (m, l))
        (fun _ s' => s.Same s') := by
  intro steps
  induction steps with
  | zero =>
    intro id hfound
    refine ⟨rfl, fun t ht => ?_⟩
    cases ht
    exact hfound
  | succ steps ih =>
    intro id hfound
    rw [← Nat.add_assoc target steps 1, Arena.lookup] at hfound
    cases hx : s.arena.slot? id (format.index virt (target + steps + 1)) with
    | none =>
      rw [hx] at hfound
      cases hfound
    | some x =>
      rw [hx] at hfound
      rw [descend, ends_bind, ends_slot hx]
      cases x with
      | table child => exact ih hfound
      | empty => cases hfound
      | leaf mapping => exact ⟨rfl, rfl⟩
      | large existing =>
        rw [ends_bind]
        cases Word.add existing.frame (virt % format.span (target + steps + 1)) with
        | error fault => exact ⟨rfl, rfl⟩
        | ok expected =>
          rw [ends_lift_ok rfl]
          split
          · exact ⟨rfl, fun _ h => by cases h⟩
          · exact ⟨rfl, rfl⟩

/-- A page that is mapped is not changed but for its attributes. -/
theorem same_remap {id index : Nat} {existing : Mapping} :
    Ends (remap request virt phys target id index existing) s
      (fun _ s' => existing.flags = request.flags → s' = s) (fun _ s' => s.Same s') := by
  unfold remap
  split
  · exact ⟨rfl, rfl⟩
  · split
    · exact fun _ => rfl
    · rename_i hflags
      rw [ends_bind]
      refine (ends_self _ s).mono (fun _ s' _ => fun hsame => absurd hsame hflags) fun f s' he => ?_
      unfold setSlot at he
      split at he
      · cases he
        exact ⟨rfl, rfl⟩
      · cases he

theorem same_install {id : Nat} (hfound : s.arena.lookup format virt (target + 1) id = some (m, l)) :
    Ends (install format request virt phys target id) s
      (fun step s' => step = none ∨ m.flags = request.flags → s' = s) (fun _ s' => s.Same s') := by
  rw [Arena.lookup] at hfound
  cases hx : s.arena.slot? id (format.index virt target) with
  | none =>
    rw [hx] at hfound
    cases hfound
  | some x =>
    have hremap : ∀ {existing}, existing = m →
        Ends (some <$> remap request virt phys target id (format.index virt target) existing) s
          (fun step s' => step = none ∨ m.flags = request.flags → s' = s) (fun _ s' => s.Same s') := by
      rintro existing rfl
      rw [ends_map]
      exact same_remap.mono (fun _ s' h => fun hor => h (hor.resolve_left (by simp))) fun _ _ h => h
    rw [hx] at hfound
    rw [install, ends_bind, ends_slot hx]
    cases x with
    | empty => cases hfound
    | table child => exact fun _ => rfl
    | leaf existing => exact hremap (by cases hfound; rfl)
    | large existing => exact hremap (by cases hfound; rfl)

/-- Where a page is mapped already, with the attributes that are asked for, or where a table is in
its place, nothing is changed; nor where it is refused. -/
theorem same_mapPage (htarget : target ≤ format.topLevel)
    (hfound : s.arena.lookup format virt format.levels request.root = some (m, l)) :
    Ends (mapPage format request virt phys target) s
      (fun step s' => step = none ∨ m.flags = request.flags → s' = s) (fun _ s' => s.Same s') := by
  have hlevels : target + (format.topLevel - target) + 1 = format.levels := by
    have htop := format.topLevel_add_one
    omega
  rw [← hlevels] at hfound
  rw [mapPage, ends_bind]
  refine (same_descend hfound).mono (fun d s' hd => ?_) fun _ _ h => h
  obtain ⟨rfl, hreached⟩ := hd
  cases d with
  | covered => exact fun _ => rfl
  | reached t => exact same_install (hreached t rfl)

/-- The same with what comes next, if after a page nothing is done, and after none what is done keeps
to it too. -/
theorem same_mapPage_bind {α : Type} {next : Option MapStep → TableSteps α}
    (htarget : target ≤ format.topLevel)
    (hfound : s.arena.lookup format virt format.levels request.root = some (m, l))
    (hsome : ∀ step s', Ends (next (some step)) s' (fun _ t => t = s') (fun _ _ => False))
    (hnone : Ends (next none) s (fun _ s' => m.flags = request.flags → s' = s)
      (fun _ s' => s.Same s')) :
    Ends (mapPage format request virt phys target >>= next) s
      (fun _ s' => m.flags = request.flags → s' = s) (fun _ s' => s.Same s') := by
  rw [ends_bind]
  refine (same_mapPage htarget hfound).mono (fun step s' h => ?_) fun _ _ h => h
  cases step with
  | none =>
    obtain rfl := h (.inl rfl)
    exact hnone
  | some step =>
    exact (hsome step s').mono (fun _ t ht hflags => ht.trans (h (.inr hflags))) fun _ _ hf => hf.elim

/-- The same at the start of what remains of a range. -/
theorem same_mapNext {remaining : Nat}
    (hfound : s.arena.lookup format virt format.levels request.root = some (m, l)) :
    Ends (mapNext format request virt phys remaining) s
      (fun _ s' => m.flags = request.flags → s' = s) (fun _ s' => s.Same s') := by
  unfold mapNext
  split
  · exact same_mapPage_bind format.largeLevel_le_topLevel hfound (fun _ _ => rfl)
      (same_mapPage_bind (Nat.zero_le _) hfound (fun _ _ => rfl) ⟨rfl, rfl⟩)
  · exact same_mapPage_bind (Nat.zero_le _) hfound (fun _ _ => rfl) ⟨rfl, rfl⟩

end Walk

/-! ## What is noticed -/

/-- An address shows a frame with these attributes, which it did not before. -/
def Noticed (format : Format) (root : TableId) (flags : PageFlags) (s s' : TableStore) : Prop :=
  ∃ w q, format.virtualInRange w = true ∧ s'.arena.view format root w = some (q, flags)
    ∧ s.arena.view format root w ≠ some (q, flags)

/-- Nothing was changed, or something that can be seen. -/
def SameOrNoticed (format : Format) (root : TableId) (flags : PageFlags) (s s' : TableStore) : Prop :=
  s.Same s' ∨ Noticed format root flags s s'

namespace Walk

variable {format : Format} {Shares : Nat → Prop} {request : MapRequest} {s : TableStore}
  {virt phys remaining : Nat}

theorem ends_mapNext_noticed (rest : Rest request virt phys remaining) (hpos : 0 < remaining)
    (h : s.Walkable format Shares true) (fitted : request.Fitted format s) :
    Ends (mapNext format request virt phys remaining) s
      (fun _ s' => s' = s ∨ s'.arena.view format request.root virt = some (phys, request.flags)
        ∧ s.arena.view format request.root virt ≠ some (phys, request.flags))
      (onRefusal fun e s' => e = .incompatible → s.Same s') := by
  have hends := ends_mapNext rest hpos h fitted
  have hfirst : ∀ {advance}, 0 < advance → Part virt phys advance virt phys :=
    fun hadvance => ⟨Nat.le_refl _, Nat.lt_add_of_pos_right hadvance, rfl⟩
  cases hfound : s.arena.lookup format virt format.levels request.root with
  | none =>
    refine hends.weaken (fun done s' hdone => .inr ⟨hdone.overlaid.inside (hfirst hdone.pos), ?_⟩)
      fun e s' he hincompatible => ?_
    · rw [Arena.view, hfound]
      exact (Option.some_ne_none _).symm
    · -- only a mapping is incompatible, and there is none
      obtain ⟨hoverlaid, hblocked⟩ := he
      have hrange := (rest.covers (hfirst hpos)).inRange fitted.within
      subst hincompatible
      cases hblocked with
      | sealedRoot _ _ refused => cases refused
      | conflict found _ _ =>
        rw [hoverlaid.outside hrange fun _ => id, hfound] at found
        cases found
      | exhausted _ _ refused =>
        rcases refused with hmemory | hnever
        · cases hmemory
        · cases hnever
  | some found =>
    obtain ⟨m, l⟩ := found
    refine (hends.and (same_mapNext hfound)).mono (fun done s' hdone => ?_) fun f s' hf => ?_
    · by_cases hflags : m.flags = request.flags
      · exact .inl (hdone.2 hflags)
      · refine .inr ⟨hdone.1.overlaid.inside (hfirst hdone.1.pos), fun hview => hflags ?_⟩
        rw [Arena.view_of_lookup hfound] at hview
        exact (Prod.mk.injEq .. ▸ Option.some.inj hview).2
    · cases f with
      | refused error => exact fun _ => hf.2
      | fault fault => exact hf.1

/-- What the first page of a range shows, it shows after the rest of the range too. -/
theorem noticed_of_first {s₁ s' : TableStore} {advance length : Nat}
    (hrange : format.virtualInRange virt = true) (hadvance : 0 < advance)
    (hshown : s₁.arena.view format request.root virt = some (phys, request.flags))
    (hnew : s.arena.view format request.root virt ≠ some (phys, request.flags))
    (hoverlaid : Overlaid format request (Part (virt + advance) (phys + advance) length) s₁ s') :
    SameOrNoticed format request.root request.flags s s' := by
  refine .inr ⟨virt, phys, hrange, ?_, hnew⟩
  rw [Arena.view_congr (hoverlaid.outside hrange fun q hpart => ?_), hshown]
  have hle := hpart.1
  omega

theorem ends_mapPages_noticed : ∀ {rounds virt phys remaining : Nat} {summary : MapSummary}
    {s : TableStore}, Rest request virt phys remaining → remaining ≤ rounds * frameSize →
      s.Walkable format Shares true → request.Fitted format s →
      Ends (mapPages format request rounds virt phys remaining summary) s
        (fun _ s' => SameOrNoticed format request.root request.flags s s')
        (onRefusal fun e s' => e = .incompatible →
          SameOrNoticed format request.root request.flags s s') := by
  -- induction on the rounds: a first page that is noticed stays so, and one that is not leaves the
  -- rest of the range as it was
  intro rounds
  induction rounds with
  | zero =>
    intro virt phys remaining summary s _ _ _ _
    exact .inl ⟨rfl, rfl⟩
  | succ rounds ih =>
    intro virt phys remaining summary s rest hrounds h fitted
    rw [mapPages]
    split
    · exact .inl ⟨rfl, rfl⟩
    · rename_i hne
      have hpos : 0 < remaining := Nat.pos_of_ne_zero hne
      have hrange : format.virtualInRange virt = true :=
        (rest.covers ⟨Nat.le_refl _, Nat.lt_add_of_pos_right hpos, rfl⟩).inRange fitted.within
      rw [ends_bind]
      refine ((ends_mapNext rest hpos h fitted).and
        (ends_mapNext_noticed rest hpos h fitted)).mono (fun done s₁ hdone => ?_) fun f s₁ hf => ?_
      · obtain ⟨step, advance⟩ := done
        obtain ⟨⟨hadvance, hle, hmod, hfirst, -⟩, hnoticed⟩ := hdone
        simp only at hadvance hle hmod hfirst ⊢
        split
        · rcases hnoticed with rfl | ⟨hshown, hnew⟩
          · exact .inl ⟨rfl, rfl⟩
          · exact .inr ⟨virt, phys, hrange, hshown, hnew⟩
        · rename_i hmore
          have hnext := rest.next hle hmod
          obtain ⟨hwalkable, hgrows⟩ := hfirst.edits.walkable_grows h (allFitted_of_fitted fitted)
          obtain ⟨hvirt, hphys⟩ := rest.add_lt fitted.within (show advance < remaining by omega)
          have hless : remaining - advance ≤ rounds * frameSize := by
            have hmod' := rest.remaining_mod
            simp only [frameSize] at *
            omega
          have hfitted : request.Fitted format s₁ := ⟨fitted.within, hgrows.level fitted.root⟩
          rw [ends_bind, ends_lift_ok (Word.add_eq_ok_iff.mpr ⟨hvirt, rfl⟩), ends_bind,
            ends_lift_ok (Word.add_eq_ok_iff.mpr ⟨hphys, rfl⟩)]
          rcases hnoticed with rfl | ⟨hshown, hnew⟩
          · exact ih hnext hless hwalkable hfitted
          · refine (ends_mapPages hnext hless hwalkable hfitted).weaken (fun _ s' hs => ?_)
              fun e s' he _ => ?_
            · exact noticed_of_first hrange hadvance hshown hnew hs.1
            · obtain ⟨front, hhalted⟩ := he
              exact noticed_of_first hrange hadvance hshown hnew hhalted.overlaid
      · cases f with
        | refused error => exact fun hincompatible => .inl (hf.2 hincompatible)
        | fault fault => exact hf.1

/-- A range that is mapped, or refused for something in its way, changes something that can be seen
or nothing. -/
theorem ends_mapRange_noticed (h : s.Walkable format Shares true) (fitted : request.Fitted format s) :
    Ends (mapRange format request) s
      (fun _ s' => SameOrNoticed format request.root request.flags s s')
      (onRefusal fun e s' => e = .incompatible →
        SameOrNoticed format request.root request.flags s s') := by
  have hrounds : ∀ {virt phys length : Nat}, Rest request virt phys length →
      length ≤ length / frameSize * frameSize := fun rest =>
    Nat.le_of_eq (Nat.div_mul_cancel (Nat.dvd_of_mod_eq_zero rest.remaining_mod)).symm
  unfold mapRange
  cases hb : pageBounds request.virt request.phys request.size with
  | none => exact fun hincompatible => by cases hincompatible
  | some bounds =>
    obtain ⟨virt, phys, length⟩ := bounds
    simp only
    split
    · rename_i hnull
      have hrest := Rest.past_null hb hnull.1 hnull.2
      have hlong : frameSize ≤ length :=
        Nat.le_of_dvd hnull.2 (Nat.dvd_of_mod_eq_zero (pageBounds_spec hb).2.2.1)
      have hlt : phys + frameSize < Word.bound :=
        Nat.lt_of_le_of_lt (Nat.add_le_add_left hlong _) (fitted.within.words hb)
      rw [ends_bind, ends_lift_ok (Word.add_eq_ok_iff.mpr ⟨hlt, rfl⟩)]
      exact ends_mapPages_noticed hrest (hrounds hrest) h fitted
    · rename_i hnull
      have hrest := Rest.of_bounds hb fun hvirt => by
        by_contra hne
        exact hnull ⟨hvirt, Nat.pos_of_ne_zero hne⟩
      exact ends_mapPages_noticed hrest (hrounds hrest) h fitted

end Walk

end KernelMemory
