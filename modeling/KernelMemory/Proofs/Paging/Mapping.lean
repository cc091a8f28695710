/-
  KernelMemory.Proofs.Paging.Mapping — mapping a range, function by function.

  Going down to a page, writing its entry and going on to the next page change the tables by
  edits alone, and end with a result or a refusal: in tables of the right shape no name is
  stale, no leaf slot holds a table, and no address leaves the word.  A result means that the
  pages lie over what was there, a refusal that something was in the way of one of them.

  Main results:
    * `ends_descend`, `ends_install`, `ends_mapPage` — one page;
    * `ends_mapLeaf`, `ends_mapNext`, `ends_mapPages` — page after page;
    * `ends_mapRange`, `exists_mapRange` — a range.
-/

import KernelMemory.Proofs.Paging.Overlay

namespace KernelMemory

namespace Walk

open Steps TableStore

variable {format : Format} {kernel : TableId} {stock : Stock} {Shares : Nat → Prop} {started : Bool}
  {request : MapRequest} {s : TableStore}

/-! ## One page -/

/-- An address inside a mapped block is a word. -/
theorem block_add_lt (h : s.arena.Regular format Shares) {id i virt level : Nat} {x : Slot}
    {m : Mapping} (hlevel : s.arena.level? id = some level) (hx : s.arena.slot? id i = some x)
    (hm : x.mapping? = some m) : m.frame + virt % format.span level < Word.bound := by
  obtain ⟨l, hl, -, hmod, hlt⟩ := h.mapping hx hm
  cases Arena.level_unique hlevel hl
  obtain ⟨k, hk⟩ := format.span_dvd_bound (h.level_le hlevel)
  obtain ⟨n, hn⟩ := Nat.dvd_of_mod_eq_zero hmod
  have hoffset := Nat.mod_lt virt (format.span_pos level)
  -- the block is one of those that the words are divided into
  rw [hk, hn] at hlt ⊢
  have hblock := Nat.lt_of_mul_lt_mul_left hlt
  calc format.span level * n + virt % format.span level
      < format.span level * n + format.span level := Nat.add_lt_add_left hoffset _
    _ = format.span level * (n + 1) := (Nat.mul_succ _ _).symm
    _ ≤ format.span level * k := Nat.mul_le_mul_left _ hblock

/-- What going down to a level did: tables may have been made, and every address is translated as
before. -/
structure Descended (format : Format) (request : MapRequest) (target virt phys steps : Nat)
    (d : Descent) (s s' : TableStore) : Prop where
  edits : EditsOf format request s s'
  lookup : ∀ w, s'.arena.lookup format w format.levels request.root
    = s.arena.lookup format w format.levels request.root
  spent : s.frames.available .normal ≤ s'.frames.available .normal + steps
  reached : ∀ t, d = .reached t →
    s'.arena.node? format request.root virt (format.topLevel - target) = some t
  covered : d = .covered → ∃ m l,
    s.arena.lookup format virt format.levels request.root = some (m, l)
      ∧ target < l ∧ phys = m.frame + virt % format.span l ∧ m.flags = request.flags

/-- A table was linked into an empty slot on the way down, which it makes one level longer. -/
structure WayMade (format : Format) (request : MapRequest) (virt depth child : Nat)
    (s s' : TableStore) : Prop where
  edit : Edit format request s s'
  node : s'.arena.node? format request.root virt (depth + 1) = some child
  lookup : ∀ w, s'.arena.lookup format w format.levels request.root
    = s.arena.lookup format w format.levels request.root
  spent : s.frames.available .normal = s'.frames.available .normal + 1

/-- Making a table on the way down and going on, or being refused for want of a frame. -/
theorem ends_makeWay {α : Type} {next : TableId → TableSteps α}
    {target virt phys depth level id : Nat} {ok : α → TableStore → Prop}
    {refused : MemoryError → TableStore → Prop} (piece : request.Piece format target virt phys)
    (h : s.Walkable format Shares started) (fitted : request.Fitted format s)
    (hdepth : depth + (level + 1) = format.topLevel)
    (hnode : s.arena.node? format request.root virt depth = some id)
    (hx : s.arena.slot? id (format.index virt (level + 1)) = some .empty)
    (unsealed : ¬ (request.rootSealed = true ∧ depth = 0))
    (hnext : ∀ child s', WayMade format request virt depth child s s' →
      Ends (next child) s' ok (onRefusal refused))
    (hnone : ∀ error s', Edit format request s s' → s'.arena = s.arena →
      s.frames.available .normal = 0 → s'.frames.available .normal = 0 →
      (error = .outOfMemory ∨ started = false) → refused error s') :
    Ends (do
      let child ← addTable format level request.user
      setSlot id (format.index virt (level + 1)) (.table child)
      next child) s ok (onRefusal refused) := by
  have hat : format.topLevel - depth = level + 1 := by omega
  have names := h.names
  rw [ends_bind]
  have hlevel : level < format.levels := by
    have htop := format.topLevel_lt_levels
    omega
  refine ends_addTable hlevel (fun frame s' hframes harena => ?_) fun error s' hframes harena => ?_
  · -- the new table is linked at once
    have hlinked := Arena.linked_add_put format level frame request.user names hx
    obtain ⟨y, hy⟩ : ∃ y, s'.arena.slot? id (format.index virt (level + 1)) = some y := by
      rw [harena, Arena.slot?_add names, if_neg, hx]
      · exact ⟨_, rfl⟩
      · rintro rfl
        have hfresh := Arena.get?_fst_add names (.blank frame level request.user format.entries)
        simp [Arena.slot?, hfresh] at hx
    rw [ends_bind, ends_setSlot hy]
    have hedit : Edit format request s
        { s' with
          arena := s'.arena.put id (format.index virt (level + 1))
            (.table (s.arena.add (.blank frame level request.user format.entries)).1) } :=
      .link piece (by omega) hnode (by rw [hat]; exact hx) unsealed hframes
        (by simp only [hat, harena, Nat.add_sub_cancel])
    refine hnext _ _ ⟨hedit, ?_, fun w => ?_, ?_⟩
    · refine Arena.node?_succ_iff.mpr ⟨id, Arena.node?_grows (hedit.grows names) hnode, ?_⟩
      rw [hat]
      simp only [harena]
      exact (hlinked.slot _ _).trans (if_pos ⟨rfl, rfl⟩)
    · simp only [harena]
      exact hlinked.lookup h.regular hx w fitted.root
    · exact FrameAllocator.available_of_allocatePage h.allocator hframes
  · obtain ⟨hzero, herror⟩ := FrameAllocator.available_of_allocatePage_error h.allocator hframes
    have hedit : Edit format request s s' := .exhausted hframes harena
    refine hnone _ s' hedit harena hzero ?_ ?_
    · obtain ⟨hwf, -, hview, hused⟩ := FrameAllocator.allocatePage_error h.allocator hframes
      exact (FrameAllocator.available_eq_zero_iff hwf).mpr fun f => (hview f).trans (hused f)
    · rcases herror with rfl | hnever
      · exact .inl rfl
      · exact .inr (h.initialized.symm.trans hnever)

/-- Where the way down meets a large page the request ends, at the address that is computed inside
it: that is the frame asked for, or the page is mapped otherwise. -/
theorem ends_meetLarge {target virt phys depth level id : Nat} {existing : Mapping}
    (h : s.Walkable format Shares started) (fitted : request.Fitted format s)
    (hdepth : depth + level = format.topLevel) (hbelow : target < level)
    (hnode : s.arena.node? format request.root virt depth = some id)
    (hx : s.arena.slot? id (format.index virt level) = some (.large existing)) (steps : Nat)
    (text : String) :
    Ends (do
      let expected ← Word.add existing.frame (virt % format.span level)
      if expected = phys ∧ existing.flags = request.flags then
        return .covered
      else
        write .warn text
        Steps.refuse .incompatible) s
      (fun d s' => Descended format request target virt phys steps d s s')
      (onRefusal fun e s' => Overlaid format request (fun _ _ => False) s s'
        ∧ Blocked format started request virt phys steps s s' e) := by
  obtain ⟨-, hlevel⟩ := Arena.node?_level h.regular fitted.root hnode
  rw [show format.topLevel - depth = level by omega] at hlevel
  have hadd : Word.add existing.frame (virt % format.span level)
      = .ok (existing.frame + virt % format.span level) :=
    Word.add_eq_ok_iff.mpr ⟨block_add_lt h.regular hlevel hx rfl, rfl⟩
  have hfound : s.arena.lookup format virt format.levels request.root = some (existing, level) :=
    Arena.lookup_of_mapping (by omega)
      (by rw [show format.topLevel - level = depth by omega]; exact hnode) hx rfl
  rw [ends_bind, ends_lift_ok hadd]
  split
  · rename_i hsame
    exact ⟨.refl s, fun _ => rfl, Nat.le_add_right _ _, fun t ht => (by cases ht),
      fun _ => ⟨existing, level, hfound, hbelow, hsame.1.symm, hsame.2⟩⟩
  · rename_i hdiffers
    rw [ends_bind, ends_write]
    refine ⟨.unseen (.of_same rfl rfl) fun _ => rfl, .conflict hfound ?_ rfl⟩
    rcases not_and_or.mp hdiffers with hframe | hflags
    · exact .inl (Ne.symm hframe)
    · exact .inr ⟨Nat.zero_lt_of_lt hbelow, hflags⟩

theorem ends_descend {target virt phys : Nat} (piece : request.Piece format target virt phys) :
    ∀ {steps depth id : Nat} {s : TableStore}, depth + target + steps = format.topLevel →
      s.Walkable format Shares started → request.Fitted format s →
      s.arena.node? format request.root virt depth = some id →
      Ends (descend format request virt phys target steps id) s
        (fun d s' => Descended format request target virt phys steps d s s')
        (onRefusal fun e s' => Overlaid format request (fun _ _ => False) s s'
          ∧ Blocked format started request virt phys steps s s' e) := by
  -- induction on the levels left; a table that is made on the way keeps the way down so far
  intro steps
  induction steps with
  | zero =>
    intro depth id s hdepth h fitted hnode
    refine ⟨.refl s, fun _ => rfl, Nat.le_refl _, fun t ht => ?_, fun ht => by cases ht⟩
    injection ht with ht
    rw [← ht, ← hnode]
    congr 1
    omega
  | succ steps ih =>
    intro depth id s hdepth h fitted hnode
    obtain ⟨-, hlevel⟩ := Arena.node?_level h.regular fitted.root hnode
    have hat : format.topLevel - depth = target + steps + 1 := by omega
    rw [hat] at hlevel
    obtain ⟨x, hx⟩ := h.regular.exists_slot hlevel (format.index_lt virt (target + steps + 1))
    rw [descend, ends_bind, ends_slot hx]
    cases x with
    | table child =>
      refine (ih (by omega) h fitted
        (Arena.node?_succ_iff.mpr ⟨id, hnode, by rw [hat]; exact hx⟩)).weaken
        (fun d s' hd => ?_) fun e s' he => ?_
      · exact ⟨hd.edits, hd.lookup, Nat.le_succ_of_le hd.spent, hd.reached, hd.covered⟩
      · exact ⟨he.1, he.2.of_later (Nat.le_add_right _ 0) (by omega)⟩
    | empty =>
      simp only
      split
      · rename_i hseal
        simp only [Bool.and_eq_true, beq_iff_eq] at hseal
        obtain rfl : depth = 0 := by omega
        rw [Arena.node?] at hnode
        injection hnode with hnode
        rw [hseal.2, ← hnode] at hx
        exact ⟨.unseen (.refl s) fun _ => rfl, .sealedRoot hseal.1 hx rfl⟩
      · rename_i hseal
        have unsealed : ¬ (request.rootSealed = true ∧ depth = 0) := by
          rintro ⟨hsealed, rfl⟩
          exact hseal (by simp [hsealed]; omega)
        refine ends_makeWay piece h fitted (show depth + (target + steps + 1) = format.topLevel by omega)
          hnode hx unsealed (fun child s' hmade => ?_)
          fun error s' hedit harena hzero hnone herror => ?_
        · have hedits : EditsOf format request s s' := .single rfl hmade.edit
          have hgrows := hmade.edit.grows h.names
          have hspent := hmade.spent
          refine (ih (show depth + 1 + target + steps = format.topLevel by omega)
            (hmade.edit.walkable h fitted) ⟨fitted.within, hgrows.level fitted.root⟩
            hmade.node).weaken
            (fun d s'' hd => ?_) fun e s'' he => ?_
          · have hmore := hd.spent
            refine ⟨hedits.trans hd.edits, fun w => (hd.lookup w).trans (hmade.lookup w), by omega,
              hd.reached, fun ht => ?_⟩
            obtain ⟨m, l, hfound, hrest⟩ := hd.covered ht
            exact ⟨m, l, (hmade.lookup virt).symm.trans hfound, hrest⟩
          · exact ⟨(Overlaid.unseen hedits hmade.lookup).after he.1,
              he.2.of_later (Nat.le_of_eq hspent) (by omega)⟩
        · exact ⟨.unseen (.single rfl hedit) fun w => by rw [harena],
            .exhausted hnone (by omega) herror⟩
    | large existing =>
      exact ends_meetLarge h fitted (show depth + (target + steps + 1) = format.topLevel by omega)
        (by omega) hnode hx _ _
    | leaf mapping =>
      obtain ⟨l, hl, hpage, -⟩ := h.regular.mapping hx rfl
      cases Arena.level_unique hlevel hl
      cases hpage

/-- A page written at the end of its way down. -/
theorem pageMapped_put {target virt phys id : Nat} {old : Slot} {step : MapStep}
    (piece : request.Piece format target virt phys) (h : s.Walkable format Shares started)
    (fitted : request.Fitted format s)
    (hnode : s.arena.node? format request.root virt (format.topLevel - target) = some id)
    (hx : s.arena.slot? id (format.index virt target) = some old)
    (was : (old = .empty ∧ ¬ (request.rootSealed = true ∧ target = format.topLevel))
      ∨ ∃ flags, old = pageSlot target ⟨phys, flags⟩) :
    PageMapped format request target virt phys (some step) s
      { s with
        arena := s.arena.put id (format.index virt target) (pageSlot target ⟨phys, request.flags⟩) } where
  edits := .single rfl (.fill piece hnode hx was rfl rfl)
  leaf := fun _ => by simp
  mapped := fun _ => by
    have hgrows := Arena.grows_put hx (Edit.extends_of_was was)
    have hslot : (s.arena.put id (format.index virt target)
        (pageSlot target ⟨phys, request.flags⟩)).slot? id (format.index virt target)
          = some (pageSlot target ⟨phys, request.flags⟩) := by
      rw [Arena.slot?_put, if_pos ⟨rfl, rfl⟩, hx, Option.map_some]
    refine ⟨⟨phys, request.flags⟩, target, ?_, Nat.le_refl _, ?_, rfl,
      fun hlt => absurd hlt (Nat.lt_irrefl _)⟩
    · exact Arena.lookup_of_mapping piece.target_le (Arena.node?_grows hgrows hnode) hslot
        (mapping?_pageSlot _ _)
    · rw [piece.virt_mod, Nat.add_zero]
  others := fun w => by
    by_cases together : format.Together target virt w
    · exact .inr ⟨by simp, together⟩
    · refine .inl (Arena.lookup_put fun d hd hindex => together ?_)
      exact (Arena.together_of_node? h.regular fitted.root fitted.root piece.target_le hnode hd
        hindex).1

theorem ends_remap (cost : Nat) {target virt phys id : Nat} {existing : Mapping}
    (piece : request.Piece format target virt phys) (h : s.Walkable format Shares started)
    (fitted : request.Fitted format s)
    (hnode : s.arena.node? format request.root virt (format.topLevel - target) = some id)
    (hx : s.arena.slot? id (format.index virt target) = some (pageSlot target existing)) :
    Ends (remap request virt phys target id (format.index virt target) existing) s
      (fun step s' => PageMapped format request target virt phys (some step) s s'
        ∧ s'.frames = s.frames)
      (onRefusal fun e s' => Overlaid format request (fun _ _ => False) s s'
        ∧ Blocked format started request virt phys cost s s' e) := by
  have hfound : s.arena.lookup format virt format.levels request.root = some (existing, target) :=
    Arena.lookup_of_mapping piece.target_le hnode hx (mapping?_pageSlot _ _)
  have haddress : existing.frame + virt % format.span target = existing.frame := by
    rw [piece.virt_mod, Nat.add_zero]
  unfold remap
  split
  · rename_i hframe
    rw [ends_bind, ends_write]
    refine ⟨.unseen (.of_same rfl rfl) fun _ => rfl, .conflict hfound (.inl ?_) rfl⟩
    rw [haddress]
    exact Ne.symm hframe
  · rename_i hframe
    have hframe : phys = existing.frame := (not_not.mp hframe).symm
    split
    · rename_i hflags
      refine ⟨⟨.refl s, fun _ => by simp, fun _ => ?_, fun _ => .inl rfl⟩, rfl⟩
      exact ⟨existing, target, hfound, Nat.le_refl _, hframe.trans haddress.symm, hflags,
        fun _ => hfound⟩
    · rw [ends_bind, ends_setSlot hx]
      refine ⟨pageMapped_put piece h fitted hnode hx (.inr ⟨existing.flags, ?_⟩), rfl⟩
      rw [hframe]

theorem ends_install (cost : Nat) {target virt phys id : Nat}
    (piece : request.Piece format target virt phys) (h : s.Walkable format Shares started)
    (fitted : request.Fitted format s)
    (hnode : s.arena.node? format request.root virt (format.topLevel - target) = some id) :
    Ends (install format request virt phys target id) s
      (fun step s' => PageMapped format request target virt phys step s s' ∧ s'.frames = s.frames)
      (onRefusal fun e s' => Overlaid format request (fun _ _ => False) s s'
        ∧ Blocked format started request virt phys cost s s' e) := by
  obtain ⟨-, hlevel⟩ := Arena.node?_level h.regular fitted.root hnode
  have htarget := piece.target_le
  rw [Nat.sub_sub_self htarget] at hlevel
  obtain ⟨x, hx⟩ := h.regular.exists_slot hlevel (format.index_lt virt target)
  have hremap : ∀ {existing}, x.mapping? = some existing →
      Ends (some <$> remap request virt phys target id (format.index virt target) existing) s
        (fun step s' => PageMapped format request target virt phys step s s'
          ∧ s'.frames = s.frames)
        (onRefusal fun e s' => Overlaid format request (fun _ _ => False) s s'
          ∧ Blocked format started request virt phys cost s s' e) := by
    intro existing hm
    rw [ends_map]
    obtain ⟨l, hl, hpage, -⟩ := h.regular.mapping hx hm
    cases Arena.level_unique hlevel hl
    exact ends_remap cost piece h fitted hnode (hpage ▸ hx)
  unfold install
  rw [ends_bind, ends_slot hx]
  cases x with
  | empty =>
    simp only
    split
    · rename_i hseal
      simp only [Bool.and_eq_true, beq_iff_eq] at hseal
      rw [hseal.2, Nat.sub_self, Arena.node?] at hnode
      injection hnode with hnode
      rw [hseal.2, ← hnode] at hx
      exact ⟨.unseen (.refl s) fun _ => rfl, .sealedRoot hseal.1 hx rfl⟩
    · rename_i hseal
      rw [ends_bind, ends_setSlot hx]
      refine ⟨pageMapped_put piece h fitted hnode hx (.inl ⟨rfl, fun hs => hseal ?_⟩), rfl⟩
      simp [hs.1, hs.2]
  -- a table in the place of a large page sends the request on to smaller ones
  | table child =>
    refine ⟨⟨.refl s, fun hzero => ?_, fun hne => absurd rfl hne, fun _ => .inl rfl⟩, rfl⟩
    subst hzero
    exact absurd hx (h.regular.not_table_at_leaf hlevel)
  | leaf existing => exact hremap rfl
  | large existing => exact hremap rfl

theorem ends_mapPage {target virt phys : Nat} (piece : request.Piece format target virt phys)
    (h : s.Walkable format Shares started) (fitted : request.Fitted format s) :
    Ends (mapPage format request virt phys target) s
      (fun step s' => PageMapped format request target virt phys step s s'
        ∧ s.frames.available .normal ≤ s'.frames.available .normal + format.topLevel)
      (onRefusal fun e s' => Overlaid format request (fun _ _ => False) s s'
        ∧ Blocked format started request virt phys format.topLevel s s' e) := by
  have htarget := piece.target_le
  rw [mapPage, ends_bind]
  refine (ends_descend piece (show 0 + target + (format.topLevel - target) = format.topLevel by omega)
    h fitted rfl).weaken (fun d s' hd => ?_) fun e s' he => ?_
  · have hspent := hd.spent
    cases d with
    | covered =>
      refine ⟨⟨hd.edits, fun _ => by simp, fun _ => ?_, fun w => .inl (hd.lookup w)⟩, by omega⟩
      obtain ⟨m, l, hfound, hlt, hphys, hflags⟩ := hd.covered rfl
      exact ⟨m, l, (hd.lookup virt).trans hfound, Nat.le_of_lt hlt, hphys, hflags, fun _ => hfound⟩
    | reached id =>
      obtain ⟨hwalkable, hgrows⟩ := hd.edits.walkable_grows h (allFitted_of_fitted fitted)
      refine (ends_install 0 piece hwalkable ⟨fitted.within, hgrows.level fitted.root⟩
        (hd.reached id rfl)).weaken
        (fun step s'' hs => ?_) fun e s'' he => ?_
      · obtain ⟨hpage, hframes⟩ := hs
        refine ⟨⟨hd.edits.trans hpage.edits, hpage.leaf, fun hstep => ?_, fun w => ?_⟩, ?_⟩
        · obtain ⟨m, l, hfound, hle, hphys, hflags, hwas⟩ := hpage.mapped hstep
          exact ⟨m, l, hfound, hle, hphys, hflags, fun hlt => (hd.lookup virt).symm.trans (hwas hlt)⟩
        · exact (hpage.others w).imp_left fun heq => heq.trans (hd.lookup w)
        · rw [hframes]
          omega
      · exact ⟨(Overlaid.unseen hd.edits hd.lookup).after he.1,
          he.2.of_later hspent (show format.topLevel - target + 0 ≤ format.topLevel by omega)⟩
  · exact ⟨he.1, he.2.of_later (Nat.le_add_right _ 0) (by omega)⟩

/-! ## A range -/

/-- What remains of the pages of a request. -/
structure Rest (request : MapRequest) (virt phys remaining : Nat) : Prop where
  bounds : ∃ v p length : Nat,
    pageBounds request.virt request.phys request.size = some (v, p, length)
      ∧ v ≤ virt ∧ virt + remaining ≤ v + length ∧ phys + v = p + virt
  not_null : 0 < remaining → frameSize ≤ virt
  virt_mod : virt % frameSize = 0
  phys_mod : phys % frameSize = 0
  remaining_mod : remaining % frameSize = 0

variable {virt phys remaining : Nat}

/-- The pages of a request, where they do not start with page 0. -/
theorem Rest.of_bounds {length : Nat}
    (hb : pageBounds request.virt request.phys request.size = some (virt, phys, length))
    (hnull : virt = 0 → length = 0) : Rest request virt phys length where
  bounds := ⟨virt, phys, length, hb, Nat.le_refl _, Nat.le_refl _, rfl⟩
  not_null := fun hpos => by
    have hmod := (pageBounds_spec hb).1
    simp only [frameSize] at *
    omega
  virt_mod := (pageBounds_spec hb).1
  phys_mod := (pageBounds_spec hb).2.1
  remaining_mod := (pageBounds_spec hb).2.2.1

/-- The pages of a request after page 0. -/
theorem Rest.past_null {length : Nat}
    (hb : pageBounds request.virt request.phys request.size = some (virt, phys, length))
    (hvirt : virt = 0) (hpos : 0 < length) :
    Rest request frameSize (phys + frameSize) (length - frameSize) := by
  obtain ⟨-, hp, hl, -⟩ := pageBounds_spec hb
  refine ⟨⟨virt, phys, length, hb, ?_, ?_, ?_⟩, fun _ => Nat.le_refl _, Nat.mod_self _, ?_, ?_⟩
  all_goals simp only [frameSize] at *; omega

theorem Rest.piece (rest : Rest request virt phys remaining) (hpos : 0 < remaining) :
    request.Piece format 0 virt phys where
  level := .inl rfl
  bounds := by
    obtain ⟨v, p, length, hb, hv, hend, hphys⟩ := rest.bounds
    have hmod := rest.remaining_mod
    rw [Format.span_zero]
    simp only [frameSize] at *
    exact ⟨v, p, length, hb, hv, by omega, hphys⟩
  not_null := rest.not_null hpos
  virt_mod := by rw [Format.span_zero]; exact rest.virt_mod
  phys_mod := by rw [Format.span_zero]; exact rest.phys_mod

/-- Where a large page may be tried, one is a piece of the request. -/
theorem Rest.largePiece (rest : Rest request virt phys remaining)
    (hfits : fitsLarge format request virt phys remaining = true) :
    request.Piece format Format.largeLevel virt phys
      ∧ format.span Format.largeLevel ≤ remaining := by
  simp only [fitsLarge, Bool.and_eq_true, decide_eq_true_eq, beq_iff_eq] at hfits
  obtain ⟨⟨⟨-, hle⟩, hvirt⟩, hphys⟩ := hfits
  have hpos := format.span_pos Format.largeLevel
  obtain ⟨v, p, length, hb, hv, hend, hp⟩ := rest.bounds
  exact ⟨⟨.inr rfl, ⟨v, p, length, hb, hv, by omega, hp⟩, rest.not_null (by omega), hvirt, hphys⟩,
    hle⟩

theorem Rest.next (rest : Rest request virt phys remaining) {advance : Nat}
    (hle : advance ≤ remaining) (hmod : advance % frameSize = 0) :
    Rest request (virt + advance) (phys + advance) (remaining - advance) := by
  obtain ⟨v, p, length, hb, hv, hend, hp⟩ := rest.bounds
  have hv' := rest.virt_mod
  have hp' := rest.phys_mod
  have hr' := rest.remaining_mod
  refine ⟨⟨v, p, length, hb, by omega, by omega, by omega⟩, fun hpos => ?_, ?_, ?_, ?_⟩
  · have := rest.not_null (by omega)
    omega
  all_goals simp only [frameSize] at *; omega

/-- While something remains to be mapped, its addresses are words. -/
theorem Rest.add_lt (rest : Rest request virt phys remaining) (within : request.Within format)
    {advance : Nat} (hlt : advance < remaining) :
    virt + advance < Word.bound ∧ phys + advance < Word.bound := by
  obtain ⟨v, p, length, hb, hv, hend, hp⟩ := rest.bounds
  have hwords := within.words hb
  exact ⟨Format.lt_bound_of_inRange (within.inRange hb (virt + advance) (by omega) (by omega)),
    by omega⟩

/-- The pages that remain are pages of the request. -/
theorem Rest.covers (rest : Rest request virt phys remaining) {w q : Nat}
    (h : Part virt phys remaining w q) : request.Covers w q := by
  obtain ⟨v, p, length, hb, hv, hend, hp⟩ := rest.bounds
  obtain ⟨hle, hlt, hq⟩ := h
  have hnull := rest.not_null (by omega)
  exact ⟨by omega, v, p, length, hb, by omega, by omega, by omega⟩

/-- The first bytes of what remains were mapped. -/
structure Advanced (format : Format) (request : MapRequest) (virt phys remaining advance : Nat)
    (s s' : TableStore) : Prop where
  pos : 0 < advance
  le : advance ≤ remaining
  mod : advance % frameSize = 0
  overlaid : Overlaid format request (Part virt phys advance) s s'
  spent : s.frames.available .normal ≤ s'.frames.available .normal + request.tablesPerPage format

/-- Something was in the way after the first `front` bytes of what remains, which were mapped. -/
structure Halted (format : Format) (started : Bool) (request : MapRequest)
    (virt phys remaining front cost : Nat) (s s' : TableStore) (error : MemoryError) : Prop where
  lt : front < remaining
  mod : front % frameSize = 0
  overlaid : Overlaid format request (Part virt phys front) s s'
  blocked : Blocked format started request (virt + front) (phys + front) cost s s' error

/-- The first bytes of what remains, and those that follow. -/
theorem part_append {w q : Nat} (front back : Nat) : Part virt phys (front + back) w q
    ↔ Part virt phys front w q ∨ Part (virt + front) (phys + front) back w q := by
  unfold Part
  omega

/-- One part of what remains and then another were mapped. -/
theorem overlaid_append {s' s'' : TableStore} {front back : Nat}
    (hfront : Overlaid format request (Part virt phys front) s s')
    (hrange : ∀ {w q}, Part virt phys front w q → format.virtualInRange w = true)
    (hback : Overlaid format request (Part (virt + front) (phys + front) back) s' s'') :
    Overlaid format request (Part virt phys (front + back)) s s'' :=
  hfront.trans hback hrange
    (fun hpart _ hpart' => Nat.not_le.mpr hpart.2.1 hpart'.1) fun _ _ => part_append front back

/-- Mapping the first page at the leaf level, perhaps after a large one was not to be had, which
changed no translation. -/
theorem ends_mapLeaf (rest : Rest request virt phys remaining) (hpos : 0 < remaining)
    (h : s.Walkable format Shares started) (fitted : request.Fitted format s) {s' : TableStore}
    {spent : Nat} (hbefore : Overlaid format request (fun _ _ => False) s s')
    (hspent : s.frames.available .normal ≤ s'.frames.available .normal + spent)
    (hcost : spent + format.topLevel ≤ request.tablesPerPage format) :
    Ends (mapPage format request virt phys 0) s'
      (fun step s'' => step ≠ none ∧ Advanced format request virt phys remaining frameSize s s'')
      (onRefusal fun e s'' => Overlaid format request (fun _ _ => False) s s''
        ∧ Blocked format started request virt phys (request.tablesPerPage format) s s'' e) := by
  have piece : request.Piece format 0 virt phys := rest.piece hpos
  obtain ⟨hwalkable, hgrows⟩ := hbefore.edits.walkable_grows h (allFitted_of_fitted fitted)
  refine (ends_mapPage piece hwalkable ⟨fitted.within, hgrows.level fitted.root⟩).weaken
    (fun step s'' hstep => ?_) fun e s'' he => ?_
  · obtain ⟨hpage, hmore⟩ := hstep
    have hdone : step ≠ none := hpage.leaf rfl
    have hmod := rest.remaining_mod
    have hle : frameSize ≤ remaining := by
      simp only [frameSize] at *
      omega
    have hoverlaid := hpage.overlaid hdone piece fitted.within fun _ => rfl
    rw [Format.span_zero] at hoverlaid
    exact ⟨hdone, Nat.two_pow_pos 12, hle, Nat.mod_self _, hbefore.after hoverlaid, by omega⟩
  · exact ⟨hbefore.after he.1, he.2.of_later hspent hcost⟩

theorem ends_mapNext (rest : Rest request virt phys remaining) (hpos : 0 < remaining)
    (h : s.Walkable format Shares started) (fitted : request.Fitted format s) :
    Ends (mapNext format request virt phys remaining) s
      (fun done s' => Advanced format request virt phys remaining done.2 s s')
      (onRefusal fun e s' => Overlaid format request (fun _ _ => False) s s'
        ∧ Blocked format started request virt phys (request.tablesPerPage format) s s' e) := by
  unfold mapNext
  split
  · rename_i hfits
    obtain ⟨piece, hle⟩ := rest.largePiece hfits
    have hlarge : request.largePages = true := by
      simp only [fitsLarge, Bool.and_eq_true] at hfits
      exact hfits.1.1.1
    have hcost : request.tablesPerPage format = format.topLevel + format.topLevel := by
      rw [MapRequest.tablesPerPage, if_pos hlarge, Nat.two_mul]
    rw [ends_bind]
    refine (ends_mapPage piece h fitted).weaken (fun promoted s' hs => ?_) fun e s' he => ?_
    · obtain ⟨hpage, hspent⟩ := hs
      cases promoted with
      | some step =>
        have hmod := Nat.mod_eq_zero_of_dvd (format.frameSize_dvd_span Format.largeLevel)
        refine ⟨format.span_pos _, hle, hmod, ?_, by omega⟩
        exact hpage.overlaid (by simp) piece fitted.within fun hsmall =>
          absurd (hlarge.symm.trans hsmall) (by simp)
      | none =>
        have hbefore : Overlaid format request (fun _ _ => False) s s' :=
          .unseen hpage.edits fun w => (hpage.others w).resolve_right fun hstep => hstep.1 rfl
        simp only
        rw [ends_bind]
        refine (ends_mapLeaf rest hpos h fitted hbefore hspent (by omega)).weaken
          (fun step s'' hs'' => ?_) fun _ _ he => he
        cases step with
        | none => exact absurd rfl hs''.1
        | some step => exact hs''.2
    · exact ⟨he.1, he.2.of_later (Nat.le_add_right _ 0) (by omega)⟩
  · have hcost : 0 + format.topLevel ≤ request.tablesPerPage format := by
      unfold MapRequest.tablesPerPage
      split <;> omega
    rw [ends_bind, ends_pure]
    simp only
    rw [ends_bind]
    refine (ends_mapLeaf rest hpos h fitted (.refl (fun _ _ => id) s) (Nat.le_add_right _ 0)
      hcost).weaken (fun step s' hs' => ?_) fun _ _ he => he
    cases step with
    | none => exact absurd rfl hs'.1
    | some step => exact hs'.2

theorem ends_mapPages : ∀ {rounds virt phys remaining : Nat} {summary : MapSummary}
    {s : TableStore}, Rest request virt phys remaining → remaining ≤ rounds * frameSize →
      s.Walkable format Shares started → request.Fitted format s →
      Ends (mapPages format request rounds virt phys remaining summary) s
        (fun _ s' => Overlaid format request (Part virt phys remaining) s s'
          ∧ s.frames.available .normal
            ≤ s'.frames.available .normal + request.tablesPerPage format * rounds)
        (onRefusal fun e s' => ∃ front, Halted format started request virt phys remaining front
          (request.tablesPerPage format * rounds) s s' e) := by
  -- induction on the rounds; the part mapped so far grows at its end
  intro rounds
  induction rounds with
  | zero =>
    intro virt phys remaining summary s _ hrounds _ _
    refine ⟨.refl (fun w q hpart => ?_) s, Nat.le_add_right _ _⟩
    obtain ⟨hle, hlt, -⟩ := hpart
    omega
  | succ rounds ih =>
    intro virt phys remaining summary s rest hrounds h fitted
    rw [mapPages]
    split
    · rename_i hzero
      refine ⟨.refl (fun w q hpart => ?_) s, Nat.le_add_right _ _⟩
      obtain ⟨hle, hlt, -⟩ := hpart
      omega
    · rename_i hne
      have hcost : request.tablesPerPage format + request.tablesPerPage format * rounds
          = request.tablesPerPage format * (rounds + 1) := by
        rw [Nat.mul_succ, Nat.add_comm]
      rw [ends_bind]
      refine (ends_mapNext rest (Nat.pos_of_ne_zero hne) h fitted).weaken
        (fun done s' hs => ?_) fun e s' he => ?_
      · obtain ⟨step, advance⟩ := done
        obtain ⟨hadvance, hle, hmod, hfirst, hspent⟩ := hs
        simp only at hadvance hle hmod hfirst ⊢
        split
        · rename_i hlast
          obtain rfl : advance = remaining := by omega
          exact ⟨hfirst, by omega⟩
        · rename_i hmore
          have hnext := rest.next hle hmod
          obtain ⟨hwalkable, hgrows⟩ := hfirst.edits.walkable_grows h (allFitted_of_fitted fitted)
          have hrange : ∀ {w q}, Part virt phys advance w q → format.virtualInRange w = true :=
            fun ⟨hlow, hhigh, hq⟩ =>
              (rest.covers ⟨hlow, by omega, hq⟩).inRange fitted.within
          obtain ⟨hvirt, hphys⟩ := rest.add_lt fitted.within (show advance < remaining by omega)
          rw [ends_bind, ends_lift_ok (Word.add_eq_ok_iff.mpr ⟨hvirt, rfl⟩), ends_bind,
            ends_lift_ok (Word.add_eq_ok_iff.mpr ⟨hphys, rfl⟩)]
          have hless : remaining - advance ≤ rounds * frameSize := by
            have hmod' := rest.remaining_mod
            simp only [frameSize] at *
            omega
          refine (ih hnext hless hwalkable ⟨fitted.within, hgrows.level fitted.root⟩).weaken
            (fun _ s'' hs' => ?_) fun e s'' he => ?_
          · have hboth := overlaid_append hfirst hrange hs'.1
            rw [Nat.add_sub_cancel' hle] at hboth
            exact ⟨hboth, by omega⟩
          · obtain ⟨front, hlt, hfront, hoverlaid, hblocked⟩ := he
            rw [Nat.add_assoc, Nat.add_assoc] at hblocked
            exact ⟨advance + front, by omega, by rw [Nat.add_mod, hmod, hfront]; rfl,
              overlaid_append hfirst hrange hoverlaid,
              hblocked.of_later hspent (Nat.le_of_eq hcost)⟩
      · exact ⟨0, Nat.pos_of_ne_zero hne, Nat.zero_mod _,
          he.1.congr fun w q => ⟨fun ⟨hle, hlt, _⟩ => Nat.not_lt.mpr hle hlt, False.elim⟩,
          he.2.of_later (Nat.le_add_right _ 0) (by omega)⟩

/-- Mapping a range lays its pages over what was there, or as many of them as come before one that
something is in the way of. -/
theorem ends_mapRange_upTo (h : s.Walkable format Shares started)
    (fitted : request.Fitted format s) :
    Ends (mapRange format request) s (fun _ s' => RangeMapped format request s s')
      (onRefusal fun e s' => RangeStopped format started request s s' e) := by
  unfold mapRange
  cases hb : pageBounds request.virt request.phys request.size with
  | none => exact .unbounded hb rfl rfl
  | some bounds =>
    obtain ⟨virt, phys, length⟩ := bounds
    -- what remains after `skipped` bytes, page 0 or none, is all that the request covers
    have hpages : ∀ (skipped : Nat) {summary : MapSummary},
        Rest request (virt + skipped) (phys + skipped) (length - skipped) →
        skipped ≤ length → skipped % frameSize = 0 →
        (∀ w q, request.Covers w q
          ↔ Part (virt + skipped) (phys + skipped) (length - skipped) w q) →
        Ends (mapPages format request ((length - skipped) / frameSize) (virt + skipped)
            (phys + skipped) (length - skipped) summary) s
          (fun _ s' => RangeMapped format request s s')
          (onRefusal fun e s' => RangeStopped format started request s s' e) := by
      intro skipped summary rest hle hskipped hcovers
      have hrounds : length - skipped ≤ (length - skipped) / frameSize * frameSize :=
        Nat.le_of_eq (Nat.div_mul_cancel (Nat.dvd_of_mod_eq_zero rest.remaining_mod)).symm
      have htables : request.tablesPerPage format * ((length - skipped) / frameSize)
          ≤ request.tables format := by
        rw [MapRequest.tables, MapRequest.pageCount_eq hb]
        exact Nat.mul_le_mul_left _ (Nat.div_le_div_right (Nat.sub_le _ _))
      refine (ends_mapPages rest hrounds h fitted).weaken (fun _ s' hs => ?_) fun e s' he => ?_
      · exact ⟨by simp [hb], hs.1.congr hcovers, by omega⟩
      · obtain ⟨front, hlt, hmod, hoverlaid, hblocked⟩ := he
        rw [Nat.add_assoc, Nat.add_assoc] at hblocked
        refine .stopped hb (show skipped + front < length by omega)
          (by rw [Nat.add_mod, hskipped, hmod]; rfl) ((hcovers _ _).mpr ?_)
          (hoverlaid.congr fun w q => ?_)
          (hblocked.of_later (Nat.le_add_right _ 0) (by omega))
        · unfold Part
          omega
        · rw [hcovers]
          unfold Part
          omega
    simp only
    split
    · rename_i hnull
      have hvirt := hnull.1
      have hpos := hnull.2
      have hrest := Rest.past_null hb hvirt hpos
      have hlong : frameSize ≤ length :=
        Nat.le_of_dvd hpos (Nat.dvd_of_mod_eq_zero (pageBounds_spec hb).2.2.1)
      have hlt : phys + frameSize < Word.bound :=
        Nat.lt_of_le_of_lt (Nat.add_le_add_left hlong _) (fitted.within.words hb)
      rw [ends_bind, ends_lift_ok (Word.add_eq_ok_iff.mpr ⟨hlt, rfl⟩)]
      -- page 0 is passed over
      have hskip := @hpages frameSize
      rw [hvirt, Nat.zero_add] at hskip
      refine hskip hrest hlong (Nat.mod_self _) fun w q => ?_
      rw [MapRequest.covers_iff hb, hvirt]
      unfold Part
      omega
    · rename_i hnull
      have hrest := Rest.of_bounds hb fun hvirt => by
        by_contra hne
        exact hnull ⟨hvirt, Nat.pos_of_ne_zero hne⟩
      refine hpages 0 hrest (Nat.zero_le _) (Nat.zero_mod _) fun w q => ?_
      have hstart := hrest.not_null
      rw [MapRequest.covers_iff hb]
      unfold Part
      omega

/-- Mapping a range lays its pages over what was there, or something is in the way. -/
theorem ends_mapRange (h : s.Orderly format kernel stock) (ready : request.Ready format kernel s) :
    Ends (mapRange format request) s (fun _ s' => RangeMapped format request s s')
      (onRefusal fun e s' => EditsOf format request s s'
        ∧ RangeRefused format stock request s e) :=
  (ends_mapRange_upTo h.walkable ready.fitted).weaken (fun _ _ hs => hs)
    fun _ _ he => ⟨he.edits, he.refused h ready⟩

/-- A range that needs no slot it may not make, and agrees with what is mapped already, is mapped
if there are frames for its tables. -/
theorem exists_mapRange (h : s.Orderly format kernel stock) (ready : request.Ready format kernel s)
    (bounded : pageBounds request.virt request.phys request.size ≠ none)
    (unsealed : request.rootSealed = true → ∀ w q, request.Covers w q →
      s.arena.slot? request.root (format.index w format.topLevel) ≠ some .empty)
    (agrees : ∀ w q, request.Covers w q → ∀ m l,
      s.arena.lookup format w format.levels request.root = some (m, l) →
        q = m.frame + w % format.span l ∧ (0 < l → m.flags = request.flags))
    (enough : request.tables format ≤ s.frames.available .normal) :
    ∃ summary s', mapRange format request s = .ok summary s'
      ∧ RangeMapped format request s s' := by
  refine exists_of_ends ((ends_mapRange h ready).mono (fun _ _ hm => hm) fun f s' hf => ?_)
  cases f with
  | fault fault => exact hf
  | refused error =>
    have hshort := (hf.2.exhausted bounded unsealed agrees).1
    exact absurd enough (Nat.not_le.mpr hshort)

end Walk

end KernelMemory
