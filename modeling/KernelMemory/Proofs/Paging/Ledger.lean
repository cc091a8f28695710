/-
  KernelMemory.Proofs.Paging.Ledger — which frames the tables are in.

  Every table is in a frame of its own, which is neither free nor held by a client, and every
  frame is free, held or a table's; the index by frame finds exactly the tables in use; every
  table that waits to be written is queued.  The small operations on tables keep this, whatever
  the shape of the trees.

  Main results:
    * `Ledger.add`, `Ledger.put`, `Ledger.remove` — the operations keep the ledger;
    * `ends_addTable`, `ends_removeTable` — what the steps on the store end with;
    * `ends_removeAll` — what each removal keeps is kept when all tables are removed.
-/

import Mathlib.Data.Set.Basic
import KernelMemory.Proofs.Endings
import KernelMemory.Proofs.Frames.Allocator
import KernelMemory.Proofs.Paging.Views
import KernelMemory.Paging.Store

namespace KernelMemory

namespace Arena

/-- The frames that hold tables. -/
def tableFrames (a : Arena) : Set Nat := {f | ∃ id, a.frame? id = some (f * frameSize)}

/-- The frame of a table that starts on a frame boundary holds a table. -/
theorem mem_tableFrames {a : Arena} {id frame : Nat} (hf : a.frame? id = some frame)
    (hmod : frame % frameSize = 0) : frame / frameSize ∈ a.tableFrames :=
  ⟨id, by rw [hf, Nat.div_mul_cancel (Nat.dvd_of_mod_eq_zero hmod)]⟩

theorem tableFrames_congr {a b : Arena} (h : ∀ id, b.frame? id = a.frame? id) :
    b.tableFrames = a.tableFrames := by
  unfold tableFrames
  simp only [h]

theorem tableFrames_add {a : Arena} (h : a.Names) {f level : Nat} {user : Bool} {entries : Nat} :
    (a.add (.blank (f * frameSize) level user entries)).2.tableFrames = insert f a.tableFrames := by
  have hfresh := get?_fst_add h (.blank (f * frameSize) level user entries)
  ext g
  constructor
  · intro hg
    obtain ⟨id, hid⟩ := hg
    rw [frame?_add h] at hid
    split at hid
    · injection hid with hid
      exact .inl (Nat.eq_of_mul_eq_mul_right (show 0 < frameSize by decide) hid.symm)
    · exact .inr ⟨id, hid⟩
  · intro hg
    by_cases heq : g = f
    · subst heq
      exact ⟨_, by rw [frame?_add h, if_pos rfl]; rfl⟩
    · obtain ⟨id, hid⟩ := hg.resolve_left heq
      refine ⟨id, ?_⟩
      rw [frame?_add h, if_neg, hid]
      intro hname
      rw [hname, frame?, hfresh] at hid
      cases hid

theorem frame?_remove (a : Arena) (id other : TableId) :
    (a.remove id).2.frame? other = if other = id then none else a.frame? other := by
  simp only [frame?, get?_remove]
  split <;> rfl

/-- The indexes kept beside the tables agree with them. -/
structure Books (a : Arena) : Prop where
  names : a.Names
  find : ∀ {frame id : Nat}, a.find? frame = some id ↔ a.frame? id = some frame
  queued : ∀ {id : Nat}, a.dirty? id = some true → id ∈ a.pending

/-- No two tables are in one frame. -/
theorem Books.frame_inj {a : Arena} (h : a.Books) {x y frame : Nat}
    (hx : a.frame? x = some frame) (hy : a.frame? y = some frame) : x = y := by
  have hx := h.find.mpr hx
  rw [h.find.mpr hy] at hx
  exact (Option.some.inj hx).symm

/-- As many tables are counted as there are frames that hold one. -/
theorem Books.size_eq {a : Arena} (h : a.Books)
    (aligned : ∀ {id frame : Nat}, a.frame? id = some frame → frame % frameSize = 0) :
    a.size = a.tableFrames.ncard := by
  -- the index has one key for each table, the address of its frame
  have hmem : ∀ frame : Nat, frame ∈ a.byFrame.keys ↔ ∃ id, a.frame? id = some frame := by
    intro frame
    rw [Std.TreeMap.mem_keys, Std.TreeMap.mem_iff_isSome_getElem?, Option.isSome_iff_exists]
    exact exists_congr fun id => h.find
  have himage : (fun f : Nat => f * frameSize) '' a.tableFrames = {frame | frame ∈ a.byFrame.keys} := by
    ext frame
    rw [Set.mem_image, Set.mem_ofPred_eq, hmem]
    constructor
    · rintro ⟨f, ⟨id, hid⟩, rfl⟩
      exact ⟨id, hid⟩
    · rintro ⟨id, hid⟩
      have hmod := aligned hid
      refine ⟨frame / frameSize, mem_tableFrames hid hmod, ?_⟩
      exact Nat.div_mul_cancel (Nat.dvd_of_mod_eq_zero hmod)
  have hinj : Function.Injective fun f : Nat => f * frameSize :=
    fun f g heq => Nat.eq_of_mul_eq_mul_right (show 0 < frameSize by decide) heq
  have hkeys : {frame | frame ∈ a.byFrame.keys} = (a.byFrame.keys.toFinset : Set Nat) := by
    ext frame
    simp
  rw [← Set.ncard_image_of_injective a.tableFrames hinj, himage, hkeys, Set.ncard_coe_finset,
    List.toFinset_card_of_nodup Std.TreeMap.nodup_keys, Std.TreeMap.length_keys]
  rfl

theorem books_empty : Books empty where
  names := names_empty
  find := by simp [find?, frame?, empty, get?]
  queued := by simp [dirty?]

theorem Books.put {a : Arena} (h : a.Books) (id index : Nat) (s : Slot) :
    (a.put id index s).Books where
  names := h.names.put id index s
  find := by simp only [find?_put, frame?_put]; exact h.find
  queued := fun {other} hd => by
    have hkept : other ∈ a.pending → other ∈ (a.put id index s).pending := fun hin => by
      rw [pending_put]
      split
      · exact Array.mem_push_of_mem _ hin
      · exact hin
    rw [dirty?_put] at hd
    split at hd
    · rename_i heq
      subst heq
      cases hold : a.dirty? other with
      | none => rw [hold] at hd; cases hd
      | some dirty =>
        cases dirty with
        | true => exact hkept (h.queued hold)
        | false => rw [pending_put, if_pos hold]; exact Array.mem_push_self
    · exact hkept (h.queued hd)

theorem Books.add {a : Arena} (h : a.Books) {t : Table} (ht : t.dirty = false)
    (fresh : ∀ id, a.frame? id ≠ some t.frame) : (a.add t).2.Books where
  names := h.names.add t
  find := fun {frame id} => by
    have hnone : a.frame? (a.add t).1 = none := by simp [frame?, get?_fst_add h.names t]
    rw [find?_add, frame?_add h.names]
    -- asked for the frame of the new table, or for another; the answer is the new table, or not
    by_cases hframe : frame = t.frame
    · subst hframe
      by_cases hid : id = (a.add t).1
      · simp [hid]
      · simp only [if_true, if_neg hid, Option.some.injEq]
        exact ⟨fun heq => absurd heq.symm hid, fun heq => absurd heq (fresh id)⟩
    · rw [if_neg hframe, h.find]
      by_cases hid : id = (a.add t).1
      · subst hid
        rw [if_pos rfl, hnone]
        simp only [Option.some.injEq]
        exact ⟨(fun heq => by cases heq), fun heq => absurd heq.symm hframe⟩
      · rw [if_neg hid]
  queued := fun {id} hd => by
    rw [dirty?_add h.names] at hd
    split at hd
    · rename_i heq
      rw [pending_add h.names ht, heq]
      exact Array.mem_push_self
    · rw [pending_add h.names ht]
      exact Array.mem_push_of_mem _ (h.queued hd)

theorem Books.remove {a : Arena} (h : a.Books) (id : TableId) : (a.remove id).2.Books := by
  cases hframe : a.frame? id with
  | none =>
    have hnone : a.get? id = none := Option.map_eq_none_iff.mp hframe
    rw [remove_eq_self hnone]; exact h
  | some frame =>
    refine ⟨h.names.remove id, fun {other x} => ?_, fun {x} hd => ?_⟩
    · rw [find?_remove hframe, Arena.frame?, get?_remove]
      by_cases hx : x = id
      · subst hx
        simp only [if_true, Option.map_none]
        by_cases hother : other = frame
        · simp [hother]
        · rw [if_neg hother, h.find, hframe]
          simp only [Option.some.injEq]
          exact ⟨fun heq => absurd heq.symm hother, (fun heq => by cases heq)⟩
      · rw [if_neg hx]
        by_cases hother : other = frame
        · subst hother
          simp only [if_true]
          refine ⟨(fun heq => by cases heq), fun heq => absurd (h.frame_inj heq hframe) hx⟩
        · rw [if_neg hother]; exact h.find
    · rw [pending_remove]
      rw [dirty?, get?_remove] at hd
      split at hd
      · cases hd
      · exact h.queued hd

end Arena

/-! ## The ledger of frames -/

/-- What the tables do not tell of frames: which are held by clients, and how many there are. -/
structure Stock where
  held : Set Nat
  total : Nat

/-- All frames that are not free are held. -/
def FrameAllocator.inUse (frames : FrameAllocator) : Stock :=
  ⟨{f | f < frames.totalPages ∧ frames.isFree f = false}, frames.totalPages⟩

/-- Tables, free frames and frames held by clients do not overlap, and there are no others. -/
structure Ledger (stock : Stock) (frames : FrameAllocator) (a : Arena) : Prop where
  books : a.Books
  allocator : frames.WellFormed
  total : frames.totalPages = stock.total
  table : ∀ {id frame : Nat}, a.frame? id = some frame →
    frame % frameSize = 0 ∧ 0 < frame ∧ frame / frameSize < frames.totalPages
      ∧ frames.isFree (frame / frameSize) = false ∧ frame / frameSize ∉ stock.held
  client : ∀ {f : Nat}, f ∈ stock.held → f < frames.totalPages ∧ frames.isFree f = false
  covered : ∀ {f : Nat}, f < frames.totalPages → frames.isFree f = false →
    f ∈ stock.held ∨ f ∈ a.tableFrames

namespace Ledger

variable {stock : Stock} {frames frames' : FrameAllocator} {a : Arena}

/-- Without tables, the frames in use are held. -/
theorem bare (hwf : frames.WellFormed) : Ledger frames.inUse frames Arena.empty where
  books := Arena.books_empty
  allocator := hwf
  total := rfl
  table := fun hf => by simp [Arena.frame?] at hf
  client := id
  covered := fun hlt hused => .inl ⟨hlt, hused⟩

theorem put (h : Ledger stock frames a) (id index : Nat) (s : Slot) :
    Ledger stock frames (a.put id index s) where
  books := h.books.put id index s
  allocator := h.allocator
  total := h.total
  table := fun {other frame} hf => by rw [Arena.frame?_put] at hf; exact h.table hf
  client := h.client
  covered := by
    rw [Arena.tableFrames_congr fun other => Arena.frame?_put a id index s other]
    exact h.covered

/-- No table is in a frame that is free. -/
theorem not_free (h : Ledger stock frames a) {id frame f : Nat} (hf : a.frame? id = some frame)
    (hfree : frames.isFree f = true) : frame ≠ f * frameSize := by
  rintro rfl
  obtain ⟨-, -, -, hused, -⟩ := h.table hf
  rw [Nat.mul_div_cancel _ (by decide), hfree] at hused
  cases hused

/-- A frame that holds a table is not free, and no client holds it. -/
theorem tableFrame (h : Ledger stock frames a) {f : Nat} (hf : f ∈ a.tableFrames) :
    f < frames.totalPages ∧ frames.isFree f = false ∧ f ∉ stock.held := by
  obtain ⟨id, hid⟩ := hf
  have hfields := h.table hid
  rw [Nat.mul_div_cancel _ (by decide)] at hfields
  exact hfields.2.2

/-- Where there is a table, there are frames. -/
theorem total_ne_zero (h : Ledger stock frames a) {id frame : Nat} (hf : a.frame? id = some frame) :
    stock.total ≠ 0 := by
  have hlt := (h.table hf).2.2.1
  rw [h.total] at hlt
  exact Nat.ne_of_gt (Nat.zero_lt_of_lt hlt)

/-- An allocator that covers frames was started. -/
theorem initialized (h : Ledger stock frames a) (htotal : stock.total ≠ 0) :
    frames.isInitialized = true := by
  by_contra hnot
  exact htotal (h.total.symm.trans
    (FrameAllocator.totalPages_of_not_initialized (Bool.not_eq_true _ ▸ hnot)))

theorem mem_freeSet_iff (h : Ledger stock frames a) {f : Nat} :
    f ∈ frames.freeSet ↔ f < stock.total ∧ f ∉ stock.held ∧ f ∉ a.tableFrames := by
  have hfree : f ∈ frames.freeSet ↔ frames.isFree f = true := Iff.rfl
  rw [hfree, ← h.total]
  constructor
  · intro hf
    refine ⟨FrameAllocator.lt_totalPages hf, fun hheld => ?_, fun htable => ?_⟩
    · rw [(h.client hheld).2] at hf
      cases hf
    · rw [(h.tableFrame htable).2.1] at hf
      cases hf
  · intro hf
    obtain ⟨hlt, hheld, htable⟩ := hf
    by_contra hused
    rcases h.covered hlt (Bool.not_eq_true _ ▸ hused) with hin | hin
    · exact hheld hin
    · exact htable hin

/-- A frame is taken from the allocator for a new table. -/
theorem add (h : Ledger stock frames a) {address level : Nat} {user : Bool} {entries : Nat}
    (e : frames.allocatePage = (.ok address, frames')) :
    Ledger stock frames' (a.add (.blank address level user entries)).2 := by
  obtain ⟨f, rfl, hfree, hwf, htotal, hview⟩ := FrameAllocator.allocatePage_ok h.allocator e
  have hpos : 0 < f := Nat.pos_of_ne_zero (FrameAllocator.ne_zero_of_isFree h.allocator hfree)
  have hlt := FrameAllocator.lt_totalPages hfree
  have hdiv : f * frameSize / frameSize = f := Nat.mul_div_cancel _ (by decide)
  -- the frame was free, so no table was in it and no client held it
  refine ⟨h.books.add rfl fun id hid => h.not_free hid hfree rfl, hwf, htotal.trans h.total,
    fun {id frame} hf => ?_, fun {g} hg => ?_, fun {g} hg hused => ?_⟩
  · rw [Arena.frame?_add h.books.names] at hf
    split at hf
    · injection hf with hf
      have hf : f * frameSize = frame := hf
      subst hf
      refine ⟨Nat.mul_mod_left _ _, Nat.mul_pos hpos (by decide), by rw [hdiv, htotal]; exact hlt,
        by rw [hdiv, hview]; simp, ?_⟩
      rw [hdiv]
      intro hheld
      rw [(h.client hheld).2] at hfree
      cases hfree
    · obtain ⟨hmod, hpos', hlt', hused, hheld⟩ := h.table hf
      exact ⟨hmod, hpos', by rw [htotal]; exact hlt', by rw [hview, hused, Bool.false_and], hheld⟩
  · obtain ⟨hlt', hused⟩ := h.client hg
    exact ⟨by rw [htotal]; exact hlt', by rw [hview, hused, Bool.false_and]⟩
  · rw [Arena.tableFrames_add h.books.names]
    by_cases heq : g = f
    · exact .inr (.inl heq)
    · rw [hview] at hused
      simp only [heq, ne_eq, not_false_eq_true, decide_true, Bool.and_true] at hused
      rw [htotal] at hg
      exact (h.covered hg hused).imp_right .inr

/-- No frame was to be had. -/
theorem exhausted (h : Ledger stock frames a) {error : FrameError}
    (e : frames.allocatePage = (.error error, frames')) : Ledger stock frames' a := by
  obtain ⟨hwf, htotal, hview, -⟩ := FrameAllocator.allocatePage_error h.allocator e
  refine ⟨h.books, hwf, htotal.trans h.total, fun {id frame} hf => ?_, fun {g} hg => ?_,
    fun {g} hg hused => ?_⟩
  · rw [htotal, hview]; exact h.table hf
  · rw [htotal, hview]; exact h.client hg
  · rw [htotal] at hg
    rw [hview] at hused
    exact h.covered hg hused

/-- A table is removed and its frame given back. -/
theorem remove (h : Ledger stock frames a) {id frame : Nat} (hframe : a.frame? id = some frame) :
    Ledger stock (frames.freeBlock frame 0).2 (a.remove id).2 := by
  obtain ⟨hwf, htotal⟩ := FrameAllocator.freeBlock_wellFormed h.allocator frame 0
  have hview := FrameAllocator.isFree_freeBlock h.allocator frame 0
  obtain ⟨hmod, hpos, -, -, hnot⟩ := h.table hframe
  -- a frame other than the one given back does not become free
  have hother : ∀ g, g ≠ frame / frameSize → frames.isFree g = false →
      (frames.freeBlock frame 0).2.isFree g = false := by
    intro g hne hused
    rw [← Bool.not_eq_true, hview, hused]
    rintro (hfalse | ⟨-, hle, hlt, -⟩)
    · cases hfalse
    · exact hne (by omega)
  refine ⟨h.books.remove id, hwf, htotal.trans h.total, fun {x f} hf => ?_, fun {g} hg => ?_,
    fun {g} hg hused => ?_⟩
  · rw [Arena.frame?_remove] at hf
    split at hf
    · cases hf
    · rename_i hne
      obtain ⟨hmod', hpos, hlt, hused, hheld⟩ := h.table hf
      refine ⟨hmod', hpos, by rw [htotal]; exact hlt, hother _ (fun heq => ?_) hused, hheld⟩
      -- tables in one frame are one table
      have hsame : f = frame := by simp only [frameSize] at *; omega
      rw [hsame] at hf
      exact hne (h.books.frame_inj hf hframe)
  · obtain ⟨hlt, hused⟩ := h.client hg
    exact ⟨by rw [htotal]; exact hlt, hother _ (fun heq => hnot (heq ▸ hg)) hused⟩
  · rw [htotal] at hg
    rw [← Bool.not_eq_true, hview] at hused
    rw [not_or, Bool.not_eq_true] at hused
    -- the frame given back is free now, so this is another one, and in it is another table
    have hne : frame ≠ g * frameSize := by
      intro heq
      have hdiv : frame / frameSize = g := by rw [heq, Nat.mul_div_cancel _ (by decide)]
      exact hused.2 ⟨⟨Nat.ne_of_gt hpos, Nat.zero_le _, hmod⟩, by omega, by omega, hg⟩
    refine (h.covered hg hused.1).imp_right fun hin => ?_
    obtain ⟨x, hx⟩ := hin
    refine ⟨x, ?_⟩
    rw [Arena.frame?_remove, if_neg, hx]
    intro heq
    rw [heq, hframe] at hx
    exact hne (Option.some.inj hx)

/-- As many tables are counted as are in use. -/
theorem size_eq (h : Ledger stock frames a) : a.size = {id : Nat | a.get? id ≠ none}.ncard := by
  rw [h.books.size_eq fun hf => (h.table hf).1]
  -- each table in use has a frame of its own
  let place (id : Nat) : Nat := ((a.frame? id).getD 0) / frameSize
  have himage : a.tableFrames = place '' {id : Nat | a.get? id ≠ none} := by
    ext f
    constructor
    · rintro ⟨id, hid⟩
      refine ⟨id, fun hnone => ?_, ?_⟩
      · rw [Arena.frame?, hnone] at hid
        cases hid
      · show ((a.frame? id).getD 0) / frameSize = f
        rw [hid, Option.getD_some, Nat.mul_div_cancel _ (by decide)]
    · rintro ⟨id, hid, rfl⟩
      obtain ⟨t, ht⟩ := Option.ne_none_iff_exists'.mp hid
      have hframe := Arena.frame?_of_get? ht
      show ((a.frame? id).getD 0) / frameSize ∈ a.tableFrames
      rw [hframe]
      exact Arena.mem_tableFrames hframe (h.table hframe).1
  rw [himage, Set.InjOn.ncard_image]
  intro x hx y hy heq
  obtain ⟨t, ht⟩ := Option.ne_none_iff_exists'.mp hx
  obtain ⟨u, hu⟩ := Option.ne_none_iff_exists'.mp hy
  have hx := Arena.frame?_of_get? ht
  have hy := Arena.frame?_of_get? hu
  have hplace : t.frame / frameSize = u.frame / frameSize := by
    have heq : ((a.frame? x).getD 0) / frameSize = ((a.frame? y).getD 0) / frameSize := heq
    rwa [hx, hy] at heq
  have hsame : t.frame = u.frame := by
    have ht := (h.table hx).1
    have hu := (h.table hy).1
    rw [← Nat.div_add_mod t.frame frameSize, ← Nat.div_add_mod u.frame frameSize, ht, hu, hplace]
  rw [← hsame] at hy
  exact h.books.frame_inj hx hy

/-! ### Clients -/

/-- A block of free frames is handed out to a client. -/
theorem handOut (h : Ledger stock frames a) {block : Set Nat} (hwf : frames'.WellFormed)
    (htotal : frames'.totalPages = frames.totalPages)
    (hfree : block ⊆ frames.freeSet)
    (hview : ∀ f, frames'.isFree f = true ↔ frames.isFree f = true ∧ f ∉ block) :
    Ledger ⟨stock.held ∪ block, stock.total⟩ frames' a := by
  have hused : ∀ {f}, frames.isFree f = false → frames'.isFree f = false := fun {f} hf => by
    rw [← Bool.not_eq_true, hview, hf]
    exact fun hfalse => Bool.false_ne_true hfalse.1
  refine ⟨h.books, hwf, htotal.trans h.total, fun hf => ?_, fun {f} hf => ?_,
    fun {f} hlt hnot => ?_⟩
  · obtain ⟨hmod, hpos, hlt, hnot, hheld⟩ := h.table hf
    refine ⟨hmod, hpos, by rw [htotal]; exact hlt, hused hnot, fun hin => ?_⟩
    rcases hin with hin | hin
    · exact hheld hin
    · rw [show frames.isFree _ = true from hfree hin] at hnot
      cases hnot
  · rw [htotal]
    rcases hf with hf | hf
    · exact ⟨(h.client hf).1, hused (h.client hf).2⟩
    · refine ⟨FrameAllocator.lt_totalPages (hfree hf), ?_⟩
      rw [← Bool.not_eq_true, hview]
      exact fun hboth => hboth.2 hf
  · rw [htotal] at hlt
    by_cases hin : f ∈ block
    · exact .inl (.inr hin)
    · rw [← Bool.not_eq_true, hview, not_and_not_right] at hnot
      have hold : frames.isFree f = false := by
        rw [← Bool.not_eq_true]
        exact fun hf => hin (hnot hf)
      exact (h.covered hlt hold).imp_left .inl

/-- No client holds a frame that is free. -/
theorem held_disjoint (h : Ledger stock frames a) {block : Set Nat} (hfree : block ⊆ frames.freeSet) :
    stock.held ∩ block = ∅ := by
  refine Set.eq_empty_of_forall_notMem fun f hf => ?_
  obtain ⟨hheld, hin⟩ := hf
  exact (h.mem_freeSet_iff.mp (hfree hin)).2.1 hheld

theorem allocateBlock (h : Ledger stock frames a) {order address : Nat} {zone : Zone}
    (e : frames.allocateBlock order zone = (.ok address, frames')) :
    Ledger ⟨stock.held ∪ FrameAllocator.block address order, stock.total⟩ frames' a := by
  have hfree := FrameAllocator.block_subset_of_allocateBlock h.allocator e
  obtain ⟨f, rfl, -, hwf, htotal, hview⟩ := FrameAllocator.allocateBlock_ok h.allocator e
  refine h.handOut hwf htotal hfree fun g => ?_
  rw [hview, FrameAllocator.block, Set.mem_ofPred_eq, Nat.mul_div_cancel _ (by decide)]

theorem allocatePage (h : Ledger stock frames a) {address : Nat}
    (e : frames.allocatePage = (.ok address, frames')) :
    Ledger ⟨stock.held ∪ FrameAllocator.block address 0, stock.total⟩ frames' a := by
  have hfree := FrameAllocator.block_subset_of_allocatePage h.allocator e
  obtain ⟨f, rfl, -, hwf, htotal, hview⟩ := FrameAllocator.allocatePage_ok h.allocator e
  refine h.handOut hwf htotal hfree fun g => ?_
  rw [hview, FrameAllocator.mem_block_page, Bool.and_eq_true, decide_eq_true_eq]

/-- A client gives frames back that it holds. -/
theorem giveBack (h : Ledger stock frames a) {address order : Nat}
    (hheld : FrameAllocator.givenBack address order ⊆ stock.held) :
    Ledger ⟨stock.held \ FrameAllocator.givenBack address order, stock.total⟩
      (frames.freeBlock address order).2 a := by
  obtain ⟨hwf, htotal⟩ := FrameAllocator.freeBlock_wellFormed h.allocator address order
  have hused : ∀ {f}, f ∉ FrameAllocator.givenBack address order → frames.isFree f = false →
      (frames.freeBlock address order).2.isFree f = false := fun {f} hnot hf => by
    rw [← Bool.not_eq_true, FrameAllocator.isFree_freeBlock h.allocator, hf]
    rintro (hfalse | ⟨haccepts, hle, hlt, -⟩)
    · cases hfalse
    · exact hnot ⟨haccepts, hle, hlt⟩
  refine ⟨h.books, hwf, htotal.trans h.total, fun hf => ?_, fun {f} hf => ?_,
    fun {f} hlt hnot => ?_⟩
  · obtain ⟨hmod, hpos, hlt, hnot, hout⟩ := h.table hf
    exact ⟨hmod, hpos, by rw [htotal]; exact hlt, hused (fun hin => hout (hheld hin)) hnot,
      fun hin => hout hin.1⟩
  · obtain ⟨hlt, hnot⟩ := h.client hf.1
    exact ⟨by rw [htotal]; exact hlt, hused hf.2 hnot⟩
  · rw [htotal] at hlt
    rw [← Bool.not_eq_true, FrameAllocator.isFree_freeBlock h.allocator, not_or,
      Bool.not_eq_true] at hnot
    refine (h.covered hlt hnot.1).imp_left fun hin => ⟨hin, fun hback => ?_⟩
    exact hnot.2 ⟨hback.1, hback.2.1, hback.2.2, hlt⟩

/-- When the allocator starts, somebody holds each of its frames that is not free. -/
theorem started (h : Ledger stock frames a) (hnone : frames.totalPages = 0)
    (hwf : frames'.WellFormed) : Ledger frames'.inUse frames' a := by
  refine ⟨h.books, hwf, rfl, fun hf => ?_, id, fun hlt hused => .inl ⟨hlt, hused⟩⟩
  have hlt := (h.table hf).2.2.1
  rw [hnone] at hlt
  exact absurd hlt (Nat.not_lt_zero _)

end Ledger

/-! ## Steps on the store -/

namespace TableStore

open Steps

variable {s : TableStore}

theorem ends_write (level : LogLevel) (text : String) (ok : Unit → TableStore → Prop)
    (failed : Failure → TableStore → Prop) :
    Ends (write level text) s ok failed ↔ ok () { s with log := s.log.push ⟨level, text⟩ } :=
  Iff.rfl

theorem ends_allocatePage (ok : Except FrameError PhysAddr → TableStore → Prop)
    (failed : Failure → TableStore → Prop)
    (h : ∀ result s', s.frames.allocatePage = (result, s'.frames) → s'.arena = s.arena →
      ok result s') : Ends allocatePage s ok failed := by
  cases e : s.frames.allocatePage with
  | mk result frames =>
    simp only [allocatePage, ends_bind, ends_modifyGet, e]
    cases result with
    | ok address => exact h _ _ e rfl
    | error error => exact h _ _ e rfl

theorem ends_allocateBlock (order : Nat) (zone : Zone)
    (ok : Except FrameError PhysAddr → TableStore → Prop) (failed : Failure → TableStore → Prop)
    (h : ∀ result s', s.frames.allocateBlock order zone = (result, s'.frames) →
      s'.arena = s.arena → ok result s') : Ends (allocateBlock order zone) s ok failed := by
  cases e : s.frames.allocateBlock order zone with
  | mk result frames =>
    simp only [allocateBlock, ends_bind, ends_modifyGet, e]
    cases result with
    | ok address => exact h _ _ e rfl
    | error error => cases error <;> exact h _ _ e rfl

theorem ends_freeBlock (address order : Nat) (ok : Unit → TableStore → Prop)
    (failed : Failure → TableStore → Prop)
    (h : ∀ s', s'.frames = (s.frames.freeBlock address order).2 → s'.arena = s.arena →
      ok () s') : Ends (freeBlock address order) s ok failed := by
  cases e : s.frames.freeBlock address order with
  | mk freed frames =>
    simp only [freeBlock, ends_bind, ends_modifyGet, e]
    cases freed with
    | none => exact h _ (by rw [e]) rfl
    | some count => exact h _ (by rw [e]) rfl

theorem ends_slot {id index : Nat} {x : Slot} (h : s.arena.slot? id index = some x)
    (ok : Slot → TableStore → Prop) (failed : Failure → TableStore → Prop) :
    Ends (slot id index) s ok failed ↔ ok x s := by
  rw [Ends, slot, Arena.slot_eq_ok h]

theorem ends_table {id : TableId} {t : Table} (h : s.arena.get? id = some t)
    (ok : Table → TableStore → Prop) (failed : Failure → TableStore → Prop) :
    Ends (table id) s ok failed ↔ ok t s := by
  rw [Ends, table, Arena.table_eq_ok h]

theorem ends_setSlot {id index : Nat} {old new : Slot} (h : s.arena.slot? id index = some old)
    (ok : Unit → TableStore → Prop) (failed : Failure → TableStore → Prop) :
    Ends (setSlot id index new) s ok failed
      ↔ ok () { s with arena := s.arena.put id index new } := by
  rw [Ends, setSlot, Arena.slotProblem_eq_none h]

theorem ends_addTable {format : Format} {level : Nat} {user : Bool} (hlevel : level < format.levels)
    {ok : TableId → TableStore → Prop} {refused : MemoryError → TableStore → Prop}
    (hok : ∀ frame s', s.frames.allocatePage = (.ok frame, s'.frames) →
      s'.arena = (s.arena.add (.blank frame level user format.entries)).2 →
        ok (s.arena.add (.blank frame level user format.entries)).1 s')
    (hrefused : ∀ error s', s.frames.allocatePage = (.error error, s'.frames) →
      s'.arena = s.arena → refused (.ofFrameError error) s') :
    Ends (addTable format level user) s ok (onRefusal refused) := by
  rw [addTable, if_pos hlevel, ends_bind]
  refine ends_allocatePage _ _ fun result s' hframes harena => ?_
  cases result with
  | error error => exact hrefused error s' hframes harena
  | ok frame =>
    simp only [ends_bind, ends_modifyGet, ends_write, ends_pure, harena]
    exact hok frame _ hframes rfl

theorem addTable_ok {format : Format} {level : Nat} {user : Bool} {id : TableId} {s' : TableStore}
    (e : addTable format level user s = .ok id s') :
    ∃ frame, s.frames.allocatePage = (.ok frame, s'.frames)
      ∧ id = (s.arena.add (.blank frame level user format.entries)).1
      ∧ s'.arena = (s.arena.add (.blank frame level user format.entries)).2 := by
  by_cases hlevel : level < format.levels
  · have hends : Ends (addTable format level user) s (fun id s' => ∃ frame,
        s.frames.allocatePage = (.ok frame, s'.frames)
          ∧ id = (s.arena.add (.blank frame level user format.entries)).1
          ∧ s'.arena = (s.arena.add (.blank frame level user format.entries)).2)
        (onRefusal fun _ _ => True) :=
      ends_addTable hlevel (fun frame _ hframes harena => ⟨frame, hframes, rfl, harena⟩)
        fun _ _ _ _ => trivial
    exact hends.of_ok e
  · rw [addTable, if_neg hlevel] at e
    cases e

/-- A table that was refused leaves the tables and the log alone. -/
theorem addTable_refused {format : Format} {level : Nat} {user : Bool} {error : MemoryError}
    {s' : TableStore} (e : addTable format level user s = .error (.refused error) s') :
    ∃ cause, s.frames.allocatePage = (.error cause, s'.frames) ∧ error = .ofFrameError cause
      ∧ s' = { s with frames := s'.frames } := by
  by_cases hlevel : level < format.levels
  · cases hpage : s.frames.allocatePage with
    | mk result frames =>
      cases result with
      | ok frame =>
        have hends : Ends (addTable format level user) s (fun _ _ => True)
            (onRefusal fun _ _ => False) :=
          ends_addTable hlevel (fun _ _ _ _ => trivial) fun _ _ h _ => by rw [hpage] at h; cases h
        exact (hends.of_error e).elim
      | error cause =>
        have hnone : allocatePage s = .ok (.error cause) { s with frames := frames } := by
          unfold allocatePage
          rw [bind_of_ok (modifyGet_of_eq { s with frames := frames } (by rw [hpage]))]
          rfl
        rw [addTable, if_pos hlevel, bind_of_ok hnone] at e
        cases e
        exact ⟨cause, rfl, rfl, rfl⟩
  · rw [addTable, if_neg hlevel] at e
    cases e

theorem setSlot_ok {id index : Nat} {x : Slot} {s' : TableStore}
    (e : setSlot id index x s = .ok () s') : s' = { s with arena := s.arena.put id index x } := by
  unfold setSlot at e
  split at e
  · cases e
  · cases e
    rfl

theorem ends_removeTable {id frame : Nat} (h : s.arena.frame? id = some frame)
    (ok : Unit → TableStore → Prop) (failed : Failure → TableStore → Prop)
    (hok : ∀ s', s'.frames = (s.frames.freeBlock frame 0).2 →
      s'.arena = (s.arena.remove id).2 → ok () s') : Ends (removeTable id) s ok failed := by
  have hfst : (s.arena.remove id).1 = some frame := by rw [Arena.fst_remove, h]
  simp only [removeTable, ends_bind, ends_modifyGet, hfst, freePage]
  refine ends_freeBlock _ _ _ _ fun s' hframes harena => hok s' hframes harena

/-- Removing a table that is not in use does nothing. -/
theorem removeTable_eq_self {id : TableId} (h : s.arena.get? id = none) :
    removeTable id s = .ok () s := by
  unfold removeTable
  rw [bind_of_ok (modifyGet_of_eq s (by rw [Arena.remove_eq_self h]))]
  rfl

/-- Only the table removed is not in use afterwards. -/
theorem ends_removeTable_left (id : Nat) : Ends (removeTable id) s
    (fun _ s' => ∀ x : Nat, s'.arena.get? x = if x = id then none else s.arena.get? x)
    (fun _ _ => False) := by
  cases hid : s.arena.get? id with
  | none =>
    rw [Ends, removeTable_eq_self hid]
    intro x
    split
    · rename_i heq
      rw [heq, hid]
    · rfl
  | some t =>
    refine ends_removeTable (Arena.frame?_of_get? hid) _ _ fun s' _ harena x => ?_
    rw [harena, Arena.get?_remove]

section

variable {P : TableStore → Prop} (hremove : ∀ {s : TableStore} {id : TableId}, P s →
  Ends (removeTable id) s (fun _ s' => P s') (fun _ _ => False))
include hremove

/-- Tables are removed one after another.  What each removal keeps is kept, and of the tables there
were, those with other names are left. -/
theorem ends_removeFrom : ∀ {count id : Nat} {s : TableStore}, P s →
    Ends (removeFrom id count) s
      (fun _ s' => P s' ∧ ∀ x : Nat, s'.arena.get? x
        = if id ≤ x ∧ x < id + count then none else s.arena.get? x)
      (fun _ _ => False) := by
  intro count
  induction count with
  | zero =>
    intro id s h
    refine ⟨h, fun x => ?_⟩
    rw [if_neg (by omega)]
  | succ count ih =>
    intro id s h
    rw [removeFrom, ends_bind]
    refine ((hremove h).and (ends_removeTable_left id)).mono (fun _ s₁ h₁ => ?_) fun _ _ hf => hf.1
    refine (ih h₁.1).mono (fun _ s₂ h₂ => ⟨h₂.1, fun x => ?_⟩) fun _ _ hf => hf
    rw [h₂.2, h₁.2]
    split
    · rw [if_pos (by omega)]
    · split
      · rw [if_pos (by omega)]
      · rw [if_neg (by omega)]

/-- Every table is removed, and then nothing waits to be written. -/
theorem ends_removeAll (h : P s) :
    Ends removeAll s
      (fun _ s' => ∃ s₁, P s₁ ∧ (∀ x : Nat, s₁.arena.get? x = none)
        ∧ s' = { s₁ with arena := s₁.arena.clearPending })
      (fun _ _ => False) := by
  rw [removeAll, ends_bind, ends_get, ends_bind]
  refine (ends_removeFrom hremove h).mono (fun _ s₁ h₁ => ?_) fun _ _ hf => hf
  refine ⟨s₁, h₁.1, fun x => ?_, rfl⟩
  rw [h₁.2]
  split
  · rfl
  · exact Arena.get?_eq_none_of_size_le (by omega)

end

/-- The ledger is kept as tables are removed. -/
theorem ends_removeTable_ledger {stock : Stock} {id : TableId}
    (h : Ledger stock s.frames s.arena) :
    Ends (removeTable id) s (fun _ s' => Ledger stock s'.frames s'.arena) (fun _ _ => False) := by
  cases hframe : s.arena.frame? id with
  | none =>
    rw [Ends, removeTable_eq_self (Option.map_eq_none_iff.mp hframe)]
    exact h
  | some frame =>
    refine ends_removeTable hframe _ _ fun s' hframes harena => ?_
    rw [hframes, harena]
    exact h.remove hframe

end TableStore

end KernelMemory
