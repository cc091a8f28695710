/-
  KernelMemory.Proofs.Paging.Placing — where tables are placed.

  A new table goes into the lowest frame that is free at the time.  While tables are made no
  frame becomes free, so what has become free only later does not matter: when the work is done,
  every new table is in a frame that was free before, and below all that are free still.  When
  tables are removed, their frames become free and no others.  This holds whatever state the
  tables are in, also where frames were given back that hold one.

  Main results:
    * `draws_addTable`, `draws_mapRange` — making tables and mapping ranges draw on free frames;
    * `sheds_removeTable`, `sheds_releasePrivate` — removing tables sheds frames.
-/

import KernelMemory.Paging.Walk
import KernelMemory.Proofs.Keeping
import KernelMemory.Proofs.Paging.Commit

namespace KernelMemory

open Steps

namespace TableStore

variable {s s' s'' : TableStore} {format : Format}

/-- The names of tables are in order, and so is the allocator. -/
structure Tidy (s : TableStore) : Prop where
  names : s.arena.Names
  frames : s.frames.WellFormed

/-- Errors other than that a processor is in the kernel space already.  Tables are made and removed
for the processors without a look at where these are. -/
abbrev NotNested : MemoryError → Prop := fun error => error ≠ .nestedKernelEntry

theorem notNested_ofFrameError (error : FrameError) : NotNested (.ofFrameError error) := by
  cases error with
  | notInitialized => decide
  | outOfMemory => decide
  | orderTooLarge order => exact fun heq => nomatch heq

/-! ## Making tables -/

/-- Tables were made: each new one is in a frame that was free, and lower than all that are
free. -/
structure Drawn (s s' : TableStore) : Prop where
  tidy : s'.Tidy
  free : ∀ {f}, s'.frames.isFree f = true → s.frames.isFree f = true
  tables : ∀ {id frame}, s'.arena.frame? id = some frame →
    s.arena.frame? id = some frame
      ∨ ∃ f, frame = f * frameSize ∧ s.frames.isFree f = true
        ∧ ∀ {g}, s'.frames.isFree g = true → f < g

/-- From a tidy state, tables are made only. -/
def Draws (s s' : TableStore) : Prop := s.Tidy → Drawn s s'

theorem Drawn.refl (h : s.Tidy) : Drawn s s := ⟨h, id, .inl⟩

theorem Drawn.trans (h : Drawn s s') (h' : Drawn s' s'') : Drawn s s'' where
  tidy := h'.tidy
  free := fun hf => h.free (h'.free hf)
  tables := fun {id frame} hf => by
    rcases h'.tables hf with hold | ⟨f, hframe, hfree, hlow⟩
    · -- a table of the first part is below all frames that are free after it
      refine (h.tables hold).imp_right fun hnew => ?_
      obtain ⟨f, hframe, hfree, hlow⟩ := hnew
      exact ⟨f, hframe, hfree, fun hg => hlow (h'.free hg)⟩
    · exact .inr ⟨f, hframe, h.free hfree, hlow⟩

instance : Std.Refl Draws := ⟨fun _ h => .refl h⟩

instance : IsTrans TableStore Draws :=
  ⟨fun _ _ _ h h' tidy => (h tidy).trans (h' (h tidy).tidy)⟩

/-- No table was made, and no frame became free. -/
theorem draws_of_frames {frames : FrameAllocator} {arena : Arena} {log : Array LogRecord}
    (hframes : s.frames.WellFormed → frames.WellFormed)
    (hfree : s.frames.WellFormed → ∀ {f}, frames.isFree f = true → s.frames.isFree f = true)
    (hnames : s.arena.Names → arena.Names)
    (htables : ∀ id, arena.frame? id = s.arena.frame? id) : Draws s ⟨frames, arena, log⟩ :=
  fun tidy => ⟨⟨hnames tidy.names, hframes tidy.frames⟩, hfree tidy.frames, fun {id frame} hf =>
    .inl (by rw [← htables]; exact hf)⟩

theorem draws_write (level : LogLevel) (text : String) : Keeps Draws NotNested (write level text) :=
  keeps_modify fun _ => draws_of_frames id (fun _ _ => id) id fun _ => rfl

section

variable {R : TableStore → TableStore → Prop} {E : MemoryError → Prop} [Std.Refl R]

theorem keeps_slot (id index : Nat) : Keeps R E (slot id index) := by
  intro s
  unfold Ends slot
  cases s.arena.slot id index with
  | ok x => exact Std.Refl.refl s
  | error fault => exact ⟨Std.Refl.refl s, fun _ heq => nomatch heq⟩

theorem keeps_table (id : TableId) : Keeps R E (table id) := by
  intro s
  unfold Ends table
  cases s.arena.table id with
  | ok x => exact Std.Refl.refl s
  | error fault => exact ⟨Std.Refl.refl s, fun _ heq => nomatch heq⟩

end

theorem draws_setSlot (id index : Nat) (x : Slot) : Keeps Draws NotNested (setSlot id index x) := by
  intro s
  unfold Ends setSlot
  cases s.arena.slotProblem id index with
  | some fault => exact ⟨fun tidy => .refl tidy, fun _ heq => nomatch heq⟩
  | none =>
    exact draws_of_frames (fun h => h) (fun _ _ h => h) (fun names => names.put id index x)
      fun other => Arena.frame?_put s.arena id index x other

theorem draws_allocatePage : Keeps Draws NotNested allocatePage := by
  intro s
  refine ends_allocatePage _ _ fun result s' hframes harena tidy => ?_
  cases result with
  | ok address =>
    obtain ⟨f, -, -, hwf, -, hview⟩ := FrameAllocator.allocatePage_ok tidy.frames hframes
    refine ⟨⟨by rw [harena]; exact tidy.names, hwf⟩, fun {g} hg => ?_, fun hf => .inl ?_⟩
    · rw [hview, Bool.and_eq_true] at hg
      exact hg.1
    · rw [← harena]
      exact hf
  | error error =>
    obtain ⟨hwf, -, hview, -⟩ := FrameAllocator.allocatePage_error tidy.frames hframes
    refine ⟨⟨by rw [harena]; exact tidy.names, hwf⟩, fun {g} hg => ?_, fun hf => .inl ?_⟩
    · rw [← hview]
      exact hg
    · rw [← harena]
      exact hf

theorem draws_allocateBlock (order : Nat) (zone : Zone) :
    Keeps Draws NotNested (allocateBlock order zone) := by
  intro s
  refine ends_allocateBlock _ _ _ _ fun result s' hframes harena tidy => ?_
  cases result with
  | ok address =>
    obtain ⟨f, -, -, hwf, -, hview⟩ := FrameAllocator.allocateBlock_ok tidy.frames hframes
    refine ⟨⟨by rw [harena]; exact tidy.names, hwf⟩, fun {g} hg => ((hview g).mp hg).1,
      fun hf => .inl ?_⟩
    rw [← harena]
    exact hf
  | error error =>
    have hsame := FrameAllocator.allocateBlock_error hframes
    refine ⟨⟨by rw [harena]; exact tidy.names, by rw [hsame]; exact tidy.frames⟩,
      fun {g} hg => ?_, fun hf => .inl ?_⟩
    · rw [← hsame]
      exact hg
    · rw [← harena]
      exact hf

/-- A new table is in the lowest frame that was free. -/
theorem drawn_add {frame level entries : Nat} {user : Bool} (tidy : s.Tidy)
    (hframes : s.frames.allocatePage = (.ok frame, s'.frames))
    (harena : s'.arena = (s.arena.add (.blank frame level user entries)).2) : Drawn s s' := by
  obtain ⟨f, rfl, hfree, hwf, -, hview⟩ := FrameAllocator.allocatePage_ok tidy.frames hframes
  refine ⟨⟨by rw [harena]; exact tidy.names.add _, hwf⟩, fun {g} hg => ?_,
    fun {id frame} hf => ?_⟩
  · rw [hview, Bool.and_eq_true] at hg
    exact hg.1
  · rw [harena, Arena.frame?_add tidy.names] at hf
    split at hf
    · injection hf with hf
      refine .inr ⟨f, hf.symm, hfree, fun {g} hg => ?_⟩
      rw [hview, Bool.and_eq_true, decide_eq_true_eq] at hg
      have hle := FrameAllocator.allocatePage_le tidy.frames hframes hg.1
      have hne := hg.2
      simp only [frameSize] at hle
      omega
    · exact .inl hf

theorem draws_addTable (format : Format) (level : Nat) (user : Bool) :
    Keeps Draws NotNested (addTable format level user) := by
  by_cases hlevel : level < format.levels
  · apply keeps_of_refusal
    intro s
    refine ends_addTable hlevel
      (fun frame s' hframes harena tidy => drawn_add tidy hframes harena)
      fun error s' hframes harena => ⟨fun tidy => ?_, notNested_ofFrameError error⟩
    obtain ⟨hwf, -, hview, -⟩ := FrameAllocator.allocatePage_error tidy.frames hframes
    refine ⟨⟨by rw [harena]; exact tidy.names, hwf⟩, fun {g} hg => ?_, fun hf => .inl ?_⟩
    · rw [← hview]
      exact hg
    · rw [← harena]
      exact hf
  · rw [addTable, if_neg hlevel]
    exact keeps_stop _

end TableStore

/-! ## Mapping ranges -/

namespace Walk

open TableStore

variable {format : Format} {request : MapRequest}

theorem draws_descend {virt phys target : Nat} : ∀ {steps id : Nat},
    Keeps Draws NotNested (descend format request virt phys target steps id) := by
  intro steps
  induction steps with
  | zero => intro id; exact keeps_pure _
  | succ steps ih =>
    intro id
    rw [descend]
    apply (keeps_slot _ _).bind
    intro x
    cases x with
    | table child => exact ih
    | leaf mapping => exact keeps_refuse (by decide)
    | empty =>
      simp only
      split
      · exact keeps_refuse (by decide)
      · exact (draws_addTable _ _ _).bind fun _ => (draws_setSlot _ _ _).bind fun _ => ih
    | large existing =>
      apply (keeps_lift _).bind
      intro expected
      split
      · exact keeps_pure _
      · exact (draws_write _ _).bind fun _ => keeps_refuse (by decide)

theorem draws_remap {virt phys target id index : Nat} {existing : Mapping} :
    Keeps Draws NotNested (remap request virt phys target id index existing) := by
  unfold remap
  split
  · exact (draws_write _ _).bind fun _ => keeps_refuse (by decide)
  · split
    · exact keeps_pure _
    · exact (draws_setSlot _ _ _).bind fun _ => keeps_pure _

theorem draws_install {virt phys target id : Nat} :
    Keeps Draws NotNested (install format request virt phys target id) := by
  unfold install
  apply (keeps_slot _ _).bind
  intro x
  cases x with
  | empty =>
    simp only
    split
    · exact keeps_refuse (by decide)
    · exact (draws_setSlot _ _ _).bind fun _ => keeps_pure _
  | table child => exact keeps_pure _
  | leaf existing => exact draws_remap.bind fun _ => keeps_pure _
  | large existing => exact draws_remap.bind fun _ => keeps_pure _

theorem draws_mapPage {virt phys target : Nat} :
    Keeps Draws NotNested (mapPage format request virt phys target) := by
  unfold mapPage
  apply draws_descend.bind
  intro descent
  cases descent with
  | covered => exact keeps_pure _
  | reached id => exact draws_install

theorem draws_mapNext {virt phys remaining : Nat} :
    Keeps Draws NotNested (mapNext format request virt phys remaining) := by
  -- where no large page is mapped, a small one is
  unfold mapNext
  split
  · refine draws_mapPage.bind_option (fun _ => ?_) ?_
    · exact keeps_pure _
    · exact draws_mapPage.bind_option (fun _ => keeps_pure _) (keeps_stop _)
  · refine (keeps_pure none).bind_option (fun _ => ?_) ?_
    · exact keeps_pure _
    · exact draws_mapPage.bind_option (fun _ => keeps_pure _) (keeps_stop _)

theorem draws_mapPages : ∀ {rounds virt phys remaining : Nat} {summary : MapSummary},
    Keeps Draws NotNested (mapPages format request rounds virt phys remaining summary) := by
  intro rounds
  induction rounds with
  | zero => intro virt phys remaining summary; exact keeps_pure _
  | succ rounds ih =>
    intro virt phys remaining summary
    rw [mapPages]
    split
    · exact keeps_pure _
    · apply draws_mapNext.bind
      intro done
      simp only
      split
      · exact keeps_pure _
      · exact (keeps_lift _).bind fun _ => (keeps_lift _).bind fun _ => ih

theorem draws_mapRange (format : Format) (request : MapRequest) :
    Keeps Draws NotNested (mapRange format request) := by
  unfold mapRange
  split
  · exact keeps_refuse (by decide)
  · rename_i virt phys length _
    split
    · generalize Word.add phys frameSize = next
      exact (keeps_lift next).bind fun _ => draws_mapPages
    · exact draws_mapPages

end Walk

/-! ## Removing tables -/

namespace TableStore

variable {s s' s'' : TableStore}

/-- Tables were removed: the frames that became free are theirs. -/
structure Shed (s s' : TableStore) : Prop where
  tidy : s'.Tidy
  free : ∀ {f}, s'.frames.isFree f = true →
    s.frames.isFree f = true ∨ ∃ id, s.arena.frame? id = some (f * frameSize)
  tables : ∀ {id frame}, s'.arena.frame? id = some frame → s.arena.frame? id = some frame

/-- From a tidy state, tables are removed only. -/
def Sheds (s s' : TableStore) : Prop := s.Tidy → Shed s s'

theorem Shed.refl (h : s.Tidy) : Shed s s := ⟨h, .inl, id⟩

theorem Shed.trans (h : Shed s s') (h' : Shed s' s'') : Shed s s'' where
  tidy := h'.tidy
  free := fun hf => (h'.free hf).elim h.free fun ⟨id, hid⟩ => .inr ⟨id, h.tables hid⟩
  tables := fun hf => h.tables (h'.tables hf)

instance : Std.Refl Sheds := ⟨fun _ h => .refl h⟩

instance : IsTrans TableStore Sheds :=
  ⟨fun _ _ _ h h' tidy => (h tidy).trans (h' (h tidy).tidy)⟩

/-- A table is removed in any state, and only its own frame becomes free with it. -/
theorem ends_removeTable_sheds (id : TableId) :
    Ends (removeTable id) s (fun _ s' => Sheds s s') (fun _ _ => False) := by
  cases hframe : s.arena.frame? id with
  | none =>
    -- a name not in use is ignored
    rw [Ends, removeTable_eq_self (Option.map_eq_none_iff.mp hframe)]
    exact fun tidy => .refl tidy
  | some frame =>
    refine ends_removeTable hframe _ _ fun s' hframes harena tidy => ?_
    obtain ⟨hwf, -⟩ := FrameAllocator.freeBlock_wellFormed tidy.frames frame 0
    refine ⟨⟨by rw [harena]; exact tidy.names.remove id, by rw [hframes]; exact hwf⟩,
      fun {f} hf => ?_, fun {other place} hf => ?_⟩
    · rw [hframes, FrameAllocator.isFree_freeBlock tidy.frames] at hf
      refine hf.imp_right fun hback => ⟨id, ?_⟩
      obtain ⟨⟨-, -, hmod⟩, hle, hlt, -⟩ := hback
      rw [hframe, show frame = f * frameSize by simp only [frameSize] at *; omega]
    · rw [harena, Arena.frame?_remove] at hf
      split at hf
      · cases hf
      · exact hf

theorem sheds_removeTable (id : TableId) : Keeps Sheds NotNested (removeTable id) :=
  fun _ => (ends_removeTable_sheds id).mono (fun _ _ h => h) fun _ _ hf => hf.elim

end TableStore

namespace Walk

open TableStore

theorem sheds_releaseSlots {release : TableId → TableSteps Nat}
    (hrelease : ∀ id, Keeps Sheds NotNested (release id)) {id : TableId} : ∀ {count index : Nat},
      Keeps Sheds NotNested (releaseSlots release id count index) := by
  intro count
  induction count with
  | zero => intro index; exact keeps_pure _
  | succ count ih =>
    intro index
    rw [releaseSlots]
    apply (keeps_slot _ _).bind
    intro x
    cases x with
    | table child => exact (hrelease child).bind fun _ => ih.bind fun _ => keeps_pure _
    | empty => exact ih
    | leaf mapping => exact ih
    | large mapping => exact ih

theorem sheds_releaseTree (format : Format) : ∀ {depth id : Nat},
    Keeps Sheds NotNested (releaseTree format depth id) := by
  intro depth
  induction depth with
  | zero => intro id; exact keeps_stop _
  | succ depth ih =>
    intro id
    rw [releaseTree]
    apply (keeps_table id).bind
    intro t
    have hrest : ∀ below : Nat, Keeps Sheds NotNested (do
        removeTable id
        return below + 1 : TableSteps Nat) :=
      fun below => (sheds_removeTable id).bind fun _ => keeps_pure _
    simp only
    split
    · exact (sheds_releaseSlots fun _ => ih).bind hrest
    · exact (keeps_pure _).bind hrest

theorem sheds_releasePrivate (format : Format) (root : TableId) :
    Keeps Sheds NotNested (releasePrivate format root) := by
  unfold releasePrivate
  apply keeps_get.bind
  intro s
  exact (sheds_releaseSlots fun _ => sheds_releaseTree format).bind fun _ =>
    (sheds_removeTable root).bind fun _ => keeps_pure _

end Walk

end KernelMemory
