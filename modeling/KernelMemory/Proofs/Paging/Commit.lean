/-
  KernelMemory.Proofs.Paging.Commit — tables in memory.

  A table that does not wait to be written is in memory as it stands (`Synced`): each of its
  slots encodes to the entry found at its place.  Edits mark what they change, so they keep
  this; writing the waiting tables leaves none that waits, and so memory agrees with the
  tables (`Settled`).

  Main results:
    * `Synced.put`, `Synced.add`, `Edits.synced`, `Synced.pruned` — changes are marked;
    * `exists_image` — a table that names only tables in use has a page;
    * `read_writes` — what is in the frame of a table once the waiting tables are written;
    * `commit_settled` — writing never faults, and settles the tables;
    * `commit_again` — writing settled tables changes nothing.
-/

import KernelMemory.Proofs.Paging.Edits
import KernelMemory.Proofs.Paging.Release
import KernelMemory.Proofs.Paging.Writing

namespace KernelMemory

/-! ## Pages and their entries -/

/-- Numbers of as many bytes are equal only if all their bytes are. -/
theorem eq_of_ofBytes {f g : Nat → UInt8} : ∀ {count : Nat}, ofBytes f count = ofBytes g count →
    ∀ i, i < count → f i = g i := by
  intro count
  induction count generalizing f g with
  | zero =>
    intro _ i hi
    exact absurd hi (Nat.not_lt_zero i)
  | succ count ih =>
    intro h i hi
    simp only [ofBytes] at h
    have hf := (f 0).toNat_lt
    have hg := (g 0).toNat_lt
    cases i with
    | zero => exact UInt8.toNat_inj.mp (by omega)
    | succ i => exact ih (f := fun i => f (i + 1)) (g := fun i => g (i + 1)) (by omega) i (by omega)

/-- A page is known by its entries. -/
theorem Page.eq_of_entry {width count : Nat} (hcount : count * width = frameSize) {p q : Page}
    (h : ∀ i, i < count → p.entry width i = q.entry width i) : p = q := by
  apply Vector.ext
  intro i hi
  have hwidth : 0 < width := by
    apply Nat.pos_of_ne_zero
    rintro rfl
    rw [Nat.mul_zero] at hcount
    exact absurd hcount (by decide)
  have hlt : i / width < count := by
    rw [Nat.div_lt_iff_lt_mul hwidth, hcount]
    exact hi
  have hbyte := eq_of_ofBytes (h (i / width) hlt) (i % width) (Nat.mod_lt _ hwidth)
  simpa [Nat.div_add_mod', Vector.getElem?_eq_getElem hi] using hbyte

namespace Arena

variable {format : Format} {kernel : TableId} {a b : Arena} {memory : Memory}

/-! ## Entries and slots -/

/-- The entry that stands for a slot of a table at a level. -/
inductive Encodes (format : Format) (a : Arena) (level : Nat) : Slot → Nat → Prop where
  | empty : Encodes format a level .empty 0
  | table {child frame : Nat} {user : Bool} (hframe : a.frame? child = some frame)
      (huser : a.user? child = some user) :
      Encodes format a level (.table child) (format.encodeTable frame user)
  | leaf (m : Mapping) : Encodes format a level (.leaf m) (format.encodePage m.frame m.flags 0)
  | large (m : Mapping) :
      Encodes format a level (.large m) (format.encodePage m.frame m.flags level)

theorem Encodes.rawEntry_eq {level raw : Nat} {s : Slot} (h : Encodes format a level s raw) :
    a.rawEntry format level s = .ok raw := by
  cases h with
  | empty => rfl
  | @table child frame user hframe huser =>
    obtain ⟨t, ht, rfl⟩ := Option.map_eq_some_iff.mp hframe
    simp only [user?, ht, Option.map_some, Option.some.injEq] at huser
    subst huser
    rw [rawEntry, table_eq_ok ht]
    rfl
  | leaf m => rfl
  | large m => rfl

theorem Encodes.lt {level raw : Nat} {s : Slot} (h : Encodes format a level s raw) :
    raw < 256 ^ format.entryBytes := by
  have hpow : 256 ^ format.entryBytes = 2 ^ (8 * format.entryBytes) := by cases format <;> rfl
  rw [hpow]
  cases h with
  | empty => exact Nat.two_pow_pos _
  | @table child frame user hframe huser =>
    refine Nat.lt_of_lt_of_le (format.encodeTable_lt frame user) ?_
    cases format <;> exact Nat.pow_le_pow_right (by decide) (by decide)
  | leaf m => exact format.encodePage_lt m.frame m.flags 0
  | large m => exact format.encodePage_lt m.frame m.flags level

/-- A slot stands for an entry, unless it names a table that is not in use. -/
theorem exists_encodes (level : Nat) {s : Slot}
    (child : ∀ {c}, s = .table c → ∃ below, a.get? c = some below) :
    ∃ raw, Encodes format a level s raw := by
  cases s with
  | empty => exact ⟨_, .empty⟩
  | table c =>
    obtain ⟨below, hbelow⟩ := child rfl
    exact ⟨_, .table (show a.frame? c = some below.frame by rw [frame?, hbelow]; rfl)
      (show a.user? c = some below.user by rw [user?, hbelow]; rfl)⟩
  | leaf mapping => exact ⟨_, .leaf mapping⟩
  | large mapping => exact ⟨_, .large mapping⟩

/-- An entry goes on to stand for a slot as long as the tables in use keep their frames. -/
theorem Encodes.mono {level raw : Nat} {s : Slot} (h : Encodes format a level s raw)
    (hframe : ∀ {c f}, s = .table c → a.frame? c = some f → b.frame? c = some f)
    (huser : ∀ {c u}, s = .table c → a.user? c = some u → b.user? c = some u) :
    Encodes format b level s raw := by
  cases h with
  | empty => exact .empty
  | table hf hu => exact .table (hframe rfl hf) (huser rfl hu)
  | leaf m => exact .leaf m
  | large m => exact .large m

/-! ## Tables in memory -/

/-- The frame of a table holds the entries of its slots. -/
def Written (format : Format) (a : Arena) (memory : Memory) (id : TableId) : Prop :=
  ∀ {frame level i : Nat} {s : Slot}, a.frame? id = some frame → a.level? id = some level →
    a.slot? id i = some s →
      Encodes format a level s ((memory.read frame).entry format.entryBytes i)

/-- Every table that does not wait to be written is in memory as it stands. -/
def Synced (format : Format) (a : Arena) (memory : Memory) : Prop :=
  ∀ id, a.dirty? id = some false → Written format a memory id

/-- No table waits, and memory agrees with all of them. -/
structure Settled (format : Format) (a : Arena) (memory : Memory) : Prop where
  clean : ∀ id, a.dirty? id ≠ some true
  synced : Synced format a memory

theorem Settled.written (h : Settled format a memory) {id level : Nat}
    (hl : a.level? id = some level) : Written format a memory id := by
  obtain ⟨t, -, -, -, hdirty, -⟩ := exists_views hl
  refine h.synced id ?_
  cases hd : t.dirty with
  | true => rw [hd] at hdirty; exact absurd hdirty (h.clean id)
  | false => rw [hdirty, hd]

theorem settled_empty (format : Format) (memory : Memory) : Settled format empty memory where
  clean := by simp [dirty?]
  synced := fun id hd => by simp [dirty?] at hd

theorem Synced.put (h : Synced format a memory) (id index : Nat) (new : Slot) :
    Synced format (a.put id index new) memory := by
  intro x hx
  -- the table that is written to waits from now on, so nothing is asked of its frame
  rw [dirty?_put] at hx
  split at hx
  · cases hd : a.dirty? id with
    | none => rw [hd] at hx; cases hx
    | some dirty => rw [hd] at hx; cases hx
  · rename_i hne
    intro frame level i s hframe hlevel hs
    rw [frame?_put] at hframe
    rw [level?_put] at hlevel
    rw [slot?_put, if_neg fun heq => hne heq.1] at hs
    exact (h x hx hframe hlevel hs).mono (fun _ hf => by rwa [frame?_put])
      fun _ hu => by rwa [user?_put]

theorem Synced.add (h : Synced format a memory) (names : a.Names) (t : Table) :
    Synced format (a.add t).2 memory := by
  have hfresh := get?_fst_add names t
  intro x hx
  rw [dirty?_add names] at hx
  split at hx
  · cases hx
  · rename_i hne
    intro frame level i s hframe hlevel hs
    rw [frame?_add names, if_neg hne] at hframe
    rw [level?_add names, if_neg hne] at hlevel
    rw [slot?_add names, if_neg hne] at hs
    -- a child that is named in an entry is not the new table
    have hused : ∀ {α : Type} {f : Table → α} {c y}, (a.get? c).map f = some y → c ≠ (a.add t).1 := by
      rintro α f c y hy rfl
      rw [hfresh] at hy
      cases hy
    exact (h x hx hframe hlevel hs).mono
      (fun _ hf => by rw [frame?_add names, if_neg (hused hf)]; exact hf)
      fun _ hu => by rw [user?_add names, if_neg (hused hu)]; exact hu

/-- What is left of synced tables is synced, if nothing left names a table removed. -/
theorem Synced.pruned (h : Synced format a memory) {R : Set Nat} (hab : Pruned a R b)
    (closed : ∀ {p i c}, p ∉ R → a.slot? p i = some (.table c) → c ∉ R) :
    Synced format b memory := by
  intro x hx frame level i s hframe hlevel hs
  have hkeep := hab.not_mem_of_level hlevel
  rw [hab.frame hkeep] at hframe
  rw [hab.level hkeep] at hlevel
  rw [hab.slot hkeep] at hs
  have hdirty : a.dirty? x = some false := by rw [← hx, dirty?, dirty?, hab.kept hkeep]
  refine (h x hdirty hframe hlevel hs).mono (fun {c f} heq hf => ?_) fun {c u} heq hu => ?_
  · subst heq
    rwa [hab.frame (closed hkeep hs)]
  · subst heq
    rw [user?, hab.kept (closed hkeep hs)]
    exact hu

end Arena

theorem Edit.synced {format : Format} {request : MapRequest} {s s' : TableStore} {memory : Memory}
    (e : Edit format request s s') (names : s.arena.Names)
    (h : Arena.Synced format s.arena memory) : Arena.Synced format s'.arena memory := by
  cases e with
  | exhausted frames arena => rw [arena]; exact h
  | link piece depth_lt node slot unsealed frames arena =>
    rw [arena]; exact (h.add names _).put _ _ _
  | fill piece node slot was frames arena => rw [arena]; exact h.put _ _ _

theorem Edits.synced {format : Format} {kernel : TableId} {stock : Stock} {P : MapRequest → Prop}
    {s s' : TableStore} {memory : Memory} (e : Edits format P s s')
    (h : s.Orderly format kernel stock) (ready : AllReady format kernel P s)
    (hs : Arena.Synced format s.arena memory) : Arena.Synced format s'.arena memory :=
  relate (R := fun s s' => Arena.Synced format s.arena memory → Arena.Synced format s'.arena memory)
    (fun heq hs => by rw [heq.arena]; exact hs) (fun h h' hs => h' (h hs)) h ready
    (fun _ ho _ _ e => e.synced ho.ledger.books.names) e hs

namespace Arena

variable {format : Format} {kernel : TableId} {a b : Arena} {memory : Memory}

/-! ## Marks taken away -/

theorem Unmarked.names (h : Unmarked a b) (names : a.Names) : b.Names where
  nodup := by rw [h.vacant]; exact names.nodup
  vacant := fun id hid => by
    rw [h.vacant] at hid
    obtain ⟨hlt, hnone⟩ := names.vacant id hid
    exact ⟨by rw [h.size]; exact hlt, h.alike.get?_none_iff.mpr hnone⟩

/-- The ledger is kept as marks are taken away. -/
theorem Unmarked.ledger {stock : Stock} {frames : FrameAllocator} (h : Unmarked a b)
    (hl : Ledger stock frames a) (clean : ∀ id, b.dirty? id ≠ some true) :
    Ledger stock frames b where
  books :=
    { names := h.names hl.books.names
      find := by
        intro frame id
        rw [find?, h.byFrame, h.alike.frame]
        exact hl.books.find
      queued := fun {id} hd => absurd hd (clean id) }
  allocator := hl.allocator
  total := hl.total
  table := fun {id frame} hf => by rw [h.alike.frame] at hf; exact hl.table hf
  client := hl.client
  covered := by rw [tableFrames_congr h.alike.frame]; exact hl.covered

/-! ## Pages of tables -/

/-- The entries of a list of slots. -/
theorem mapM_eq_ok {α β ε : Type} {f : α → Except ε β} {g : α → β} :
    ∀ {xs : List α}, (∀ x ∈ xs, f x = .ok (g x)) → xs.mapM f = .ok (xs.map g) := by
  intro xs
  induction xs with
  | nil => intro _; rfl
  | cons x xs ih =>
    intro h
    rw [List.mapM_cons, h x List.mem_cons_self, ih fun y hy => h y (List.mem_cons_of_mem _ hy)]
    rfl

/-- A table whose slots name only tables in use is written as a page, which reads back as the
entries of the slots. -/
theorem exists_image {id : TableId} {t : Table} (ht : a.get? id = some t)
    (width : t.slots.size ≤ format.entries)
    (children : ∀ {i c : Nat}, t.slots[i]? = some (.table c) → ∃ below, a.get? c = some below) :
    ∃ page, a.image format id = .ok page ∧ ∀ {i : Nat} {s : Slot}, t.slots[i]? = some s →
      Encodes format a t.level s (page.entry format.entryBytes i) := by
  -- the entries, as a function of the slots; where there is a slot it is the right one
  let raw (s : Slot) : Nat := ((a.rawEntry format t.level s).toOption).getD 0
  have hraw : ∀ {i : Nat} {s : Slot}, t.slots[i]? = some s → Encodes format a t.level s (raw s)
      ∧ a.rawEntry format t.level s = .ok (raw s) := by
    intro i s hs
    have hchild : ∀ {c}, s = .table c → ∃ below, a.get? c = some below := by
      rintro c rfl
      exact children hs
    obtain ⟨n, hn⟩ : ∃ n, Encodes format a t.level s n := exists_encodes t.level hchild
    have heq : raw s = n := by simp only [raw, hn.rawEntry_eq]; rfl
    rw [heq]
    exact ⟨hn, hn.rawEntry_eq⟩
  have hmap : t.slots.mapM (a.rawEntry format t.level) = .ok (t.slots.map raw) := by
    rw [Array.mapM_eq_mapM_toList, mapM_eq_ok (g := raw)]
    · rw [← (t.slots.map raw).toArray_toList, Array.toList_map]
      rfl
    · intro s hs
      obtain ⟨i, hi⟩ := List.mem_iff_getElem?.mp hs
      exact (hraw (i := i) (by simpa using hi)).2
  refine ⟨Page.ofEntries format.entryBytes (t.slots.map raw), ?_, fun {i s} hs => ?_⟩
  · rw [image, table_eq_ok ht]
    simp only [bind, Except.bind, hmap]
    rfl
  · have hi : i < format.entries :=
      Nat.lt_of_lt_of_le (Array.getElem?_eq_some_iff.mp hs).1 width
    have hfit : i * format.entryBytes + format.entryBytes ≤ frameSize := by
      rw [← format.entries_mul_entryBytes, ← Nat.succ_mul]
      exact Nat.mul_le_mul_right _ hi
    have hentry : (t.slots.map raw).getD i 0 = raw s := by
      rw [Array.getD_eq_getD_getElem?, Array.getElem?_map, hs]
      rfl
    obtain ⟨hencodes, -⟩ := hraw hs
    rw [Page.entry_ofEntries _ hfit, hentry, Nat.mod_eq_of_lt hencodes.lt]
    exact hencodes

/-- In trees of the right shape every table is written as a page. -/
theorem image_spec (h : a.Shaped format kernel) {id level : Nat}
    (hl : a.level? id = some level) :
    ∃ page, a.image format id = .ok page ∧ ∀ {i s}, a.slot? id i = some s →
      Encodes format a level s (page.entry format.entryBytes i) := by
  obtain ⟨t, ht, rfl⟩ := exists_of_level? hl
  have hslots : ∀ {i : Nat} {s : Slot}, t.slots[i]? = some s → a.slot? id i = some s := by
    intro i s hs
    rw [slot?, ht]
    exact hs
  have hwidth := h.width hl
  simp only [width?, ht, Option.map_some, Option.some.injEq] at hwidth
  obtain ⟨page, himage, hpage⟩ := exists_image ht (Nat.le_of_eq hwidth) fun hs => by
    obtain ⟨l, -, hc⟩ := h.child (hslots hs)
    obtain ⟨below, hbelow, -⟩ := exists_of_level? hc
    exact ⟨below, hbelow⟩
  refine ⟨page, himage, fun hs => hpage ?_⟩
  rw [slot?, ht] at hs
  exact hs

/-- Frames at different addresses have different numbers. -/
theorem frame_ne {x y : Nat} (hx : x % frameSize = 0) (hy : y % frameSize = 0) (hne : x ≠ y) :
    PhysAddr.frame x ≠ PhysAddr.frame y := by
  intro heq
  have heq : x / frameSize = y / frameSize := heq
  simp only [frameSize] at *
  omega

/-! ## Writing the waiting tables -/

section

variable (books : a.Books) (aligned : ∀ {id frame : Nat}, a.frame? id = some frame → frame % frameSize = 0)
include books aligned

/-- The pages that go to the frame of a table are its own. -/
theorem eq_of_mem_writes {id frame : Nat} (hid : a.frame? id = some frame) {w : PhysAddr × Page}
    (hw : w ∈ a.writes format) (heq : w.1.frame = PhysAddr.frame frame) :
    id ∈ a.pending ∧ a.image format id = .ok w.2 := by
  obtain ⟨x, hx, hframe, himage⟩ := mem_writes_iff.mp hw
  have hsame : w.1 = frame := by
    by_contra hne
    exact frame_ne (aligned hframe) (aligned hid) hne heq
  rw [hsame] at hframe
  cases books.frame_inj hframe hid
  exact ⟨hx, himage⟩

/-- A table that waits is in its frame afterwards. -/
theorem read_writes {id frame : Nat} (hid : a.frame? id = some frame) (waits : id ∈ a.pending)
    {page : Page} (himage : a.image format id = .ok page) :
    (memory.writeAll (a.writes format)).read frame = page := by
  refine Memory.read_writeAll ⟨(frame, page), mem_writes_iff.mpr ⟨id, waits, hid, himage⟩, rfl⟩
    (fun w hw heq => ?_) memory
  have hpage := (eq_of_mem_writes books aligned hid hw heq).2
  rw [himage] at hpage
  exact (Except.ok.inj hpage).symm

/-- The frame of a table that does not wait is left alone. -/
theorem read_writes_other {id frame : Nat} (hid : a.frame? id = some frame) (not : id ∉ a.pending) :
    (memory.writeAll (a.writes format)).read frame = memory.read frame :=
  Memory.read_writeAll_other
    (fun _ hw heq => not (eq_of_mem_writes books aligned hid hw heq).1) memory

end

theorem unmarked_commit {count : Nat} {memory' : Memory}
    (e : a.commit format memory = .ok (count, b, memory')) : Unmarked a b := by
  obtain ⟨-, heq⟩ := commit_eq_ok_iff.mp e
  cases heq
  exact (unmarked_clearPending a).trans (unmarked_unmarkAll _ _)

/-- Nothing waits afterwards. -/
theorem pending_commit {count : Nat} {memory' : Memory}
    (e : a.commit format memory = .ok (count, b, memory')) : b.pending = #[] := by
  obtain ⟨-, heq⟩ := commit_eq_ok_iff.mp e
  cases heq
  rw [pending_unmarkAll]
  rfl

/-- The tables that waited are marked no more. -/
theorem dirty?_commit {count : Nat} {memory' : Memory}
    (e : a.commit format memory = .ok (count, b, memory')) (id : TableId) :
    b.dirty? id = if id ∈ a.pending then (a.dirty? id).map fun _ => false else a.dirty? id := by
  obtain ⟨-, heq⟩ := commit_eq_ok_iff.mp e
  cases heq
  rw [dirty?_unmarkAll]
  simp only [Array.mem_toList_iff]
  rfl

/-- In trees of the right shape every table can be written. -/
theorem writable_of_shaped (h : a.Shaped format kernel)
    (aligned : ∀ {id frame : Nat}, a.frame? id = some frame → frame % frameSize = 0)
    (id : TableId) : a.Writable format id := by
  intro t ht
  obtain ⟨page, himage, -⟩ := image_spec h (show a.level? id = some t.level by rw [level?, ht]; rfl)
  exact ⟨⟨page, himage⟩, aligned (frame?_of_get? ht)⟩

/-- Writing the waiting tables settles all of them. -/
theorem commit_settled (h : a.Shaped format kernel) {stock : Stock} {frames : FrameAllocator}
    (ledger : Ledger stock frames a) (synced : Synced format a memory) :
    ∃ count b memory', a.commit format memory = .ok (count, b, memory')
      ∧ Unmarked a b ∧ Settled format b memory' := by
  have aligned : ∀ {id frame : Nat}, a.frame? id = some frame → frame % frameSize = 0 :=
    fun hf => (ledger.table hf).1
  have e := commit_of_writable (fun id _ => writable_of_shaped h aligned id) memory
  have hunmarked := unmarked_commit e
  refine ⟨_, _, _, e, hunmarked, fun id hd => ?_, fun id hd frame level i s hframe hlevel hs => ?_⟩
  · rw [dirty?_commit e] at hd
    split at hd
    · cases hold : a.dirty? id with
      | none => rw [hold] at hd; cases hd
      | some dirty => rw [hold] at hd; cases hd
    · exact absurd (ledger.books.queued hd) ‹_›
  · have hview := hunmarked.alike
    rw [hview.frame] at hframe
    rw [hview.level] at hlevel
    rw [hview.slot] at hs
    refine Encodes.mono (a := a) ?_ (fun _ hf => by rwa [hview.frame]) fun _ hu => by rwa [hview.user]
    by_cases hwaits : id ∈ a.pending
    · obtain ⟨page, himage, hpage⟩ := image_spec h hlevel
      rw [read_writes ledger.books aligned hframe hwaits himage]
      exact hpage hs
    · -- it was in memory before, and nothing was written to its frame
      rw [dirty?_commit e, if_neg hwaits] at hd
      rw [read_writes_other ledger.books aligned hframe hwaits]
      exact synced id hd hframe hlevel hs

/-! ## Writing what is written already -/

/-- The frame of a table that is in memory as it stands holds its image. -/
theorem Written.image_eq (h : a.Shaped format kernel) {id frame level : Nat}
    (hw : Written format a memory id) (hf : a.frame? id = some frame)
    (hl : a.level? id = some level) {page : Page} (himage : a.image format id = .ok page) :
    page = memory.read frame := by
  obtain ⟨page', himage', hpage⟩ := image_spec h hl
  rw [himage] at himage'
  injection himage' with himage'
  subst himage'
  apply Page.eq_of_entry format.entries_mul_entryBytes
  intro i hi
  -- both entries stand for the same slot
  obtain ⟨s, hs⟩ := h.regular.exists_slot hl hi
  have hread := (hw hf hl hs).rawEntry_eq
  rw [(hpage hs).rawEntry_eq] at hread
  injection hread

/-- Writing tables that memory agrees with leaves the tables and all of memory as they are. -/
theorem commit_again (h : a.Shaped format kernel) (settled : Settled format a memory)
    {count : Nat} {memory' : Memory} (e : a.commit format memory = .ok (count, b, memory')) :
    (∀ id, b.get? id = a.get? id) ∧ ∀ address, memory'.read address = memory.read address := by
  obtain ⟨-, heq⟩ := commit_eq_ok_iff.mp e
  cases heq
  refine ⟨fun id => ?_, Memory.read_writeAll_self fun w hw => ?_⟩
  · rw [get?_unmarkAll]
    split
    · -- there is no mark to take away
      show (a.get? id).map _ = a.get? id
      cases hid : a.get? id with
      | none => rfl
      | some t =>
        have hclean : t.dirty = false := by
          have hnot := settled.clean id
          rw [dirty?, hid] at hnot
          simpa using hnot
        rw [Option.map_some, ← hclean]
    · rfl
  · obtain ⟨id, -, hframe, himage⟩ := mem_writes_iff.mp hw
    obtain ⟨t, ht, -⟩ := Option.map_eq_some_iff.mp hframe
    have hlevel : a.level? id = some t.level := by rw [level?, ht]; rfl
    exact Written.image_eq h (settled.written hlevel) hframe hlevel himage

/-- Where nothing waits, nothing is done. -/
theorem commit_of_pending (h : a.pending = #[]) : a.commit format memory = .ok (0, a, memory) := by
  have hclear : a.clearPending = a := by
    rw [clearPending, ← h]
  rw [commit, h, hclear]
  rfl

end Arena

end KernelMemory
