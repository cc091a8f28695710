/-
  KernelMemory.Proofs.Boot.Validation — which lists of records are boot maps.

  A list is refused for the first of four reasons that applies, and no other list is refused.  A
  reason is said by the places of end markers and of records that start below the one before
  them.

  Main results:
    * `exists_ofRecords_iff` — what is accepted;
    * `ofRecords_eq_error_iff` — what is refused, and what for;
    * `checkedProblem_eq` — counting the records does not overflow.
-/

import Mathlib.Order.Bounds.Defs
import KernelMemory.BootMap.Checked
import KernelMemory.Proofs.Boot.Regions
import KernelMemory.Proofs.Frames.Checked

namespace KernelMemory

namespace BootMap

variable {records : List BootRecord} {map : BootMap}

/-! ## What is accepted and refused -/

/-- The record at `index` is an end marker. -/
def EndsAt (records : List BootRecord) (index : Nat) : Prop :=
  ∃ record, records[index]? = some record ∧ record.kind = .endMarker

/-- The record after the one at `index` starts below it. -/
def DescendsAfter (records : List BootRecord) (index : Nat) : Prop :=
  ∃ a b, records[index]? = some a ∧ records[index + 1]? = some b ∧ b.base < a.base

/-- What makes a list of records a map: the last record, and no other, is an end marker, and
bases do not descend. -/
structure Accepted (records : List BootRecord) : Prop where
  nonempty : records ≠ []
  closed : ∀ index, EndsAt records index ↔ index + 1 = records.length
  sorted : records.Pairwise fun a b => a.base ≤ b.base

/-- What a list of records is refused for.  No two of the conditions hold of the same list. -/
inductive Refused (records : List BootRecord) : BootMapError → Prop where
  | empty (none : records = []) : Refused records .empty
  | recordAfterEnd {index : Nat} (first : IsLeast {i | EndsAt records i} index)
      (follows : index + 1 < records.length) : Refused records (.recordAfterEnd (index + 1))
  | missingEndMarker (nonempty : records ≠ []) (none : ∀ index, ¬ EndsAt records index) :
      Refused records .missingEndMarker
  | unordered {index : Nat} (nonempty : records ≠ [])
      (closed : ∀ i, EndsAt records i ↔ i + 1 = records.length)
      (first : IsLeast {i | DescendsAfter records i} index) :
      Refused records (.unordered (index + 1))

/-! ## Searches -/

/-- Searches for an end marker before the last record. -/
theorem findIdx?_dropLast_eq_some_iff {index : Nat} :
    records.dropLast.findIdx? (fun record => record.kind == .endMarker) = some index
      ↔ IsLeast {i | EndsAt records i} index ∧ index + 1 < records.length := by
  rw [List.findIdx?_eq_some_iff_getElem]
  constructor
  · rintro ⟨hindex, hkind, hfirst⟩
    rw [List.length_dropLast] at hindex
    rw [List.getElem_dropLast] at hkind
    refine ⟨⟨⟨_, List.getElem?_eq_getElem (by omega), by simpa using hkind⟩, ?_⟩, by omega⟩
    rintro i ⟨record, hi, hend⟩
    by_contra hlt
    obtain ⟨hlen, rfl⟩ := List.getElem?_eq_some_iff.mp hi
    have hopen := hfirst i (by omega)
    rw [List.getElem_dropLast] at hopen
    exact hopen (by simpa using hend)
  · rintro ⟨⟨⟨record, hrecord, hend⟩, hfirst⟩, hfollows⟩
    obtain ⟨hlen, rfl⟩ := List.getElem?_eq_some_iff.mp hrecord
    refine ⟨by rw [List.length_dropLast]; omega, by simpa using hend, fun j hj hmark => ?_⟩
    have hle := hfirst ⟨records[j], List.getElem?_eq_getElem (by omega), by simpa using hmark⟩
    omega

/-- No end marker is found before the last record. -/
theorem findIdx?_dropLast_eq_none_iff :
    records.dropLast.findIdx? (fun record => record.kind == .endMarker) = none
      ↔ ∀ index, EndsAt records index → index + 1 = records.length := by
  rw [List.findIdx?_eq_none_iff]
  constructor
  · rintro hopen index ⟨record, hrecord, hend⟩
    obtain ⟨hlen, rfl⟩ := List.getElem?_eq_some_iff.mp hrecord
    by_contra hne
    have hbody : index < records.dropLast.length := by rw [List.length_dropLast]; omega
    have hnot := hopen _ (List.getElem_mem hbody)
    rw [List.getElem_dropLast] at hnot
    simp [hend] at hnot
  · intro honly record hrecord
    obtain ⟨index, hindex, rfl⟩ := List.getElem_of_mem hrecord
    rw [List.length_dropLast] at hindex
    rw [List.getElem_dropLast]
    by_contra hmark
    have := honly index ⟨_, List.getElem?_eq_getElem (by omega), by simpa using hmark⟩
    omega

/-- The search for a descent is one over pairs of neighbours. -/
theorem firstDescent_eq (records : List BootRecord) (index : Nat) :
    firstDescent index records
      = ((records.zip records.tail).findIdx? descends).map (· + index + 1) := by
  induction records generalizing index with
  | nil => rfl
  | cons a rest ih =>
    cases rest with
    | nil => rfl
    | cons b rest =>
      show firstDescent index (a :: b :: rest)
        = (((a, b) :: (b :: rest).zip rest).findIdx? descends).map (· + index + 1)
      rw [firstDescent, List.findIdx?_cons]
      by_cases h : b.base < a.base
      · have hdescends : descends (a, b) = true := decide_eq_true h
        rw [if_pos h, if_pos hdescends, Option.map_some, Nat.zero_add]
      · have hdescends : ¬ descends (a, b) = true := by simpa [descends] using h
        rw [if_neg h, if_neg hdescends, ih, Option.map_map]
        show _ = Option.map _ (((b :: rest).zip (b :: rest).tail).findIdx? descends)
        congr 1
        funext i
        show i + (index + 1) + 1 = i + 1 + index + 1
        omega

theorem descends_zip_iff {i : Nat} (hi : i < (records.zip records.tail).length) :
    descends (records.zip records.tail)[i] = true ↔ DescendsAfter records i := by
  have hlen : i + 1 < records.length := by
    rw [List.length_zip, List.length_tail] at hi
    omega
  have hbefore : i < records.length := Nat.lt_of_succ_lt hlen
  have hpair : (records.zip records.tail)[i] = (records[i], records[i + 1]) := by
    rw [List.getElem_zip, List.getElem_tail]
  rw [hpair, descends, decide_eq_true_iff]
  constructor
  · intro hlt
    exact ⟨_, _, List.getElem?_eq_getElem (by omega), List.getElem?_eq_getElem hlen, hlt⟩
  · rintro ⟨a, b, ha, hb, hlt⟩
    obtain ⟨_, rfl⟩ := List.getElem?_eq_some_iff.mp ha
    obtain ⟨_, rfl⟩ := List.getElem?_eq_some_iff.mp hb
    exact hlt

theorem lt_length_of_descendsAfter {i : Nat} (h : DescendsAfter records i) :
    i < (records.zip records.tail).length := by
  obtain ⟨a, b, -, hb, -⟩ := h
  obtain ⟨hlen, -⟩ := List.getElem?_eq_some_iff.mp hb
  rw [List.length_zip, List.length_tail]
  omega

/-- Where the records first descend. -/
theorem firstDescent_eq_some_iff {k : Nat} : firstDescent 0 records = some k
    ↔ ∃ index, IsLeast {i | DescendsAfter records i} index ∧ k = index + 1 := by
  rw [firstDescent_eq, Option.map_eq_some_iff]
  refine exists_congr fun index => ?_
  rw [List.findIdx?_eq_some_iff_getElem, eq_comm, Nat.add_zero]
  refine and_congr_left fun _ => ⟨?_, ?_⟩
  · rintro ⟨hindex, hdescends, hfirst⟩
    refine ⟨(descends_zip_iff hindex).mp hdescends, fun i hi => ?_⟩
    by_contra hlt
    have hbefore := hfirst i (by omega)
    exact hbefore ((descends_zip_iff (lt_length_of_descendsAfter hi)).mpr hi)
  · rintro ⟨hdescends, hfirst⟩
    have hindex := lt_length_of_descendsAfter hdescends
    refine ⟨hindex, (descends_zip_iff hindex).mpr hdescends, fun j hj hmark => ?_⟩
    have hle := hfirst ((descends_zip_iff (by omega)).mp hmark)
    omega

theorem firstDescent_of_sorted (h : records.Pairwise fun a b => a.base ≤ b.base) :
    firstDescent 0 records = none := by
  rw [Option.eq_none_iff_forall_ne_some]
  intro k hk
  obtain ⟨index, ⟨⟨a, b, ha, hb, hlt⟩, -⟩, -⟩ := firstDescent_eq_some_iff.mp hk
  obtain ⟨hlen, rfl⟩ := List.getElem?_eq_some_iff.mp ha
  obtain ⟨hnext, rfl⟩ := List.getElem?_eq_some_iff.mp hb
  have hle := List.pairwise_iff_getElem.mp h index (index + 1) hlen hnext (by omega)
  omega

/-- The last record is an end marker where its index is one of those that are. -/
theorem kind_getLast_iff {last : BootRecord} (hlast : records.getLast? = some last) :
    last.kind = .endMarker ↔ EndsAt records (records.length - 1) := by
  rw [List.getLast?_eq_getElem?] at hlast
  constructor
  · exact fun hkind => ⟨last, hlast, hkind⟩
  · rintro ⟨record, hrecord, hkind⟩
    rw [hlast] at hrecord
    cases hrecord
    exact hkind

/-! ## Verdicts -/

/-- A list of records with nothing wrong is a map. -/
theorem accepted_of_problem (h : problem records = none) : Accepted records := by
  unfold problem at h
  split at h
  · cases h
  · rename_i last hlast
    have hne : records ≠ [] := by
      rintro rfl
      cases hlast
    split at h
    · cases h
    · rename_i hbody
      split at h
      · rename_i hkind
        refine ⟨hne, fun index => ⟨findIdx?_dropLast_eq_none_iff.mp hbody index, fun hindex => ?_⟩,
          pairwise_of_firstDescent (Option.map_eq_none_iff.mp h)⟩
        rw [show index = records.length - 1 by omega]
        exact (kind_getLast_iff hlast).mp hkind
      · cases h

/-- What is reported is a reason for which the list is refused. -/
theorem refused_of_problem {error : BootMapError} (h : problem records = some error) :
    Refused records error := by
  unfold problem at h
  split at h
  · rename_i hlast
    cases h
    exact .empty (List.getLast?_eq_none_iff.mp hlast)
  · rename_i last hlast
    have hne : records ≠ [] := by
      rintro rfl
      cases hlast
    split at h
    · rename_i index hindex
      obtain ⟨hfirst, hfollows⟩ := findIdx?_dropLast_eq_some_iff.mp hindex
      cases h
      exact .recordAfterEnd hfirst hfollows
    · rename_i hbody
      have honly := findIdx?_dropLast_eq_none_iff.mp hbody
      split at h
      · rename_i hkind
        obtain ⟨k, hk, rfl⟩ := Option.map_eq_some_iff.mp h
        obtain ⟨index, hfirst, rfl⟩ := firstDescent_eq_some_iff.mp hk
        refine .unordered hne (fun i => ⟨honly i, fun hi => ?_⟩) hfirst
        rw [show i = records.length - 1 by omega]
        exact (kind_getLast_iff hlast).mp hkind
      · rename_i hkind
        cases h
        refine .missingEndMarker hne fun index hends => hkind ((kind_getLast_iff hlast).mpr ?_)
        have hindex := honly index hends
        rwa [show records.length - 1 = index by omega]

theorem exists_getLast? (h : records ≠ []) : ∃ last, records.getLast? = some last :=
  ⟨_, List.getLast?_eq_some_getLast h⟩

/-- A map has nothing wrong. -/
theorem Accepted.problem_eq (h : Accepted records) : problem records = none := by
  obtain ⟨last, hlast⟩ := exists_getLast? h.nonempty
  have hpos := List.length_pos_iff.mpr h.nonempty
  have hbody := findIdx?_dropLast_eq_none_iff.mpr fun index => (h.closed index).mp
  have hkind := (kind_getLast_iff hlast).mpr ((h.closed _).mpr (by omega))
  simp only [problem, hlast, hbody, if_pos hkind, firstDescent_of_sorted h.sorted, Option.map_none]

/-- A list that is refused for a reason has that reason reported. -/
theorem Refused.problem_eq {error : BootMapError} (h : Refused records error) :
    problem records = some error := by
  cases h with
  | empty none =>
    rw [none]
    rfl
  | recordAfterEnd first follows =>
    have hne : records ≠ [] := by
      rintro rfl
      cases follows
    obtain ⟨last, hlast⟩ := exists_getLast? hne
    simp only [problem, hlast, findIdx?_dropLast_eq_some_iff.mpr ⟨first, follows⟩]
  | missingEndMarker nonempty none =>
    obtain ⟨last, hlast⟩ := exists_getLast? nonempty
    have hbody := findIdx?_dropLast_eq_none_iff.mpr fun index hends => absurd hends (none index)
    have hkind := mt (kind_getLast_iff hlast).mp (none _)
    simp only [problem, hlast, hbody, if_neg hkind]
  | @unordered index nonempty closed first =>
    obtain ⟨last, hlast⟩ := exists_getLast? nonempty
    have hpos := List.length_pos_iff.mpr nonempty
    have hbody := findIdx?_dropLast_eq_none_iff.mpr fun index => (closed index).mp
    have hkind := (kind_getLast_iff hlast).mpr ((closed _).mpr (by omega))
    have hdescent := firstDescent_eq_some_iff.mpr ⟨index, first, rfl⟩
    simp only [problem, hlast, hbody, if_pos hkind, hdescent, Option.map_some]

/-- Which lists are accepted. -/
theorem exists_ofRecords_iff :
    (∃ map, ofRecords records = .ok map) ↔ Accepted records := by
  constructor
  · rintro ⟨map, hmap⟩
    unfold ofRecords at hmap
    split at hmap
    · rename_i hproblem
      exact accepted_of_problem hproblem
    · cases hmap
  · exact fun h => ⟨_, ofRecords_eq_ok h.problem_eq⟩

/-- Which lists are refused, and what for. -/
theorem ofRecords_eq_error_iff {error : BootMapError} :
    ofRecords records = .error error ↔ Refused records error := by
  constructor
  · intro h
    unfold ofRecords at h
    split at h
    · cases h
    · rename_i reported hproblem
      cases h
      exact refused_of_problem hproblem
  · intro h
    unfold ofRecords
    split
    · rename_i hproblem
      rw [h.problem_eq] at hproblem
      cases hproblem
    · rename_i reported hproblem
      rw [h.problem_eq] at hproblem
      cases hproblem
      rfl

/-- A map has the records it was made of. -/
theorem records_of_ofRecords (h : ofRecords records = .ok map) : map.records = records := by
  unfold ofRecords at h
  split at h
  · cases h
    rfl
  · cases h

/-! ## Counting -/

/-- A search counts no further than there are items. -/
theorem checkedPosition_eq {α : Type} (test : α → Bool) {items : List α} {index : Nat}
    (h : index + items.length < Word.bound) :
    checkedPosition test items index = .ok ((items.findIdx? test).map (· + index)) := by
  induction items generalizing index with
  | nil => rfl
  | cons item rest ih =>
    rw [List.length_cons] at h
    rw [checkedPosition, List.findIdx?_cons]
    split
    · rw [Option.map_some, Nat.zero_add]
    · rw [Word.add_eq (by omega), ok_bind, ih (by omega), Option.map_map]
      congr 2
      funext i
      show i + (index + 1) = i + 1 + index
      omega

/-- Validation does not fail on a list whose length is a word. -/
theorem checkedProblem_eq (hlength : records.length < Word.bound) :
    checkedProblem records = .ok (problem records) := by
  unfold checkedProblem problem
  cases hlast : records.getLast? with
  | none => rfl
  | some last =>
    have hbody : 0 + records.dropLast.length < Word.bound := by
      rw [List.length_dropLast]
      omega
    have hpairs : 0 + (records.zip records.tail).length < Word.bound := by
      rw [List.length_zip]
      omega
    simp only [checkedPosition_eq _ hbody, ok_bind]
    cases hmark : records.dropLast.findIdx? fun record => record.kind == .endMarker with
    | some index =>
      have hindex := (findIdx?_dropLast_eq_some_iff.mp hmark).2
      simp only [Option.map_some, Nat.add_zero, Word.add_eq (show index + 1 < Word.bound by omega),
        ok_bind]
      rfl
    | none =>
      simp only [Option.map_none]
      split
      · rw [checkedPosition_eq _ hpairs, ok_bind, firstDescent_eq]
        cases hdescent : (records.zip records.tail).findIdx? descends with
        | none => rfl
        | some index =>
          obtain ⟨hindex, -⟩ := List.findIdx?_eq_some_iff_getElem.mp hdescent
          simp only [Option.map_some, Nat.add_zero,
            Word.add_eq (show index + 1 < Word.bound by omega), ok_bind]
          rfl
      · rfl

end BootMap

end KernelMemory
