import TestFocus.Proofs.Trace.Collection

namespace TestFocus.Candidates

def addAll (added : List Sighting) : Candidates :=
  added.foldl add .empty

def mutatorDistances (added : List Sighting) : Set Nat :=
  { d | ∃ name, ⟨.mutator, name, d⟩ ∈ added }

def unscannedDistances (added : List Sighting) (name : String) : Set Nat :=
  { d | ⟨.unscanned, name, d⟩ ∈ added }

variable {c : Candidates} {seen : Set Sighting} {added added' : List Sighting}

-- One addition after the other, whatever has been seen before.
theorem Collects.foldl_add (h : Collects c seen) (added : List Sighting) :
    Collects (added.foldl Candidates.add c) { s | s ∈ added ∨ s ∈ seen } := by
  induction added generalizing c seen with
  | nil => simpa using h
  | cons first rest ih =>
    have hset :
        { s | s ∈ first :: rest ∨ s ∈ seen } = { s | s ∈ rest ∨ s ∈ insert first seen } := by
      ext s
      simp only [List.mem_cons, Set.mem_ofPred_eq, Set.mem_insert_iff, or_assoc, or_left_comm]
    rw [List.foldl_cons, hset]
    exact ih (h.add first)

theorem collects_addAll (added : List Sighting) : Collects (addAll added) { s | s ∈ added } := by
  simpa [addAll] using collects_empty.foldl_add added

theorem noneNearer_iff_isLeast (d : Nat) :
    NoneNearer { s | s ∈ added } d ↔ ∀ m, IsLeast (mutatorDistances added) m → d ≤ m := by
  constructor
  · rintro hnearer m ⟨⟨name, hadded⟩, -⟩
    exact hnearer name m hadded
  · intro hleast name nearest hadded
    obtain ⟨m, hm, hisLeast⟩ := exists_isLeast_le (s := mutatorDistances added) ⟨name, hadded⟩
    exact (hleast m hisLeast).trans hm

theorem isLeast_mutatorDistances_iff {name : String} {d : Nat}
    (hadded : ⟨.mutator, name, d⟩ ∈ added) :
    IsLeast (mutatorDistances added) d ↔ NoneNearer { s | s ∈ added } d := by
  constructor
  · rintro ⟨-, hlower⟩ other nearest hother
    exact hlower ⟨other, hother⟩
  · intro hnearer
    exact ⟨⟨name, hadded⟩, fun nearest ⟨other, hother⟩ => hnearer other nearest hother⟩

-- What is selected, by the least distances.
theorem selected_iff_isLeast (name : String) :
    Selected { s | s ∈ added } name ↔
      (∃ m, IsLeast (mutatorDistances added) m ∧ ⟨.mutator, name, m⟩ ∈ added) ∨
      (∃ d, IsLeast (unscannedDistances added name) d ∧
        ∀ m, IsLeast (mutatorDistances added) m → d ≤ m) ∨
      mutatorDistances added = ∅ ∧ ∃ d, ⟨.provisional, name, d⟩ ∈ added := by
  refine or_congr ?mutator (or_congr ?unscanned (and_congr ?provisional Iff.rfl))
  case mutator =>
    refine exists_congr fun d => ?_
    rw [and_comm (a := IsLeast _ _)]
    exact and_congr_right fun hadded => (isLeast_mutatorDistances_iff hadded).symm
  case unscanned =>
    simp only [noneNearer_iff_isLeast]
    constructor
    · rintro ⟨d, hadded, hmutators⟩
      obtain ⟨e, he, hisLeast⟩ := exists_isLeast_le (s := unscannedDistances added name) hadded
      exact ⟨e, hisLeast, fun m hm => he.trans (hmutators m hm)⟩
    · rintro ⟨d, ⟨hadded, -⟩, hmutators⟩
      exact ⟨d, hadded, hmutators⟩
  case provisional =>
    rw [Set.eq_empty_iff_forall_notMem]
    constructor
    · rintro hnone d ⟨other, hadded⟩
      exact hnone other d hadded
    · intro hnone other d hadded
      exact hnone d ⟨other, hadded⟩

theorem mem_focalMethods_addAll (name : String) :
    name ∈ (addAll added).focalMethods ↔ Selected { s | s ∈ added } name :=
  (collects_addAll added).mem_focalMethods name

-- Neither the order of the additions nor their repetition matters.
theorem focalMethods_addAll_congr (h : ∀ s, s ∈ added ↔ s ∈ added') :
    (addAll added).focalMethods = (addAll added').focalMethods := by
  have hset : { s | s ∈ added } = { s | s ∈ added' } := Set.ext h
  have hmem (name : String) :
      name ∈ (addAll added).focalMethods ↔ name ∈ (addAll added').focalMethods := by
    rw [mem_focalMethods_addAll, mem_focalMethods_addAll, hset]
  exact eq_of_pairwise_lt (pairwise_sortedNames _) (pairwise_sortedNames _) hmem

-- What comes out of any additions: the mutators at the least distance of any, the functions without
-- a body whose least distance is not beyond it, and the uncertain ones if there is no mutator.
theorem focalMethods_addAll (added : List Sighting) :
    (addAll added).focalMethods.Pairwise (· < ·) ∧
    (∀ name, name ∈ (addAll added).focalMethods ↔
      (∃ m, IsLeast (mutatorDistances added) m ∧ ⟨.mutator, name, m⟩ ∈ added) ∨
      (∃ d, IsLeast (unscannedDistances added name) d ∧
        ∀ m, IsLeast (mutatorDistances added) m → d ≤ m) ∨
      mutatorDistances added = ∅ ∧ ∃ d, ⟨.provisional, name, d⟩ ∈ added) ∧
    ∀ added', added'.Perm added → (addAll added').focalMethods = (addAll added).focalMethods := by
  refine ⟨pairwise_sortedNames _, fun name => ?_, fun added' hperm => ?_⟩
  · rw [mem_focalMethods_addAll, selected_iff_isLeast]
  · exact focalMethods_addAll_congr fun s => hperm.mem_iff

-- The nearest mutator is added between others, and a function without a body twice.
def mixedAdditions : List Sighting :=
  [⟨.unscanned, "@far_opaque", 9⟩, ⟨.mutator, "@far", 7⟩, ⟨.unscanned, "@close_opaque", 8⟩,
    ⟨.mutator, "@near", 3⟩, ⟨.mutator, "@late", 5⟩, ⟨.provisional, "@maybe", 1⟩,
    ⟨.unscanned, "@close_opaque", 2⟩, ⟨.mutator, "@near_too", 3⟩]

theorem focalMethods_addAll_mixedAdditions :
    (addAll mixedAdditions.reverse).focalMethods = (addAll mixedAdditions).focalMethods ∧
      (addAll mixedAdditions).focalMethods = sortedNames ["@near", "@near_too", "@close_opaque"] :=
  ⟨(focalMethods_addAll mixedAdditions).2.2 _ (List.reverse_perm _), rfl⟩

end TestFocus.Candidates
