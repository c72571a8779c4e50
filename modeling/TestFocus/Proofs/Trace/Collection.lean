import Mathlib.Data.String.Basic
import Mathlib.Order.Bounds.Basic
import Mathlib.Order.Nat
import TestFocus.Proofs.Table
import TestFocus.Trace.Candidates

namespace TestFocus

section SortedNames

theorem mem_sortedNames {names : List String} {name : String} :
    name ∈ sortedNames names ↔ name ∈ names := by
  rw [sortedNames, List.mem_mergeSort, List.mem_eraseDups]

theorem nodup_eraseDups (names : List String) : names.eraseDups.Nodup := by
  induction hlength : names.length using Nat.strong_induction_on generalizing names with
  | _ length ih =>
    cases names with
    | nil => simp
    | cons name names =>
      rw [List.eraseDups_cons, List.nodup_cons]
      have hle := List.length_filter_le (fun other => !other == name) names
      rw [List.length_cons] at hlength
      exact ⟨by simp [List.mem_eraseDups], ih _ (by omega) _ rfl⟩

-- Sorting a list without repetitions makes it strictly ascending.
theorem pairwise_mergeSort_of_nodup {names : List String} (h : names.Nodup) :
    names.mergeSort.Pairwise (· < ·) := by
  have hsorted : names.mergeSort.Pairwise fun a b => decide (a ≤ b) = true := by
    apply List.pairwise_mergeSort
    · intro a b c
      simpa using le_trans
    · intro a b
      simpa using le_total a b
  have hnodup : names.mergeSort.Nodup := (List.mergeSort_perm _ _).nodup_iff.mpr h
  refine (hsorted.and hnodup).imp ?_
  rintro a b ⟨hle, hne⟩
  exact lt_of_le_of_ne (of_decide_eq_true hle) hne

theorem pairwise_sortedNames (names : List String) : (sortedNames names).Pairwise (· < ·) :=
  pairwise_mergeSort_of_nodup (nodup_eraseDups names)

-- Ascending lists with the same members are the same.
theorem eq_of_pairwise_lt {names names' : List String} (h : names.Pairwise (· < ·))
    (h' : names'.Pairwise (· < ·)) (hmem : ∀ name, name ∈ names ↔ name ∈ names') :
    names = names' := by
  have hperm := (List.perm_ext_iff_of_nodup (h.imp ne_of_lt) (h'.imp ne_of_lt)).mpr hmem
  exact hperm.eq_of_pairwise (fun a b _ _ hab hba => absurd hba (lt_asymm hab)) h h'

end SortedNames

theorem exists_isLeast_le {s : Set Nat} {n : Nat} (h : n ∈ s) : ∃ d ≤ n, IsLeast s d := by
  classical
  have hleast := (Set.nonempty_of_mem h).isLeast_natFind
  exact ⟨_, hleast.2 h, hleast⟩

-- The least member of a set, if there is one.
def IsLeastOf (s : Set Nat) (least : Option Nat) : Prop :=
  ∀ d, least = some d ↔ IsLeast s d

namespace IsLeastOf

variable {s : Set Nat} {least : Option Nat}

theorem of_isLeast {d : Nat} (h : IsLeast s d) : IsLeastOf s (some d) := by
  intro e
  constructor
  · rintro ⟨⟩
    exact h
  · intro he
    rw [h.unique he]

theorem eq_none_iff (h : IsLeastOf s least) : least = none ↔ s = ∅ := by
  constructor
  · rintro rfl
    apply Set.eq_empty_of_forall_notMem
    intro n hn
    obtain ⟨d, -, hd⟩ := exists_isLeast_le hn
    cases (h d).mpr hd
  · rintro rfl
    cases hleast : least with
    | none => rfl
    | some d => exact absurd ((h d).mp hleast).1 (Set.notMem_empty d)

theorem insert (h : IsLeastOf s least) (d : Nat) :
    IsLeastOf (Insert.insert d s) (some (min d (least.getD d))) := by
  apply of_isLeast
  cases hleast : least with
  | none =>
    rw [h.eq_none_iff.mp hleast]
    simp
  | some e => exact ((h e).mp hleast).insert d

end IsLeastOf

-- As what a function can be a candidate.
inductive Role where
  | mutator
  | unscanned
  | provisional

-- A function seen on the way back, in a role and at a distance.
structure Sighting where
  role : Role
  name : String
  distance : Nat

namespace Candidates

def add (c : Candidates) (s : Sighting) : Candidates :=
  match s.role with
  | .mutator => c.addMutator s.name s.distance
  | .unscanned => c.addUnscanned s.name s.distance
  | .provisional => c.addProvisional s.name

-- A function may be seen in no role.
def note (c : Candidates) (role : Option Role) (name : String) (distance : Nat) : Candidates :=
  match role with
  | some role => c.add ⟨role, name, distance⟩
  | none => c

theorem reaches_eq_false_of_le {c : Candidates} {m n : Nat} (h : c.reaches m = false)
    (hle : m ≤ n) : c.reaches n = false := by
  unfold reaches at h ⊢
  cases hcutoff : c.cutoff with
  | none => simp [hcutoff] at h
  | some nearest =>
    simp only [hcutoff, Option.all_some, decide_eq_false_iff_not] at h ⊢
    omega

-- No mutator was seen nearer than this.
def NoneNearer (seen : Set Sighting) (distance : Nat) : Prop :=
  ∀ name nearest, ⟨.mutator, name, nearest⟩ ∈ seen → distance ≤ nearest

-- What comes out: the nearest mutators, the functions without a body that are not behind them, and
-- the uncertain ones if there is no mutator.
def Selected (seen : Set Sighting) (name : String) : Prop :=
  (∃ d, ⟨.mutator, name, d⟩ ∈ seen ∧ NoneNearer seen d) ∨
  (∃ d, ⟨.unscanned, name, d⟩ ∈ seen ∧ NoneNearer seen d) ∨
  (∀ other d, ⟨.mutator, other, d⟩ ∉ seen) ∧ ∃ d, ⟨.provisional, name, d⟩ ∈ seen

theorem Selected.exists_mem {seen : Set Sighting} {name : String} (h : Selected seen name) :
    ∃ x ∈ seen, x.name = name := by
  rcases h with ⟨d, hseen, -⟩ | ⟨d, hseen, -⟩ | ⟨-, d, hseen⟩ <;> exact ⟨_, hseen, rfl⟩

-- The candidates hold what was seen.
structure Collects (c : Candidates) (seen : Set Sighting) : Prop where
  cutoff : IsLeastOf { d | ∃ name, ⟨.mutator, name, d⟩ ∈ seen } c.cutoff
  mutators : ∀ name, name ∈ c.mutators ↔ ∃ d, c.cutoff = some d ∧ ⟨.mutator, name, d⟩ ∈ seen
  unscanned : ∀ name, IsLeastOf { d | ⟨.unscanned, name, d⟩ ∈ seen } (c.unscanned.get? name)
  keys : c.unscanned.keys.Nodup
  provisional : ∀ name, name ∈ c.provisional ↔ ∃ d, ⟨.provisional, name, d⟩ ∈ seen

theorem collects_empty : Collects .empty ∅ where
  cutoff := by
    intro d
    simp [empty, IsLeast]
  mutators := by simp [empty]
  unscanned := by
    intro name d
    have hnone : empty.unscanned.get? name = none := rfl
    simp [hnone, IsLeast]
  keys := List.nodup_nil
  provisional := by simp [empty]

variable {c : Candidates} {seen : Set Sighting}

theorem addMutator_cutoff (c : Candidates) (name : String) (distance : Nat) :
    (c.addMutator name distance).cutoff = some (min distance (c.cutoff.getD distance)) := by
  unfold addMutator
  split
  · next hnone => simp [hnone]
  · next nearest hsome =>
    simp only [hsome, Option.getD_some]
    split
    · rw [Option.some.injEq]
      omega
    · split
      · rw [Option.some.injEq]
        omega
      · rw [hsome, Option.some.injEq]
        omega

theorem Collects.addMutator (h : Collects c seen) (name : String) (distance : Nat) :
    Collects (c.addMutator name distance) (insert ⟨.mutator, name, distance⟩ seen) := by
  have hsame : (c.addMutator name distance).unscanned = c.unscanned ∧
      (c.addMutator name distance).provisional = c.provisional := by
    unfold Candidates.addMutator
    split
    · exact ⟨rfl, rfl⟩
    · split
      · exact ⟨rfl, rfl⟩
      · split <;> exact ⟨rfl, rfl⟩
  constructor
  case cutoff =>
    have hset : { d | ∃ other, (⟨.mutator, other, d⟩ : Sighting) ∈
        insert ⟨.mutator, name, distance⟩ seen } =
        insert distance { d | ∃ other, ⟨.mutator, other, d⟩ ∈ seen } := by
      ext d
      simp [exists_or]
    rw [hset, addMutator_cutoff]
    exact h.cutoff.insert distance
  case mutators =>
    intro other
    simp only [addMutator_cutoff, Option.some.injEq, exists_eq_left', Set.mem_insert_iff,
      Sighting.mk.injEq, true_and]
    cases hcutoff : c.cutoff with
    | none =>
      have hnone := Set.eq_empty_iff_forall_notMem.mp (h.cutoff.eq_none_iff.mp hcutoff)
      have hunseen : (⟨.mutator, other, distance⟩ : Sighting) ∉ seen :=
        fun hseen => hnone distance ⟨other, hseen⟩
      simp [Candidates.addMutator, hcutoff, hunseen]
    | some nearest =>
      have hleast := ((h.cutoff nearest).mp hcutoff).2
      have hmutators := h.mutators other
      simp only [hcutoff, Option.some.injEq, exists_eq_left'] at hmutators
      simp only [Candidates.addMutator, hcutoff, Option.getD_some]
      -- a nearer one takes the place of all others, one as near joins them
      by_cases hlt : distance < nearest
      · have hunseen : (⟨.mutator, other, distance⟩ : Sighting) ∉ seen := by
          intro hseen
          have := hleast ⟨other, hseen⟩
          omega
        simp [hlt, Nat.min_eq_left hlt.le, hunseen]
      · by_cases heq : distance = nearest
        · simp [heq, hmutators, or_comm]
        · have hmin : min distance nearest = nearest := by omega
          have hne : nearest ≠ distance := Ne.symm heq
          simp [hlt, heq, hmin, hne, hmutators]
  case unscanned =>
    intro other
    simpa [hsame.1] using h.unscanned other
  case keys =>
    rw [hsame.1]
    exact h.keys
  case provisional =>
    intro other
    simpa [hsame.2] using h.provisional other

theorem Collects.addUnscanned (h : Collects c seen) (name : String) (distance : Nat) :
    Collects (c.addUnscanned name distance) (insert ⟨.unscanned, name, distance⟩ seen) where
  cutoff := by simpa [Candidates.addUnscanned] using h.cutoff
  mutators := by simpa [Candidates.addUnscanned] using h.mutators
  unscanned := by
    intro other
    simp only [Candidates.addUnscanned, Table.update, Table.get?_insert]
    by_cases hother : other = name
    · subst hother
      have hset : { d | (⟨.unscanned, other, d⟩ : Sighting) ∈
          insert ⟨.unscanned, other, distance⟩ seen } =
          insert distance { d | ⟨.unscanned, other, d⟩ ∈ seen } := by
        ext d
        simp
      rw [hset, if_pos rfl]
      exact (h.unscanned other).insert distance
    · simpa [hother] using h.unscanned other
  keys := Table.nodup_keys_insert h.keys _ _
  provisional := by simpa [Candidates.addUnscanned] using h.provisional

theorem Collects.addProvisional (h : Collects c seen) (name : String) (distance : Nat) :
    Collects (c.addProvisional name) (insert ⟨.provisional, name, distance⟩ seen) where
  cutoff := by simpa [Candidates.addProvisional] using h.cutoff
  mutators := by simpa [Candidates.addProvisional] using h.mutators
  unscanned := by simpa [Candidates.addProvisional] using h.unscanned
  keys := h.keys
  provisional := by
    intro other
    have hprovisional := h.provisional other
    simp [Candidates.addProvisional, hprovisional, exists_or, or_comm]

theorem Collects.add (h : Collects c seen) (s : Sighting) :
    Collects (c.add s) (insert s seen) := by
  obtain ⟨role, name, distance⟩ := s
  cases role with
  | mutator => exact h.addMutator name distance
  | unscanned => exact h.addUnscanned name distance
  | provisional => exact h.addProvisional name distance

theorem Collects.note (h : Collects c seen) (role : Option Role) (name : String)
    (distance : Nat) :
    Collects (c.note role name distance)
      { x | role = some x.role ∧ x.name = name ∧ x.distance = distance ∨ x ∈ seen } := by
  cases role with
  | none => simpa [Candidates.note] using h
  | some role =>
    have hset : { x : Sighting | some role = some x.role ∧ x.name = name ∧ x.distance = distance ∨
        x ∈ seen } = insert ⟨role, name, distance⟩ seen := by
      ext x
      obtain ⟨r, n, d⟩ := x
      simp only [Set.mem_ofPred_eq, Set.mem_insert_iff, Option.some.injEq, Sighting.mk.injEq,
        eq_comm]
    rw [hset]
    exact h.add ⟨role, name, distance⟩

theorem Collects.isNone_cutoff_iff (h : Collects c seen) :
    c.cutoff.isNone = true ↔ ∀ name d, ⟨.mutator, name, d⟩ ∉ seen := by
  rw [Option.isNone_iff_eq_none, h.cutoff.eq_none_iff, Set.eq_empty_iff_forall_notMem]
  constructor
  · intro hnone name d hseen
    exact hnone d ⟨name, hseen⟩
  · rintro hnone d ⟨name, hseen⟩
    exact hnone name d hseen

theorem Collects.reaches_iff (h : Collects c seen) (distance : Nat) :
    c.reaches distance = true ↔ NoneNearer seen distance := by
  unfold reaches
  cases hcutoff : c.cutoff with
  | none =>
    have hnone := h.isNone_cutoff_iff.mp (by rw [hcutoff]; rfl)
    simp only [Option.all_none, true_iff]
    intro name nearest hseen
    exact absurd hseen (hnone name nearest)
  | some nearest =>
    obtain ⟨⟨name, hseen⟩, hleast⟩ := (h.cutoff nearest).mp hcutoff
    simp only [Option.all_some, decide_eq_true_eq]
    constructor
    · intro hle other d hother
      exact hle.trans (hleast ⟨other, hother⟩)
    · intro hnearer
      exact hnearer name nearest hseen

theorem Collects.mem_focalMethods (h : Collects c seen) (name : String) :
    name ∈ c.focalMethods ↔ Selected seen name := by
  have hmutator : name ∈ c.mutators ↔ ∃ d, ⟨.mutator, name, d⟩ ∈ seen ∧ NoneNearer seen d := by
    rw [h.mutators]
    constructor
    · rintro ⟨d, hcutoff, hseen⟩
      refine ⟨d, hseen, (h.reaches_iff d).mp ?_⟩
      simp [reaches, hcutoff]
    · rintro ⟨d, hseen, hnearer⟩
      have hleast : IsLeast { d | ∃ name, (⟨.mutator, name, d⟩ : Sighting) ∈ seen } d :=
        ⟨⟨name, hseen⟩, fun e ⟨other, hother⟩ => hnearer other e hother⟩
      exact ⟨d, (h.cutoff d).mpr hleast, hseen⟩
  have hunscanned : (∃ d, (name, d) ∈ c.unscanned.entries ∧ c.reaches d = true) ↔
      ∃ d, ⟨.unscanned, name, d⟩ ∈ seen ∧ NoneNearer seen d := by
    simp only [Table.mem_entries_iff h.keys, h.reaches_iff]
    constructor
    · rintro ⟨d, hget, hnearer⟩
      exact ⟨d, ((h.unscanned name d).mp hget).1, hnearer⟩
    · rintro ⟨d, hseen, hnearer⟩
      cases hget : c.unscanned.get? name with
      | none =>
        have hnone := (h.unscanned name).eq_none_iff.mp hget
        exact absurd hseen (Set.eq_empty_iff_forall_notMem.mp hnone d)
      | some e =>
        have hle := ((h.unscanned name e).mp hget).2 hseen
        exact ⟨e, rfl, fun other nearest hother => hle.trans (hnearer other nearest hother)⟩
  have hprovisional : (name ∈ if c.cutoff.isNone then c.provisional else []) ↔
      (∀ other d, ⟨.mutator, other, d⟩ ∉ seen) ∧ ∃ d, ⟨.provisional, name, d⟩ ∈ seen := by
    rw [← h.isNone_cutoff_iff, ← h.provisional]
    split
    · next hnone => simp [hnone]
    · next hsome => simp [hsome]
  rw [focalMethods, mem_sortedNames, List.mem_append, List.mem_append, hmutator, hprovisional,
    or_assoc, Selected, ← hunscanned]
  simp

theorem focalMethods_empty : Candidates.empty.focalMethods = [] := by
  apply List.eq_nil_iff_forall_not_mem.mpr
  intro name hname
  obtain ⟨x, hx, -⟩ := ((collects_empty.mem_focalMethods name).mp hname).exists_mem
  exact hx

-- What lies beyond the nearest mutator makes no difference, so it need not have been seen.
theorem Collects.mem_focalMethods_of_reaches {all : Set Sighting} (h : Collects c seen)
    (hsound : seen ⊆ all) (hcovers : ∀ x ∈ all, c.reaches x.distance = true → x ∈ seen)
    (name : String) : name ∈ c.focalMethods ↔ Selected all name := by
  have hnearer (d : Nat) : NoneNearer seen d ↔ NoneNearer all d := by
    constructor
    · intro hseen other nearest hother
      by_contra hlt
      have hreaches : c.reaches nearest = true :=
        (h.reaches_iff nearest).mpr fun other e he => by
          have := hseen other e he
          omega
      exact hlt (hseen other nearest (hcovers _ hother hreaches))
    · intro hall other nearest hother
      exact hall other nearest (hsound hother)
  have hwithin (role : Role) : (∃ d, ⟨role, name, d⟩ ∈ seen ∧ NoneNearer seen d) ↔
      ∃ d, ⟨role, name, d⟩ ∈ all ∧ NoneNearer all d := by
    constructor
    · rintro ⟨d, hseen, hd⟩
      exact ⟨d, hsound hseen, (hnearer d).mp hd⟩
    · rintro ⟨d, hall, hd⟩
      have hseen := (hnearer d).mpr hd
      exact ⟨d, hcovers _ hall ((h.reaches_iff d).mpr hseen), hseen⟩
  have hreaches (hnone : ∀ other d, ⟨.mutator, other, d⟩ ∉ seen) (d : Nat) : c.reaches d = true :=
    (h.reaches_iff d).mpr fun other nearest hother => absurd hother (hnone other nearest)
  have hprovisional :
      ((∀ other d, ⟨.mutator, other, d⟩ ∉ seen) ∧ ∃ d, ⟨.provisional, name, d⟩ ∈ seen) ↔
        (∀ other d, ⟨.mutator, other, d⟩ ∉ all) ∧ ∃ d, ⟨.provisional, name, d⟩ ∈ all := by
    constructor
    · rintro ⟨hnone, d, hseen⟩
      exact ⟨fun other e hother => hnone other e (hcovers _ hother (hreaches hnone e)),
        d, hsound hseen⟩
    · rintro ⟨hnone, d, hall⟩
      have hunseen : ∀ other d, ⟨.mutator, other, d⟩ ∉ seen :=
        fun other e hother => hnone other e (hsound hother)
      exact ⟨hunseen, d, hcovers _ hall (hreaches hunseen d)⟩
  rw [h.mem_focalMethods, Selected, hwithin, hwithin, hprovisional, Selected]

theorem pairwise_focalMethods (c : Candidates) : c.focalMethods.Pairwise (· < ·) :=
  pairwise_sortedNames _

end Candidates

end TestFocus
