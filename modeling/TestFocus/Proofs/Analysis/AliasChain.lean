import Mathlib.Data.Finset.Card
import Mathlib.Logic.Relation
import TestFocus.Definition.Registry
import TestFocus.Proofs.Table

-- Chains of aliases. A chain that is still at an alias when it has been followed once through
-- the whole table goes around in a cycle, so it never comes to a function. So resolution, which
-- follows a chain for as long as the table is and once more, ends where the chain ends, or on
-- its cycle.

namespace TestFocus

namespace Registry

variable {aliases : Table String}

theorem followAlias_of_not_alias {name : String} (h : aliases.contains name = false) (steps : Nat) :
    followAlias aliases steps name = name := by
  have hnone : aliases.get? name = none := by
    simpa [Table.contains] using h
  cases steps with
  | zero => rfl
  | succ steps => simp only [followAlias, hnone]

theorem followAlias_add (m n : Nat) (name : String) :
    followAlias aliases (m + n) name = followAlias aliases n (followAlias aliases m name) := by
  induction m generalizing name with
  | zero => simp [followAlias]
  | succ m ih =>
    cases htarget : aliases.get? name with
    | none =>
      have halias : aliases.contains name = false := by simp [Table.contains, htarget]
      rw [followAlias_of_not_alias halias, followAlias_of_not_alias halias,
        followAlias_of_not_alias halias]
    | some target =>
      rw [Nat.succ_add]
      simp only [followAlias, htarget]
      exact ih target

-- A chain stops at the first name that is no alias.
theorem contains_followAlias_of_le {name : String} {m n : Nat} (hle : m ≤ n)
    (h : aliases.contains (followAlias aliases n name) = true) :
    aliases.contains (followAlias aliases m name) = true := by
  by_contra hm
  rw [Bool.not_eq_true] at hm
  obtain ⟨k, rfl⟩ := Nat.exists_eq_add_of_le hle
  rw [followAlias_add, followAlias_of_not_alias hm, hm] at h
  cases h

-- A chain that has gone through as many aliases as there are comes to one of them again.
theorem exists_followAlias_eq {name : String}
    (h : aliases.contains (followAlias aliases aliases.size name) = true) :
    ∃ i j, i < j ∧ j ≤ aliases.size ∧ followAlias aliases i name = followAlias aliases j name := by
  have hkeys : ∀ i ∈ Finset.range (aliases.size + 1),
      followAlias aliases i name ∈ aliases.keys.toFinset := by
    intro i hi
    rw [List.mem_toFinset, Table.mem_keys_iff]
    exact contains_followAlias_of_le (by simp only [Finset.mem_range] at hi; omega) h
  have hcard : aliases.keys.toFinset.card < (Finset.range (aliases.size + 1)).card := by
    have hle := List.toFinset_card_le aliases.keys
    simp only [Table.keys, List.length_map] at hle
    simp only [Finset.card_range, Table.size, Table.keys]
    omega
  obtain ⟨i, hi, j, hj, hne, heq⟩ := Finset.exists_ne_map_eq_of_card_lt_of_maps_to hcard hkeys
  simp only [Finset.mem_range] at hi hj
  rcases Nat.lt_or_gt_of_ne hne with hlt | hlt
  · exact ⟨i, j, hlt, by omega, heq⟩
  · exact ⟨j, i, hlt, by omega, heq.symm⟩

-- Once the chain has met as many aliases as there are, it is on a cycle.
theorem contains_followAlias_of_size {name : String}
    (h : aliases.contains (followAlias aliases aliases.size name) = true) (n : Nat) :
    aliases.contains (followAlias aliases n name) = true := by
  obtain ⟨i, j, hlt, hj, heq⟩ := exists_followAlias_eq h
  -- the names from place `j` on are those from place `i` on
  induction n using Nat.strong_induction_on with
  | _ n ih =>
    by_cases hn : n ≤ aliases.size
    · exact contains_followAlias_of_le hn h
    · have hsplit : n = j + (n - j) := by omega
      rw [hsplit, followAlias_add, ← heq, ← followAlias_add]
      exact ih (i + (n - j)) (by omega)

variable {r r' : Registry} {name : String}

theorem resolve_congr (h : r.aliases = r'.aliases) (name : String) :
    r.resolve name = r'.resolve name := by
  simp only [resolve, h]

theorem resolve_of_not_isAlias (h : r.isAlias name = false) : r.resolve name = name :=
  followAlias_of_not_alias h _

-- A name that stands for an alias does so however often it is resolved.
theorem isAlias_resolve_resolve (h : r.isAlias (r.resolve name) = true) :
    r.isAlias (r.resolve (r.resolve name)) = true := by
  have hsize := contains_followAlias_of_le (Nat.le_succ r.aliases.size) h
  have hall := contains_followAlias_of_size hsize (r.aliases.size + 1 + (r.aliases.size + 1))
  rwa [followAlias_add] at hall

def IsAliasOf (r : Registry) (name target : String) : Prop :=
  r.aliases.get? name = some target

theorem reflTransGen_followAlias (r : Registry) (steps : Nat) (name : String) :
    Relation.ReflTransGen r.IsAliasOf name (followAlias r.aliases steps name) := by
  induction steps generalizing name with
  | zero => exact .refl
  | succ steps ih =>
    simp only [followAlias]
    split
    · next target htarget => exact .head htarget (ih target)
    · exact .refl

theorem transGen_followAlias {steps : Nat} (hsteps : 0 < steps) (h : r.isAlias name = true) :
    Relation.TransGen r.IsAliasOf name (followAlias r.aliases steps name) := by
  obtain ⟨target, htarget⟩ := Table.contains_iff.mp h
  obtain ⟨steps, rfl⟩ := Nat.exists_eq_succ_of_ne_zero (Nat.ne_of_gt hsteps)
  simp only [followAlias, htarget]
  exact .head' htarget (reflTransGen_followAlias r steps target)

theorem exists_followAlias_of_reflTransGen {target : String}
    (h : Relation.ReflTransGen r.IsAliasOf name target) :
    ∃ steps, followAlias r.aliases steps name = target := by
  induction h using Relation.ReflTransGen.head_induction_on with
  | refl => exact ⟨0, rfl⟩
  | head hnext _ ih =>
    obtain ⟨steps, hsteps⟩ := ih
    refine ⟨steps + 1, ?_⟩
    simp only [followAlias, show r.aliases.get? _ = _ from hnext, hsteps]

-- A chain that ends does so within the steps that resolution takes.
theorem resolve_eq_of_reflTransGen {target : String}
    (h : Relation.ReflTransGen r.IsAliasOf name target) (hend : r.isAlias target = false) :
    r.resolve name = target := by
  obtain ⟨steps, rfl⟩ := exists_followAlias_of_reflTransGen h
  have hsize : r.aliases.contains (followAlias r.aliases r.aliases.size name) = false := by
    by_contra hcycle
    rw [Bool.not_eq_false] at hcycle
    rw [isAlias, contains_followAlias_of_size hcycle steps] at hend
    cases hend
  rcases Nat.le_total steps (r.aliases.size + 1) with hle | hle
  · obtain ⟨more, hmore⟩ := Nat.exists_eq_add_of_le hle
    rw [resolve, hmore, followAlias_add]
    exact followAlias_of_not_alias hend more
  · obtain ⟨more, rfl⟩ := Nat.exists_eq_add_of_le hle
    have hresolved : r.aliases.contains (r.resolve name) = false := by
      rw [resolve, followAlias_add, followAlias_of_not_alias hsize]
      exact hsize
    rw [followAlias_add]
    exact (followAlias_of_not_alias hresolved more).symm

-- A chain that comes to no other name than aliases is left on its cycle.
theorem transGen_resolve
    (h : ∀ target, Relation.ReflTransGen r.IsAliasOf name target → r.isAlias target = true) :
    Relation.TransGen r.IsAliasOf (r.resolve name) (r.resolve name) := by
  have hall (steps : Nat) : r.aliases.contains (followAlias r.aliases steps name) = true :=
    h _ (reflTransGen_followAlias r steps name)
  obtain ⟨i, j, hlt, hj, heq⟩ := exists_followAlias_eq (hall r.aliases.size)
  -- from the first of the two places on, the names come again after `j - i` steps
  have hperiod : followAlias r.aliases (j - i) (r.resolve name) = r.resolve name := by
    have hfirst : r.aliases.size + 1 = i + (r.aliases.size + 1 - i) := by omega
    have hagain : r.aliases.size + 1 + (j - i) = j + (r.aliases.size + 1 - i) := by omega
    calc followAlias r.aliases (j - i) (r.resolve name)
        = followAlias r.aliases (r.aliases.size + 1 + (j - i)) name := (followAlias_add _ _ _).symm
      _ = followAlias r.aliases (r.aliases.size + 1 - i) (followAlias r.aliases i name) := by
        rw [hagain, followAlias_add, ← heq]
      _ = r.resolve name := by rw [← followAlias_add, ← hfirst, resolve]
  have hcycle : Relation.TransGen r.IsAliasOf (r.resolve name)
      (followAlias r.aliases (j - i) (r.resolve name)) :=
    transGen_followAlias (by omega) (hall (r.aliases.size + 1))
  rwa [hperiod] at hcycle

-- A chain that comes to a name that is no alias is followed to its end, however long it is, and
-- then the lookups see the same under both names. Any other chain is left on its cycle.
theorem resolve_end_or_cycle (r : Registry) (name : String) :
    (∀ target, Relation.ReflTransGen r.IsAliasOf name target → r.isAlias target = false →
      r.resolve name = target ∧ r.resolve (r.resolve name) = r.resolve name ∧
      r.contains (r.resolve name) = r.contains name ∧ r.get? (r.resolve name) = r.get? name ∧
      r.callSites (r.resolve name) = r.callSites name ∧
      r.functionAttributes (r.resolve name) = r.functionAttributes name) ∧
    ((∀ target, Relation.ReflTransGen r.IsAliasOf name target → r.isAlias target = true) →
      Relation.ReflTransGen r.IsAliasOf name (r.resolve name) ∧
      Relation.TransGen r.IsAliasOf (r.resolve name) (r.resolve name)) := by
  constructor
  · intro target hchain hend
    have hresolve : r.resolve name = target := resolve_eq_of_reflTransGen hchain hend
    have hagain : r.resolve (r.resolve name) = r.resolve name := by
      rw [hresolve, resolve_of_not_isAlias hend]
    have hget : r.get? (r.resolve name) = r.get? name := by rw [get?, hagain, get?]
    refine ⟨hresolve, hagain, ?_, hget, ?_, ?_⟩
    · rw [contains, hagain, contains]
    · rw [callSites, hget, callSites]
    · rw [functionAttributes, hget, functionAttributes]
  · intro hcycle
    exact ⟨reflTransGen_followAlias r _ name, transGen_resolve hcycle⟩

end Registry

end TestFocus
