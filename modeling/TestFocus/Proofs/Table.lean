import TestFocus.Table
import Mathlib.Algebra.GroupWithZero.Nat
import Mathlib.Data.List.Nodup

namespace TestFocus.Table

variable {α : Type} {t : Table α}

theorem contains_insertNew (t : Table α) (key other : String) (a : α) :
    (t.insertNew key a).contains other = (other == key || t.contains other) := by
  unfold insertNew
  split
  · next hkey =>
    by_cases hother : other = key
    · simp [hother, hkey]
    · simp [hother]
  · exact contains_insert t key other a

theorem contains_eq_false_iff {key : String} : t.contains key = false ↔ t.get? key = none := by
  simp [contains]

theorem contains_iff {key : String} : t.contains key = true ↔ ∃ a, t.get? key = some a :=
  Option.isSome_iff_exists

theorem get?_insertNew (t : Table α) (key other : String) (a : α) :
    (t.insertNew key a).get? other = (t.get? other).or (if key = other then some a else none) := by
  unfold insertNew
  split
  · next hkey =>
    split
    · next hother =>
      obtain ⟨b, hb⟩ := contains_iff.mp hkey
      rw [← hother, hb]
      rfl
    · rw [Option.or_none]
  · next hkey =>
    rw [get?_insert]
    split
    · next hother =>
      rw [Bool.not_eq_true, contains_eq_false_iff] at hkey
      rw [hother, hkey, if_pos rfl]
      rfl
    · next hother => rw [if_neg (Ne.symm hother), Option.or_none]

theorem mem_keys_iff {key : String} : key ∈ t.keys ↔ t.contains key = true := by
  obtain ⟨entries⟩ := t
  simp only [contains, get?, keys]
  induction entries with
  | nil => simp [find]
  | cons e entries ih =>
    obtain ⟨k, a⟩ := e
    by_cases hk : k = key
    · simp [hk, find]
    · simp only [List.map_cons, List.mem_cons, find, if_neg hk, ih]
      simp [Ne.symm hk]

theorem keys_insert_of_contains {key : String} (h : t.contains key = true) (a : α) :
    (t.insert key a).keys = t.keys := by
  obtain ⟨entries⟩ := t
  simp only [insert, keys, contains, get?] at h ⊢
  induction entries with
  | nil => cases h
  | cons e entries ih =>
    obtain ⟨k, b⟩ := e
    by_cases hk : k = key
    · simp only [put, if_pos hk, List.map_cons]
    · simp only [find, if_neg hk] at h
      simp only [put, if_neg hk, List.map_cons, ih h]

theorem keys_insert_of_not_contains {key : String} (h : t.contains key = false) (a : α) :
    (t.insert key a).keys = t.keys ++ [key] := by
  obtain ⟨entries⟩ := t
  simp only [insert, keys, contains, get?] at h ⊢
  induction entries with
  | nil => rfl
  | cons e entries ih =>
    obtain ⟨k, b⟩ := e
    by_cases hk : k = key
    · simp [find, hk] at h
    · simp only [find, if_neg hk] at h
      simp only [put, if_neg hk, List.map_cons, List.cons_append, ih h]

theorem nodup_keys_insert (h : t.keys.Nodup) (key : String) (a : α) :
    (t.insert key a).keys.Nodup := by
  cases hkey : t.contains key with
  | true =>
    rw [keys_insert_of_contains hkey]
    exact h
  | false =>
    rw [keys_insert_of_not_contains hkey]
    refine h.append (List.nodup_singleton key) ?_
    intro other hother hsingle
    rw [List.mem_singleton.mp hsingle, mem_keys_iff, hkey] at hother
    cases hother

-- With every key once, what is looked up is what stands there.
theorem mem_entries_iff (h : t.keys.Nodup) {key : String} {a : α} :
    (key, a) ∈ t.entries ↔ t.get? key = some a := by
  obtain ⟨entries⟩ := t
  simp only [keys, get?] at h ⊢
  induction entries with
  | nil => simp [find]
  | cons e entries ih =>
    obtain ⟨k, b⟩ := e
    obtain ⟨hk, hrest⟩ := List.nodup_cons.mp h
    by_cases hkey : k = key
    · subst hkey
      have hnot : (k, a) ∉ entries := fun hmem => hk (List.mem_map.mpr ⟨_, hmem, rfl⟩)
      simp [find, hnot, eq_comm]
    · simp [find, hkey, Ne.symm hkey, ih hrest]

-- What the entries weigh whose keys are none of the names in `seen`.
def weightOutside (t : Table α) (weight : α → Nat) (seen : List String) : Nat :=
  ((t.entries.filter fun e => !seen.contains e.1).map fun e => weight e.2).sum

theorem weightOutside_cons_le (t : Table α) (weight : α → Nat) (seen : List String)
    (key : String) : t.weightOutside weight (key :: seen) ≤ t.weightOutside weight seen := by
  simp only [weightOutside]
  induction t.entries with
  | nil => simp
  | cons e entries ih =>
    obtain ⟨k, a⟩ := e
    by_cases hseen : k ∈ seen
    · simpa [hseen] using ih
    · by_cases hkey : k = key
      · subst hkey
        simp [hseen] at ih ⊢
        omega
      · simp [hseen, hkey] at ih ⊢
        omega

-- A new name uses up the weight of its entry.
theorem add_weightOutside_le (weight : α → Nat) {seen : List String} {key : String} {a : α}
    (hget : t.get? key = some a) (hnew : key ∉ seen) :
    weight a + t.weightOutside weight (key :: seen) ≤ t.weightOutside weight seen := by
  obtain ⟨entries⟩ := t
  simp only [get?] at hget
  induction entries with
  | nil => cases hget
  | cons e entries ih =>
    obtain ⟨k, b⟩ := e
    by_cases hk : k = key
    · subst hk
      simp only [find, if_pos, Option.some.injEq] at hget
      have hrest := weightOutside_cons_le ⟨entries⟩ weight seen k
      simp [weightOutside, hnew, hget] at hrest ⊢
      exact hrest
    · simp only [find, if_neg hk] at hget
      have hrest := ih hget
      by_cases hseen : k ∈ seen
      · simpa [weightOutside, hseen] using hrest
      · simp [weightOutside, hseen, hk] at hrest ⊢
        omega

end TestFocus.Table
