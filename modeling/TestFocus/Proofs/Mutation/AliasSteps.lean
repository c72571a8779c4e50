import Mathlib.Algebra.BigOperators.Group.List.Lemmas
import Mathlib.Algebra.GroupWithZero.Nat
import Mathlib.Algebra.Order.BigOperators.Group.List
import Mathlib.Algebra.Order.Group.Nat
import TestFocus.Mutation.Reference
import TestFocus.Proofs.Table

namespace TestFocus.Mutation

-- The arguments that are none of the names in `seen`.
def argumentsLeft (calls : List (Nat × Call)) (seen : List String) : Nat :=
  (calls.map fun c => c.2.arguments.countP fun a => !seen.contains a.value).sum

-- The uses of names other than those in `seen`.
def usesLeft (d : Dataflow) (seen : List String) : Nat :=
  ((d.users.entries.filter fun e => !seen.contains e.1).map fun e => e.2.length).sum

theorem foldl_add_eq_sum {α : Type} (f : α → Nat) (l : List α) (n : Nat) :
    l.foldl (fun n a => n + f a) n = n + (l.map f).sum := by
  induction l generalizing n with
  | nil => simp
  | cons a l ih => simp [ih, Nat.add_assoc]

theorem argumentsLeft_nil (calls : List (Nat × Call)) :
    argumentsLeft calls [] = countArguments calls := by
  rw [countArguments, foldl_add_eq_sum fun c : Nat × Call => c.2.arguments.length, Nat.zero_add]
  simp [argumentsLeft]

theorem usesLeft_nil (d : Dataflow) : usesLeft d [] = countUses d := by
  rw [countUses, foldl_add_eq_sum fun e : String × List Use => e.2.length, Nat.zero_add]
  simp [usesLeft]

theorem length_passings (calls : List (Nat × Call)) (name : String) :
    (passings calls name).length =
      (calls.map fun c => c.2.arguments.countP fun a => a.value == name).sum := by
  have hzip (l : List Argument) (n : Nat) :
      ((l.zipIdx n).filter (·.1.value == name)).length = l.countP fun a => a.value == name := by
    induction l generalizing n with
    | nil => rfl
    | cons a l ih => by_cases h : a.value == name <;> simp [List.zipIdx_cons, h, ih]
  simp [passings, List.length_flatMap, hzip]

-- Handling a name uses up the arguments that are the name.
theorem argumentsLeft_cons (calls : List (Nat × Call)) {seen : List String} {name : String}
    (h : name ∉ seen) :
    argumentsLeft calls seen =
      (passings calls name).length + argumentsLeft calls (name :: seen) := by
  rw [length_passings, argumentsLeft, argumentsLeft, ← List.sum_map_add]
  congr 1
  apply List.map_congr_left
  intro c _
  induction c.2.arguments with
  | nil => rfl
  | cons a l ih =>
    simp only [List.countP_cons]
    by_cases ha : a.value = name
    · simp only [ha, List.contains_eq_mem, h, List.mem_cons, true_or] at ih ⊢
      simp at ih ⊢
      omega
    · simp only [List.contains_eq_mem, List.mem_cons, ha, false_or] at ih ⊢
      simp [ha] at ih ⊢
      omega

-- Handling a name uses up its uses.
theorem usesOf_add_usesLeft_le (d : Dataflow) {seen : List String} {name : String}
    (h : name ∉ seen) :
    (d.usesOf name).length + usesLeft d (name :: seen) ≤ usesLeft d seen := by
  cases huses : d.users.get? name with
  | none =>
    simp only [Dataflow.usesOf, huses, Option.getD_none, List.length_nil, Nat.zero_add]
    exact d.users.weightOutside_cons_le List.length seen name
  | some uses =>
    simp only [Dataflow.usesOf, huses, Option.getD_some]
    exact Table.add_weightOutside_le List.length huses h

theorem length_usesOf_le (d : Dataflow) (name : String) :
    (d.usesOf name).length ≤ countUses d := by
  have hleft := usesOf_add_usesLeft_le d (List.not_mem_nil (a := name))
  rw [usesLeft_nil] at hleft
  omega

theorem length_aliasesThrough_le (d : Dataflow) (use : Use) :
    (aliasesThrough d use).length ≤ max 1 (countUses d) := by
  have hreloads : (d.reloads use.register).length ≤ countUses d := by
    rw [Dataflow.reloads, List.length_map]
    exact (List.length_filter_le _ _).trans (length_usesOf_le d use.register)
  unfold aliasesThrough
  repeat' split
  all_goals simp
  omega

theorem length_aliasesOf_le (d : Dataflow) (name : String) :
    (aliasesOf d name).length ≤ (d.usesOf name).length * countUses d := by
  have huses := length_usesOf_le d name
  rw [aliasesOf, List.length_flatMap]
  calc
    ((d.usesOf name).map fun use => (aliasesThrough d use).length).sum ≤
        (d.usesOf name).length * max 1 (countUses d) := by
      have h := List.sum_le_card_nsmul ((d.usesOf name).map fun use =>
        (aliasesThrough d use).length) (max 1 (countUses d)) (by
          intro n hn
          obtain ⟨use, -, rfl⟩ := List.mem_map.mp hn
          exact length_aliasesThrough_le d use)
      simpa using h
    _ = (d.usesOf name).length * countUses d := by
      rcases Nat.eq_zero_or_pos (d.usesOf name).length with hzero | hpos
      · simp [hzero]
      · rw [max_eq_right (by omega)]

-- Enough steps to empty the worklist.
def StepsSuffice (d : Dataflow) (calls : List (Nat × Call)) (steps : Nat)
    (seen worklist : List String) : Prop :=
  worklist.length + argumentsLeft calls seen + usesLeft d seen * countUses d ≤ steps

theorem stepsSuffice_start (d : Dataflow) (calls : List (Nat × Call)) (register : String) :
    StepsSuffice d calls (aliasSteps d calls) [] [register] := by
  rw [StepsSuffice, argumentsLeft_nil, usesLeft_nil, aliasSteps, Nat.mul_add]
  simp only [List.length_singleton]
  omega

theorem StepsSuffice.exists_succ {d : Dataflow} {calls : List (Nat × Call)} {steps : Nat}
    {seen worklist : List String} {name : String}
    (h : StepsSuffice d calls steps seen (name :: worklist)) : ∃ left, steps = left + 1 := by
  simp only [StepsSuffice, List.length_cons] at h
  exact ⟨steps - 1, by omega⟩

theorem StepsSuffice.skip {d : Dataflow} {calls : List (Nat × Call)} {steps : Nat}
    {seen worklist : List String} {name : String}
    (h : StepsSuffice d calls (steps + 1) seen (name :: worklist)) :
    StepsSuffice d calls steps seen worklist := by
  simp only [StepsSuffice, List.length_cons] at h ⊢
  omega

-- The steps left after a name was handled, `worklist'` being the worklist with the results of the
-- calls that take the name.
theorem StepsSuffice.handle {d : Dataflow} {calls : List (Nat × Call)} {steps : Nat}
    {seen worklist worklist' : List String} {name : String}
    (h : StepsSuffice d calls (steps + 1) seen (name :: worklist)) (hnew : name ∉ seen)
    (hlength : worklist'.length ≤ worklist.length + (passings calls name).length) :
    StepsSuffice d calls steps (name :: seen) ((aliasesOf d name).reverse ++ worklist') := by
  have harguments := argumentsLeft_cons calls hnew
  have huses := Nat.mul_le_mul_right (countUses d) (usesOf_add_usesLeft_le d hnew)
  have haliases := length_aliasesOf_le d name
  rw [Nat.add_mul] at huses
  simp only [StepsSuffice, List.length_cons, List.length_append, List.length_reverse] at h ⊢
  omega

end TestFocus.Mutation
