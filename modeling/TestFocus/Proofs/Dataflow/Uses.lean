import Mathlib.Data.List.Induction
import TestFocus.Dataflow
import TestFocus.Proofs.Table

namespace TestFocus.Dataflow

-- The ways in which a data flow grows.
inductive Operation where
  | define (register : String) (provenance : Provenance)
  | store (address value : String)
  | ret (value : String)
deriving DecidableEq

namespace Operation

def apply (d : Dataflow) : Operation → Dataflow
  | define register provenance => d.define register provenance
  | store address value => d.store address value
  | ret value => d.ret value

def definition? : Operation → Option (String × Provenance)
  | define register provenance => some (register, provenance)
  | _ => none

def store? : Operation → Option (String × String)
  | store address value => some (address, value)
  | _ => none

end Operation

def applyAll (d : Dataflow) (ops : List Operation) : Dataflow :=
  ops.foldl Operation.apply d

-- What the operations define, in order, with the definitions that are ignored.
def definitionsIn (ops : List Operation) : List (String × Provenance) :=
  ops.filterMap Operation.definition?

-- The addresses and the values that the operations store, in order.
def storesIn (ops : List Operation) : List (String × String) :=
  ops.filterMap Operation.store?

variable {d : Dataflow}

theorem get?_addUse (users : Table (List Use)) (value name : String) (use : Use) :
    ((addUse users value use).get? name).getD [] =
      (users.get? name).getD [] ++
        if Operand.isRegister name = true ∧ value = name then [use] else [] := by
  unfold addUse
  by_cases hname : name = value
  · subst hname
    cases Operand.isRegister name with
    | true => simp [Table.update, Table.get?_insert]
    | false => simp
  · have hother : ¬(Operand.isRegister name = true ∧ value = name) := fun h => hname h.2.symm
    rw [if_neg hother, List.append_nil]
    split
    · rw [Table.update, Table.get?_insert, if_neg hname]
    · rfl

-- A value that is read several times is used as often.
theorem get?_foldl_addUse (sources : List String) (users : Table (List Use)) (name : String)
    (use : Use) :
    ((sources.foldl (fun users source => addUse users source use) users).get? name).getD [] =
      (users.get? name).getD [] ++
        List.replicate (if Operand.isRegister name then sources.count name else 0) use := by
  induction sources generalizing users with
  | nil => simp
  | cons source sources ih =>
    rw [List.foldl_cons, ih, get?_addUse, List.append_assoc, List.count_cons]
    cases Operand.isRegister name with
    | true =>
      by_cases hsource : source = name
      · simp [hsource, List.replicate_succ]
      · simp [hsource]
    | false => simp

theorem usesOf_define (d : Dataflow) (register name : String) (provenance : Provenance) :
    (d.define register provenance).usesOf name =
      d.usesOf name ++
        List.replicate
          (if d.definition? register = none ∧ Operand.isRegister name = true then
            provenance.sources.count name else 0)
          ⟨register, provenance⟩ := by
  unfold define
  cases hdefined : d.definitions.contains register with
  | true =>
    obtain ⟨standing, hstanding⟩ := Table.contains_iff.mp hdefined
    have hsome : d.definition? register = some standing := hstanding
    simp [hsome]
  | false =>
    have hnone : d.definition? register = none := Table.contains_eq_false_iff.mp hdefined
    simp only [Bool.false_eq_true, if_false, hnone, true_and]
    exact get?_foldl_addUse provenance.sources d.users name ⟨register, provenance⟩

theorem usesOf_store (d : Dataflow) (address value name : String) :
    (d.store address value).usesOf name =
      d.usesOf name ++
        if Operand.isRegister name = true ∧ value = name then [⟨address, .storedFrom name⟩]
        else [] := by
  have huse := get?_addUse d.users value name ⟨address, .storedFrom value⟩
  simp only [usesOf, store, huse]
  by_cases hvalue : value = name
  · rw [hvalue]
  · simp [hvalue]

theorem count_usesOf_store (d : Dataflow) (address value name register : String)
    (provenance : Provenance) :
    ((d.store address value).usesOf name).count ⟨register, provenance⟩ =
      (d.usesOf name).count ⟨register, provenance⟩ +
        if Operand.isRegister name = true ∧ provenance = .storedFrom name then
          (if address = register then [value] else []).count name else 0 := by
  rw [usesOf_store, List.count_append]
  congr 1
  by_cases hvalue : value = name
  · subst hvalue
    simp only [and_true]
    cases Operand.isRegister value with
    | false => simp
    | true =>
      by_cases hstored : provenance = .storedFrom value
      · by_cases haddress : address = register
        · simp [hstored, haddress]
        · simp [hstored, haddress]
      · simp [hstored, Ne.symm hstored]
  · have hnone : (if address = register then [value] else []).count name = 0 := by
      split <;> simp [hvalue]
    rw [hnone, if_neg fun h => hvalue h.2, ite_self, List.count_nil]

theorem storedValues_store (d : Dataflow) (address value other : String) :
    (d.store address value).storedValues other =
      d.storedValues other ++ if address = other then [value] else [] := by
  simp only [store, storedValues, Table.update, Table.get?_insert]
  by_cases hother : other = address
  · simp [hother]
  · simp [hother, Ne.symm hother]

theorem storedValues_define (d : Dataflow) (register address : String) (provenance : Provenance) :
    (d.define register provenance).storedValues address = d.storedValues address := by
  unfold define
  split <;> rfl

theorem definition?_define (d : Dataflow) (register other : String) (provenance : Provenance) :
    (d.define register provenance).definition? other =
      if other = register ∧ d.definitions.contains register = false then some provenance
      else d.definition? other := by
  unfold define
  cases hdefined : d.definitions.contains register with
  | true => simp
  | false =>
    simp only [Bool.false_eq_true, if_false, and_true]
    exact Table.get?_insert _ _ _ _

-- The first definition stands.
theorem definition?_define_or (d : Dataflow) (register other : String) (provenance : Provenance) :
    (d.define register provenance).definition? other =
      (d.definition? other).or ([(register, provenance)].lookup other) := by
  rw [definition?_define]
  by_cases hother : other = register
  · subst hother
    cases hdefined : d.definitions.contains other with
    | true =>
      obtain ⟨standing, hstanding⟩ := Table.contains_iff.mp hdefined
      have hsome : d.definition? other = some standing := hstanding
      simp [hsome]
    | false =>
      have hnone : d.definition? other = none := Table.contains_eq_false_iff.mp hdefined
      simp [hnone]
  · simp [hother, List.lookup_cons, beq_eq_false_iff_ne.mpr hother]

theorem keys_define (d : Dataflow) (register : String) (provenance : Provenance) :
    (d.define register provenance).definitions.keys =
      d.definitions.keys ++ if d.definition? register = none then [register] else [] := by
  unfold define
  cases hdefined : d.definitions.contains register with
  | true =>
    obtain ⟨standing, hstanding⟩ := Table.contains_iff.mp hdefined
    have hsome : d.definition? register = some standing := hstanding
    simp [hsome]
  | false =>
    have hnone : d.definition? register = none := Table.contains_eq_false_iff.mp hdefined
    simp [hnone, Table.keys_insert_of_not_contains hdefined]

theorem loadsFrom_iff {address : String} {provenance : Provenance} :
    loadsFrom address provenance = true ↔
      ∃ isPointer, provenance = .loadedFrom address isPointer := by
  cases provenance <;> simp [loadsFrom]

-- A load reads its address once.
theorem reloads_define (d : Dataflow) (register address : String) (provenance : Provenance) :
    (d.define register provenance).reloads address =
      d.reloads address ++
        if d.definition? register = none ∧ Operand.isRegister address = true ∧
          loadsFrom address provenance = true then [register] else [] := by
  simp only [reloads, usesOf_define, List.filter_append, List.map_append]
  cases hloads : loadsFrom address provenance with
  | true =>
    obtain ⟨isPointer, rfl⟩ := loadsFrom_iff.mp hloads
    by_cases hnew : d.definition? register = none ∧ Operand.isRegister address = true
    · simp [hnew, Provenance.sources, hloads]
    · simp [hnew]
  | false => simp [hloads]

theorem reloads_store (d : Dataflow) (address value other : String) :
    (d.store address value).reloads other = d.reloads other := by
  simp only [reloads, usesOf_store, List.filter_append, List.map_append]
  split <;> simp [loadsFrom]

theorem applyAll_concat (d : Dataflow) (ops : List Operation) (op : Operation) :
    d.applyAll (ops ++ [op]) = op.apply (d.applyAll ops) := by
  simp [applyAll]

theorem definitionsIn_concat (ops : List Operation) (op : Operation) :
    definitionsIn (ops ++ [op]) = definitionsIn ops ++ op.definition?.toList := by
  cases op <;> simp [definitionsIn, Operation.definition?, List.filterMap]

theorem storesIn_concat (ops : List Operation) (op : Operation) :
    storesIn (ops ++ [op]) = storesIn ops ++ op.store?.toList := by
  cases op <;> simp [storesIn, Operation.store?, List.filterMap]

theorem definition?_applyAll (ops : List Operation) (register : String) :
    (empty.applyAll ops).definition? register = (definitionsIn ops).lookup register := by
  induction ops using List.reverseRecOn with
  | nil => rfl
  | append_singleton ops op ih =>
    rw [applyAll_concat, definitionsIn_concat, List.lookup_append, ← ih]
    cases op with
    | define other provenance =>
      exact definition?_define_or _ _ _ _
    | store address value => exact (Option.or_none).symm
    | ret value => exact (Option.or_none).symm

theorem storedValues_applyAll (ops : List Operation) (address : String) :
    (empty.applyAll ops).storedValues address =
      ((storesIn ops).filter fun store => store.1 == address).map (·.2) := by
  induction ops using List.reverseRecOn with
  | nil => rfl
  | append_singleton ops op ih =>
    rw [applyAll_concat, storesIn_concat, List.filter_append, List.map_append, ← ih]
    cases op with
    | define register provenance =>
      exact (storedValues_define _ _ _ _).trans (List.append_nil _).symm
    | store other value =>
      rw [Operation.apply, storedValues_store]
      by_cases hother : other = address
      · simp [hother, Operation.store?]
      · simp [hother, Operation.store?]
    | ret value => exact (List.append_nil _).symm

theorem keys_applyAll (ops : List Operation) :
    (empty.applyAll ops).definitions.keys = ((definitionsIn ops).map (·.1)).eraseDups := by
  induction ops using List.reverseRecOn with
  | nil => rfl
  | append_singleton ops op ih =>
    rw [applyAll_concat, definitionsIn_concat, List.map_append, List.eraseDups_append, ← ih]
    cases op with
    | define register provenance =>
      have hkey : (empty.applyAll ops).definition? register = none ↔
          register ∉ (definitionsIn ops).map (·.1) := by
        rw [← List.mem_eraseDups, ← ih, Table.mem_keys_iff, Bool.not_eq_true,
          Table.contains_eq_false_iff, definition?]
      rw [Operation.apply, keys_define]
      have hsingle : [register].eraseDups = [register] := by simp [List.eraseDups_cons]
      by_cases hnew : (empty.applyAll ops).definition? register = none
      · simp [hnew, hkey.mp hnew, Operation.definition?, List.removeAll, hsingle]
      · have hold : register ∈ (definitionsIn ops).map (·.1) := by
          rwa [hkey, Classical.not_not] at hnew
        simp only [hnew, if_false]
        simp [hold, Operation.definition?, List.removeAll]
    | store address value => exact (List.append_nil _).symm
    | ret value => exact (List.append_nil _).symm

-- A use stands among the uses of a name as often as the standing definition reads the name, and as
-- often as the name was stored to the address.
theorem count_usesOf_applyAll (ops : List Operation) (name register : String)
    (provenance : Provenance) :
    ((empty.applyAll ops).usesOf name).count ⟨register, provenance⟩ =
      if Operand.isRegister name = true then
        (if (empty.applyAll ops).definition? register = some provenance then
          provenance.sources.count name else 0) +
        (if provenance = .storedFrom name then
          ((empty.applyAll ops).storedValues register).count name else 0)
      else 0 := by
  induction ops using List.reverseRecOn with
  | nil =>
    have hnone : (empty.applyAll []).definition? register = none := rfl
    have huses : (empty.applyAll []).usesOf name = [] := rfl
    have hstored : (empty.applyAll []).storedValues register = [] := rfl
    simp [hnone, huses, hstored]
  | append_singleton ops op ih =>
    rw [applyAll_concat]
    generalize empty.applyAll ops = d at ih
    cases op with
    | define other read =>
      simp only [Operation.apply, usesOf_define, List.count_append, ih, storedValues_define,
        definition?_define_or, List.count_replicate, List.lookup_cons, List.lookup_nil]
      by_cases hregister : register = other
      · subst hregister
        cases hstanding : d.definition? register with
        | some standing => simp
        | none =>
          by_cases hread : read = provenance
          · subst hread
            simp only [true_and, BEq.rfl, if_true, Option.none_or, reduceCtorEq,
              if_false, Nat.zero_add]
            split <;> omega
          · simp [hread]
      · simp [Ne.symm hregister, beq_eq_false_iff_ne.mpr hregister]
    | store address value =>
      have hstanding : (d.store address value).definition? register = d.definition? register := rfl
      simp only [Operation.apply, count_usesOf_store, storedValues_store, hstanding, ih,
        List.count_append]
      cases Operand.isRegister name with
      | false => simp
      | true => by_cases hstored : provenance = .storedFrom name <;> simp [hstored, Nat.add_assoc]
    | ret value => exact ih

theorem reloads_applyAll (ops : List Operation) {address : String}
    (haddress : Operand.isRegister address = true) :
    (empty.applyAll ops).reloads address =
      (empty.applyAll ops).definitions.keys.filter fun register =>
        decide (∃ isPointer,
          (empty.applyAll ops).definition? register = some (.loadedFrom address isPointer)) := by
  induction ops using List.reverseRecOn with
  | nil => rfl
  | append_singleton ops op ih =>
    rw [applyAll_concat]
    generalize empty.applyAll ops = d at ih
    cases op with
    | define other read =>
      -- the definitions that stand are not touched
      have hold : d.definitions.keys.filter (fun register => decide (∃ isPointer,
          (d.define other read).definition? register = some (.loadedFrom address isPointer))) =
          d.reloads address := by
        rw [ih]
        apply List.filter_congr
        intro register hregister
        obtain ⟨standing, hstanding⟩ := Table.contains_iff.mp (Table.mem_keys_iff.mp hregister)
        have hsome : d.definition? register = some standing := hstanding
        simp only [definition?_define_or, hsome, Option.some_or]
      rw [Operation.apply, reloads_define, keys_define, List.filter_append, hold]
      cases hnew : d.definition? other with
      | some standing => simp
      | none =>
        have hread : (d.define other read).definition? other = some read := by
          simp [definition?_define_or, hnew]
        simp [haddress, hread, List.filter_singleton, loadsFrom_iff]
    | store other value => exact (reloads_store d other value address).trans ih
    | ret value => exact ih

-- However a data flow is recorded, its index of uses is the inverse of what stands in it. Of
-- several definitions of a register the first one stands, literals are not used anywhere, and the
-- reloads of an address are the registers that are defined as loads from it.
theorem uses_applyAll (ops : List Operation) :
    let d := empty.applyAll ops
    (∀ register, d.definition? register = (definitionsIn ops).lookup register) ∧
    (∀ address, d.storedValues address =
      ((storesIn ops).filter fun store => store.1 == address).map (·.2)) ∧
    (∀ name register provenance, (d.usesOf name).count ⟨register, provenance⟩ =
      if Operand.isRegister name = true then
        (if d.definition? register = some provenance then provenance.sources.count name else 0) +
        (if provenance = .storedFrom name then (d.storedValues register).count name else 0)
      else 0) ∧
    ∀ address, Operand.isRegister address = true →
      d.reloads address = ((definitionsIn ops).map (·.1)).eraseDups.filter fun register =>
        decide (∃ isPointer, d.definition? register = some (.loadedFrom address isPointer)) := by
  intro d
  refine ⟨definition?_applyAll ops, storedValues_applyAll ops, count_usesOf_applyAll ops, ?_⟩
  intro address haddress
  rw [← keys_applyAll]
  exact reloads_applyAll ops haddress

end TestFocus.Dataflow
