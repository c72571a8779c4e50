import TestFocus.Mutation.Result
import TestFocus.Proofs.Mutation.AliasSteps
import TestFocus.Proofs.Table

namespace TestFocus.Mutation

-- The values that a register gets its value from, the last one first.
def sourcesOf (d : Dataflow) (register : String) : List String :=
  match d.definition? register with
  | some (.loadedFrom address _) => (d.storedValues address).reverse
  | some (.converted source) => [source]
  | some (.assigned sources) => sources.reverse
  | _ => []

-- What the definitions of registers other than those in `seen` can put on the worklist.
def sourcesLeft (d : Dataflow) (seen : List String) : Nat :=
  d.definitions.weightOutside (fun definition => countStores d + definition.sources.length) seen

theorem sourcesLeft_nil (d : Dataflow) :
    sourcesLeft d [] = d.definitions.size * countStores d + countSources d := by
  have hfilter : (d.definitions.entries.filter fun e => !([] : List String).contains e.1) =
      d.definitions.entries := by simp
  rw [countSources, foldl_add_eq_sum fun e : String × Provenance => e.2.sources.length,
    Nat.zero_add, sourcesLeft, Table.weightOutside, hfilter, List.sum_map_add, List.map_const',
    List.sum_replicate_nat, Table.size]

theorem length_storedValues_le (d : Dataflow) (address : String) :
    (d.storedValues address).length ≤ countStores d := by
  have htotal : d.stores.weightOutside List.length [] = countStores d := by
    rw [countStores, foldl_add_eq_sum fun e : String × List String => e.2.length, Nat.zero_add]
    simp [Table.weightOutside]
  cases hstored : d.stores.get? address with
  | none => simp [Dataflow.storedValues, hstored]
  | some values =>
    have hle := Table.add_weightOutside_le List.length hstored (List.not_mem_nil (a := address))
    rw [htotal] at hle
    simp only [Dataflow.storedValues, hstored, Option.getD_some]
    omega

-- Handling a register uses up its definition.
theorem sourcesOf_add_sourcesLeft_le (d : Dataflow) {seen : List String} {register : String}
    (h : register ∉ seen) :
    (sourcesOf d register).length + sourcesLeft d (register :: seen) ≤ sourcesLeft d seen := by
  cases hdefinition : d.definitions.get? register with
  | none =>
    have hle := d.definitions.weightOutside_cons_le
      (fun definition => countStores d + definition.sources.length) seen register
    simpa [sourcesOf, Dataflow.definition?, hdefinition, sourcesLeft] using hle
  | some definition =>
    have hle := Table.add_weightOutside_le
      (fun definition => countStores d + definition.sources.length) hdefinition h
    have hlength : (sourcesOf d register).length ≤ countStores d + definition.sources.length := by
      simp only [sourcesOf, Dataflow.definition?, hdefinition]
      cases definition with
      | loadedFrom address isPointer =>
        have hstored := length_storedValues_le d address
        simp only [List.length_reverse]
        omega
      | converted source => simp [Provenance.sources]
      | assigned sources => simp [Provenance.sources]
      | storedFrom | referencedFrom | computed | callResult => simp
    simp only [sourcesLeft]
    omega

-- Enough steps to empty the worklist.
def SourceStepsSuffice (d : Dataflow) (steps : Nat) (seen worklist : List String) : Prop :=
  worklist.length + sourcesLeft d seen ≤ steps

theorem sourceStepsSuffice_start (d : Dataflow) (value : String) :
    SourceStepsSuffice d (sourceSteps d) [] [value] := by
  rw [SourceStepsSuffice, sourcesLeft_nil, sourceSteps]
  simp only [List.length_singleton]
  omega

theorem SourceStepsSuffice.exists_succ {d : Dataflow} {steps : Nat} {seen worklist : List String}
    {value : String} (h : SourceStepsSuffice d steps seen (value :: worklist)) :
    ∃ left, steps = left + 1 := by
  simp only [SourceStepsSuffice, List.length_cons] at h
  exact ⟨steps - 1, by omega⟩

theorem SourceStepsSuffice.skip {d : Dataflow} {steps : Nat} {seen worklist : List String}
    {value : String} (h : SourceStepsSuffice d (steps + 1) seen (value :: worklist)) :
    SourceStepsSuffice d steps seen worklist := by
  simp only [SourceStepsSuffice, List.length_cons] at h ⊢
  omega

theorem SourceStepsSuffice.handle {d : Dataflow} {steps : Nat} {seen worklist : List String}
    {register : String} (h : SourceStepsSuffice d (steps + 1) seen (register :: worklist))
    (hnew : register ∉ seen) :
    SourceStepsSuffice d steps (register :: seen) (sourcesOf d register ++ worklist) := by
  have hsources := sourcesOf_add_sourcesLeft_le d hnew
  simp only [SourceStepsSuffice, List.length_cons, List.length_append] at h ⊢
  omega

end TestFocus.Mutation
