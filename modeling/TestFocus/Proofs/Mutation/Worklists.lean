import TestFocus.Proofs.Mutation.Comparison
import TestFocus.Proofs.Mutation.SourceSteps

-- The loops that inspect a body, with no bound on their steps. Each of them is given as a
-- relation: the questions it asks with the verdicts on them, the names it handles, and the
-- verdict it ends with. The bounds of the classifier are never what stops them, and no name is
-- handled twice.

namespace TestFocus.Mutation

open Inquiry

section Aliases

variable {inspect : Call → Nat → Inquiry Verdict} {body : Body} {calls : List (Nat × Call)}
  {seen worklist handled : List String} {verdict v : Verdict} {log : Log}

-- The loop over the aliases of a reference, from the names that were handled before and a worklist.
inductive AliasLoop (inspect : Call → Nat → Inquiry Verdict) (body : Body)
    (calls : List (Nat × Call)) : (seen worklist : List String) → Verdict → Log →
    (handled : List String) → Verdict → Prop
  | finished {seen : List String} {verdict : Verdict} :
      AliasLoop inspect body calls seen [] verdict [] [] verdict
  | skipped {seen worklist handled : List String} {name : String} {verdict v : Verdict} {log : Log}
      (known : name ∈ seen)
      (rest : AliasLoop inspect body calls seen worklist verdict log handled v) :
      AliasLoop inspect body calls seen (name :: worklist) verdict log handled v
  | stored {seen worklist : List String} {name : String} {verdict : Verdict} (new : name ∉ seen)
      (stored : body.dataflow.isStoredThrough name = true) :
      AliasLoop inspect body calls seen (name :: worklist) verdict [] [name]
        { verdict with kind := .mutator }
  | mutated {seen worklist : List String} {name : String} {verdict : Verdict} {log : Log}
      (new : name ∉ seen) (kept : body.dataflow.isStoredThrough name = false)
      (pass : Leads (passAlias inspect body (passings calls name) verdict.kind worklist) log
        (.done none)) :
      AliasLoop inspect body calls seen (name :: worklist) verdict log [name]
        ⟨.mutator, verdict.isReturned || body.dataflow.isReturned name⟩
  | passed {seen worklist worklist' handled : List String} {name : String} {verdict v : Verdict}
      {kind : MutationKind} {first second : Log} (new : name ∉ seen)
      (kept : body.dataflow.isStoredThrough name = false)
      (pass : Leads (passAlias inspect body (passings calls name) verdict.kind worklist) first
        (.done (some (kind, worklist'))))
      (rest : AliasLoop inspect body calls (name :: seen)
        ((aliasesOf body.dataflow name).reverse ++ worklist')
        ⟨kind, verdict.isReturned || body.dataflow.isReturned name⟩ second handled v) :
      AliasLoop inspect body calls seen (name :: worklist) verdict (first ++ second)
        (name :: handled) v

-- A name that is handled was not seen before, and is seen afterwards.
theorem nodup_cons_of_forall_not_mem {name : String} (hnew : name ∉ seen)
    (h : handled.Nodup ∧ ∀ other ∈ handled, other ∉ name :: seen) :
    (name :: handled).Nodup ∧ ∀ other ∈ name :: handled, other ∉ seen := by
  obtain ⟨hnodup, houtside⟩ := h
  refine ⟨List.nodup_cons.mpr ⟨fun hmem => houtside name hmem List.mem_cons_self, hnodup⟩, ?_⟩
  exact List.forall_mem_cons.mpr ⟨hnew, fun other hother =>
    mt (List.mem_cons_of_mem _) (houtside other hother)⟩

theorem nodup_singleton_of_not_mem {name : String} (hnew : name ∉ seen) :
    [name].Nodup ∧ ∀ other ∈ [name], other ∉ seen :=
  nodup_cons_of_forall_not_mem hnew ⟨List.nodup_nil, nofun⟩

theorem AliasLoop.nodup (h : AliasLoop inspect body calls seen worklist verdict log handled v) :
    handled.Nodup ∧ ∀ name ∈ handled, name ∉ seen := by
  induction h with
  | finished => exact ⟨List.nodup_nil, nofun⟩
  | skipped _ _ ih => exact ih
  | stored hnew _ => exact nodup_singleton_of_not_mem hnew
  | mutated hnew _ _ => exact nodup_singleton_of_not_mem hnew
  | passed hnew _ _ _ ih => exact nodup_cons_of_forall_not_mem hnew ih

-- The walk of the classifier is this loop.
theorem exists_aliasLoop (hdirect : Direct inspect) {steps : Nat}
    (hsteps : StepsSuffice body.dataflow calls steps seen worklist)
    (h : Leads (walkAliases inspect body calls steps seen worklist verdict) log (.done v)) :
    ∃ handled, AliasLoop inspect body calls seen worklist verdict log handled v := by
  induction steps generalizing seen worklist verdict log with
  | zero =>
    have hlength : worklist.length = 0 := by
      simp only [StepsSuffice] at hsteps
      omega
    obtain rfl := List.length_eq_zero_iff.mp hlength
    obtain ⟨rfl, hv⟩ := leads_done_iff.mp h
    cases hv
    exact ⟨[], .finished⟩
  | succ steps ih =>
    cases worklist with
    | nil =>
      obtain ⟨rfl, hv⟩ := leads_done_iff.mp h
      cases hv
      exact ⟨[], .finished⟩
    | cons name worklist =>
      obtain ⟨hseen, hnext⟩ | ⟨hnew, hstored, rfl, rfl⟩ | ⟨hnew, hstored, hpass, rfl⟩ |
        ⟨hnew, hstored, first, second, kind, worklist', rfl, hpass, hnext⟩ := walkAliases_step h
      · obtain ⟨handled, hloop⟩ := ih hsteps.skip hnext
        exact ⟨handled, .skipped hseen hloop⟩
      · exact ⟨[name], .stored hnew hstored⟩
      · exact ⟨[name], .mutated hnew hstored hpass⟩
      · have hsteps' := hsteps.handle hnew (length_of_passAlias_some hdirect hpass)
        obtain ⟨handled, hloop⟩ := ih hsteps' hnext
        exact ⟨name :: handled, .passed hnew hstored hpass hloop⟩

-- The loop is what the walk does with any number of steps that suffices.
theorem AliasLoop.leads (hdirect : Direct inspect)
    (h : AliasLoop inspect body calls seen worklist verdict log handled v) {steps : Nat}
    (hsteps : StepsSuffice body.dataflow calls steps seen worklist) :
    Leads (walkAliases inspect body calls steps seen worklist verdict) log (.done v) := by
  induction h generalizing steps with
  | finished =>
    cases steps <;> exact .here _
  | @skipped _ _ _ _ _ _ _ hknown _ ih =>
    obtain ⟨steps, rfl⟩ := hsteps.exists_succ
    rw [walkAliases, if_pos (by simpa using hknown)]
    exact ih hsteps.skip
  | stored hnew hstored =>
    obtain ⟨steps, rfl⟩ := hsteps.exists_succ
    rw [walkAliases, if_neg (by simpa using hnew), if_pos hstored]
    exact .here _
  | mutated hnew hkept hpass =>
    obtain ⟨steps, rfl⟩ := hsteps.exists_succ
    rw [walkAliases, if_neg (by simpa using hnew), if_neg (by simp [hkept])]
    exact leads_bind_done_iff.mpr ⟨_, [], none, (List.append_nil _).symm, hpass, .here _⟩
  | passed hnew hkept hpass _ ih =>
    obtain ⟨steps, rfl⟩ := hsteps.exists_succ
    rw [walkAliases, if_neg (by simpa using hnew), if_neg (by simp [hkept])]
    have hrest := ih (hsteps.handle hnew (length_of_passAlias_some hdirect hpass))
    exact leads_bind_done_iff.mpr ⟨_, _, some _, rfl, hpass, hrest⟩

-- With the same verdicts it handles the same names.
theorem AliasLoop.unique (h : AliasLoop inspect body calls seen worklist verdict log handled v)
    {log' : Log} {handled' : List String} {v' : Verdict} (heq : log = log')
    (h' : AliasLoop inspect body calls seen worklist verdict log' handled' v') :
    handled = handled' := by
  induction h generalizing log' handled' v' with
  | finished =>
    cases h'
    rfl
  | skipped hknown _ ih =>
    cases h' with
    | skipped _ hrest => exact ih heq hrest
    | stored hnew _ | mutated hnew _ _ | passed hnew _ _ _ => exact absurd hknown hnew
  | stored hnew hstored =>
    cases h' with
    | skipped hknown _ => exact absurd hknown hnew
    | stored _ _ => rfl
    | mutated _ hkept _ | passed _ hkept _ _ => simp [hstored] at hkept
  | mutated hnew hkept hpass =>
    cases h' with
    | skipped hknown _ => exact absurd hknown hnew
    | stored _ hstored => simp [hkept] at hstored
    | mutated _ _ _ => rfl
    | passed _ _ hpass' _ =>
      have hsame := (hpass.unique hpass' ((List.append_nil _).trans heq)).2.1
      cases hsame
  | passed hnew hkept hpass _ ih =>
    cases h' with
    | skipped hknown _ => exact absurd hknown hnew
    | stored _ hstored => simp [hkept] at hstored
    | mutated _ _ hpass' =>
      have hsame := (hpass.unique hpass' (heq.trans (List.append_nil _).symm)).2.1
      cases hsame
    | passed _ _ hpass' hrest =>
      obtain ⟨-, hsame, hsecond⟩ := hpass.unique hpass' heq
      cases hsame
      rw [ih hsecond hrest]

end Aliases

section Sources

variable {p : Program} {body : Body} {seen worklist handled : List String} {verdict v : Verdict}
  {log : Log}

-- A value that is the address of a part of something is handed back as a reference to it.
def throughDefinition (verdict : Verdict) : Option Provenance → Verdict
  | some (.referencedFrom _) => { verdict with isReturned := true }
  | _ => verdict

-- The loop over the values that a returned value comes from.
inductive SourceLoop (p : Program) (body : Body) : (seen worklist : List String) → Verdict → Log →
    (handled : List String) → Verdict → Prop
  | finished {seen : List String} {verdict : Verdict} :
      SourceLoop p body seen [] verdict [] [] verdict
  | skipped {seen worklist handled : List String} {value : String} {verdict v : Verdict} {log : Log}
      (known : Operand.isRegister value = false ∨ value ∈ seen)
      (rest : SourceLoop p body seen worklist verdict log handled v) :
      SourceLoop p body seen (value :: worklist) verdict log handled v
  | computed {seen worklist values : List String} {value : String} {verdict : Verdict}
      (register : Operand.isRegister value = true) (new : value ∉ seen)
      (computation : body.dataflow.definition? value = some (.computed values)) :
      SourceLoop p body seen (value :: worklist) verdict [] [value] .mutator
  | moved {seen worklist handled : List String} {value : String} {verdict v : Verdict} {log : Log}
      (register : Operand.isRegister value = true) (new : value ∉ seen)
      (plain : ∀ values, body.dataflow.definition? value ≠ some (.computed values))
      (uncalled : ∀ node, body.dataflow.definition? value = some (.callResult node) →
        body.call? node = none)
      (rest : SourceLoop p body (value :: seen) (sourcesOf body.dataflow value ++ worklist)
        (throughDefinition verdict (body.dataflow.definition? value)) log handled v) :
      SourceLoop p body seen (value :: worklist) verdict log (value :: handled) v
  | mutated {seen worklist : List String} {value : String} {verdict : Verdict} {log : Log}
      {node : Nat} {call : Call} {kind : MutationKind}
      (register : Operand.isRegister value = true) (new : value ∉ seen)
      (result : body.dataflow.definition? value = some (.callResult node))
      (called : body.call? node = some call)
      (contribution : Leads (callKindOfResult p askResult call) log (.done kind))
      (mutates : verdict.kind.merge kind = .mutator) :
      SourceLoop p body seen (value :: worklist) verdict log [value]
        { verdict with kind := .mutator }
  | passed {seen worklist handled : List String} {value : String} {verdict v : Verdict}
      {first second : Log} {node : Nat} {call : Call} {kind : MutationKind}
      (register : Operand.isRegister value = true) (new : value ∉ seen)
      (result : body.dataflow.definition? value = some (.callResult node))
      (called : body.call? node = some call)
      (contribution : Leads (callKindOfResult p askResult call) first (.done kind))
      (harmless : verdict.kind.merge kind ≠ .mutator)
      (rest : SourceLoop p body (value :: seen) worklist
        { verdict with kind := verdict.kind.merge kind } second handled v) :
      SourceLoop p body seen (value :: worklist) verdict (first ++ second) (value :: handled) v

theorem SourceLoop.nodup (h : SourceLoop p body seen worklist verdict log handled v) :
    handled.Nodup ∧ ∀ value ∈ handled, value ∉ seen := by
  induction h with
  | finished => exact ⟨List.nodup_nil, nofun⟩
  | skipped _ _ ih => exact ih
  | computed _ hnew _ => exact nodup_singleton_of_not_mem hnew
  | moved _ hnew _ _ _ ih => exact nodup_cons_of_forall_not_mem hnew ih
  | mutated _ hnew _ _ _ _ => exact nodup_singleton_of_not_mem hnew
  | passed _ hnew _ _ _ _ _ ih => exact nodup_cons_of_forall_not_mem hnew ih

section Step

variable {steps : Nat} {value : String}

theorem walkSources_known (hknown : Operand.isRegister value = false ∨ value ∈ seen) :
    walkSources p askResult body (steps + 1) seen (value :: worklist) verdict =
      walkSources p askResult body steps seen worklist verdict := by
  have hif : (!Operand.isRegister value || seen.contains value) = true := by simpa using hknown
  rw [walkSources, if_pos hif]

variable (hregister : Operand.isRegister value = true) (hnew : value ∉ seen)

include hregister hnew

theorem not_known : ¬(!Operand.isRegister value || seen.contains value) = true := by
  simpa using ⟨hregister, hnew⟩

theorem walkSources_computed {values : List String}
    (hcomputed : body.dataflow.definition? value = some (.computed values)) :
    walkSources p askResult body (steps + 1) seen (value :: worklist) verdict = .done .mutator := by
  simp only [walkSources, if_neg (not_known hregister hnew), hcomputed]
  rfl

-- The sources of a value that is neither a computation nor the result of a call are what is left.
theorem walkSources_moved
    (hplain : ∀ values, body.dataflow.definition? value ≠ some (.computed values))
    (huncalled : ∀ node, body.dataflow.definition? value = some (.callResult node) →
      body.call? node = none) :
    walkSources p askResult body (steps + 1) seen (value :: worklist) verdict =
      walkSources p askResult body steps (value :: seen)
        (sourcesOf body.dataflow value ++ worklist)
        (throughDefinition verdict (body.dataflow.definition? value)) := by
  rw [walkSources, if_neg (not_known hregister hnew)]
  cases hdefinition : body.dataflow.definition? value with
  | none => simp only [sourcesOf, hdefinition, throughDefinition, List.nil_append]
  | some definition =>
    cases definition with
    | computed values => exact absurd hdefinition (hplain values)
    | callResult node =>
      simp only [sourcesOf, hdefinition, throughDefinition, List.nil_append,
        huncalled node hdefinition]
    | storedFrom | loadedFrom | converted | referencedFrom | assigned =>
      simp only [sourcesOf, hdefinition, throughDefinition, List.nil_append,
        List.singleton_append]

theorem walkSources_call {node : Nat} {call : Call}
    (hresult : body.dataflow.definition? value = some (.callResult node))
    (hcalled : body.call? node = some call) :
    walkSources p askResult body (steps + 1) seen (value :: worklist) verdict =
      (callKindOfResult p askResult call).bind fun kind =>
        if verdict.kind.merge kind = .mutator then .done { verdict with kind := .mutator }
        else walkSources p askResult body steps (value :: seen) worklist
          { verdict with kind := verdict.kind.merge kind } := by
  simp only [walkSources, if_neg (not_known hregister hnew), hresult, hcalled, bind_eq]
  congr 1
  funext kind
  by_cases hmutates : verdict.kind.merge kind = .mutator
  · rw [if_pos hmutates, if_pos (by simpa using hmutates), hmutates]
    rfl
  · rw [if_neg hmutates, if_neg (by simpa using hmutates)]

end Step

theorem exists_sourceLoop {steps : Nat}
    (hsteps : SourceStepsSuffice body.dataflow steps seen worklist)
    (h : Leads (walkSources p askResult body steps seen worklist verdict) log (.done v)) :
    ∃ handled, SourceLoop p body seen worklist verdict log handled v := by
  induction steps generalizing seen worklist verdict log with
  | zero =>
    have hlength : worklist.length = 0 := by
      simp only [SourceStepsSuffice] at hsteps
      omega
    obtain rfl := List.length_eq_zero_iff.mp hlength
    obtain ⟨rfl, hv⟩ := leads_done_iff.mp h
    cases hv
    exact ⟨[], .finished⟩
  | succ steps ih =>
    cases worklist with
    | nil =>
      obtain ⟨rfl, hv⟩ := leads_done_iff.mp h
      cases hv
      exact ⟨[], .finished⟩
    | cons value worklist =>
      by_cases hknown : Operand.isRegister value = false ∨ value ∈ seen
      · rw [walkSources_known hknown] at h
        obtain ⟨handled, hloop⟩ := ih hsteps.skip h
        exact ⟨handled, .skipped hknown hloop⟩
      obtain ⟨hregister, hnew⟩ : Operand.isRegister value = true ∧ value ∉ seen := by
        simpa using hknown
      by_cases hcomputed : ∃ values, body.dataflow.definition? value = some (.computed values)
      · obtain ⟨values, hcomputed⟩ := hcomputed
        rw [walkSources_computed hregister hnew hcomputed] at h
        obtain ⟨rfl, hv⟩ := leads_done_iff.mp h
        cases hv
        exact ⟨[value], .computed hregister hnew hcomputed⟩
      by_cases hcall : ∃ node call, body.dataflow.definition? value = some (.callResult node) ∧
          body.call? node = some call
      · obtain ⟨node, call, hresult, hcalled⟩ := hcall
        rw [walkSources_call hregister hnew hresult hcalled] at h
        obtain ⟨first, second, kind, rfl, hkind, hnext⟩ := leads_bind_done_iff.mp h
        split at hnext
        · next hmutates =>
          obtain ⟨rfl, hv⟩ := leads_done_iff.mp hnext
          cases hv
          rw [List.append_nil]
          exact ⟨[value], .mutated hregister hnew hresult hcalled hkind hmutates⟩
        · next hharmless =>
          have hsteps' := hsteps.handle hnew
          simp only [sourcesOf, hresult, List.nil_append] at hsteps'
          obtain ⟨handled, hloop⟩ := ih hsteps' hnext
          exact ⟨value :: handled, .passed hregister hnew hresult hcalled hkind hharmless hloop⟩
      · have hplain (values : List String) :
            body.dataflow.definition? value ≠ some (.computed values) :=
          fun heq => hcomputed ⟨values, heq⟩
        have huncalled (node : Nat)
            (hresult : body.dataflow.definition? value = some (.callResult node)) :
            body.call? node = none :=
          Option.eq_none_iff_forall_ne_some.mpr fun call hcalled =>
            hcall ⟨node, call, hresult, hcalled⟩
        rw [walkSources_moved hregister hnew hplain huncalled] at h
        obtain ⟨handled, hloop⟩ := ih (hsteps.handle hnew) h
        exact ⟨value :: handled, .moved hregister hnew hplain huncalled hloop⟩

theorem SourceLoop.leads (h : SourceLoop p body seen worklist verdict log handled v) {steps : Nat}
    (hsteps : SourceStepsSuffice body.dataflow steps seen worklist) :
    Leads (walkSources p askResult body steps seen worklist verdict) log (.done v) := by
  induction h generalizing steps with
  | finished => cases steps <;> exact .here _
  | skipped hknown _ ih =>
    obtain ⟨steps, rfl⟩ := hsteps.exists_succ
    rw [walkSources_known hknown]
    exact ih hsteps.skip
  | computed hregister hnew hcomputed =>
    obtain ⟨steps, rfl⟩ := hsteps.exists_succ
    rw [walkSources_computed hregister hnew hcomputed]
    exact .here _
  | moved hregister hnew hplain huncalled _ ih =>
    obtain ⟨steps, rfl⟩ := hsteps.exists_succ
    rw [walkSources_moved hregister hnew hplain huncalled]
    exact ih (hsteps.handle hnew)
  | mutated hregister hnew hresult hcalled hcontribution hmutates =>
    obtain ⟨steps, rfl⟩ := hsteps.exists_succ
    rw [walkSources_call hregister hnew hresult hcalled]
    refine leads_bind_done_iff.mpr ⟨_, [], _, (List.append_nil _).symm, hcontribution, ?_⟩
    rw [if_pos hmutates]
    exact .here _
  | passed hregister hnew hresult hcalled hcontribution hharmless _ ih =>
    obtain ⟨steps, rfl⟩ := hsteps.exists_succ
    have hsteps' := hsteps.handle hnew
    simp only [sourcesOf, hresult, List.nil_append] at hsteps'
    rw [walkSources_call hregister hnew hresult hcalled]
    refine leads_bind_done_iff.mpr ⟨_, _, _, rfl, hcontribution, ?_⟩
    rw [if_neg hharmless]
    exact ih hsteps'

-- A call that defines a value is the only one, and contributes one kind.
theorem contribution_unique {value : String} {node node' : Nat} {call call' : Call}
    {kind kind' : MutationKind} {first first' second second' : Log}
    (hresult : body.dataflow.definition? value = some (.callResult node))
    (hresult' : body.dataflow.definition? value = some (.callResult node'))
    (hcalled : body.call? node = some call) (hcalled' : body.call? node' = some call')
    (hfirst : Leads (callKindOfResult p askResult call) first (.done kind))
    (hfirst' : Leads (callKindOfResult p askResult call') first' (.done kind'))
    (heq : first ++ second = first' ++ second') : kind = kind' ∧ second = second' := by
  rw [hresult] at hresult'
  cases hresult'
  rw [hcalled] at hcalled'
  cases hcalled'
  exact (hfirst.unique hfirst' heq).2

theorem SourceLoop.unique (h : SourceLoop p body seen worklist verdict log handled v)
    {log' : Log} {handled' : List String} {v' : Verdict} (heq : log = log')
    (h' : SourceLoop p body seen worklist verdict log' handled' v') : handled = handled' := by
  induction h generalizing log' handled' v' with
  | finished =>
    cases h'
    rfl
  | skipped hknown _ ih =>
    cases h' with
    | skipped _ hrest => exact ih heq hrest
    | computed hregister hnew _ | moved hregister hnew _ _ _ | mutated hregister hnew _ _ _ _
    | passed hregister hnew _ _ _ _ _ => simp [hregister, hnew] at hknown
  | computed hregister hnew hcomputed =>
    cases h' with
    | skipped hknown _ => simp [hregister, hnew] at hknown
    | computed _ _ _ => rfl
    | moved _ _ hplain _ _ => exact absurd hcomputed (hplain _)
    | mutated _ _ hresult _ _ _ | passed _ _ hresult _ _ _ _ => simp [hcomputed] at hresult
  | moved hregister hnew hplain huncalled _ ih =>
    cases h' with
    | skipped hknown _ => simp [hregister, hnew] at hknown
    | computed _ _ hcomputed => exact absurd hcomputed (hplain _)
    | moved _ _ _ _ hrest => rw [ih heq hrest]
    | mutated _ _ hresult hcalled _ _ | passed _ _ hresult hcalled _ _ _ =>
      simp [huncalled _ hresult] at hcalled
  | mutated hregister hnew hresult hcalled hfirst hmutates =>
    cases h' with
    | skipped hknown _ => simp [hregister, hnew] at hknown
    | computed _ _ hcomputed => simp [hresult] at hcomputed
    | moved _ _ _ huncalled _ => simp [huncalled _ hresult] at hcalled
    | mutated _ _ _ _ _ _ => rfl
    | passed _ _ hresult' hcalled' hfirst' hharmless _ =>
      obtain ⟨rfl, -⟩ := contribution_unique hresult hresult' hcalled hcalled' hfirst hfirst'
        ((List.append_nil _).trans heq)
      exact absurd hmutates hharmless
  | passed hregister hnew hresult hcalled hfirst hharmless _ ih =>
    cases h' with
    | skipped hknown _ => simp [hregister, hnew] at hknown
    | computed _ _ hcomputed => simp [hresult] at hcomputed
    | moved _ _ _ huncalled _ => simp [huncalled _ hresult] at hcalled
    | mutated _ _ hresult' hcalled' hfirst' hmutates =>
      obtain ⟨rfl, -⟩ := contribution_unique hresult hresult' hcalled hcalled' hfirst hfirst'
        (heq.trans (List.append_nil _).symm)
      exact absurd hmutates hharmless
    | passed _ _ hresult' hcalled' hfirst' _ hrest =>
      obtain ⟨rfl, hsecond⟩ :=
        contribution_unique hresult hresult' hcalled hcalled' hfirst hfirst' heq
      rw [ih hsecond hrest]

end Sources

section Returns

variable {p : Program} {body : Body} {values : List String} {walks : List (List String)}
  {verdict v : Verdict} {log : Log} {x : Question}

-- The loop over the returned values, with one walk for each that is looked at.
inductive ReturnLoop (p : Program) (body : Body) : List String → Verdict → Log →
    (walks : List (List String)) → Verdict → Prop
  | finished {verdict : Verdict} : ReturnLoop p body [] verdict [] [] verdict
  | mutated {value : String} {others handled : List String} {verdict v : Verdict} {log : Log}
      (walk : SourceLoop p body [] [value] .inspector log handled v)
      (mutates : (verdict.merge v).kind = .mutator) :
      ReturnLoop p body (value :: others) verdict log [handled] (verdict.merge v)
  | passed {value : String} {others handled : List String} {verdict v w : Verdict}
      {first second : Log} {walks : List (List String)}
      (walk : SourceLoop p body [] [value] .inspector first handled v)
      (harmless : (verdict.merge v).kind ≠ .mutator)
      (rest : ReturnLoop p body others (verdict.merge v) second walks w) :
      ReturnLoop p body (value :: others) verdict (first ++ second) (handled :: walks) w

theorem ReturnLoop.nodup (h : ReturnLoop p body values verdict log walks v) :
    ∀ walk ∈ walks, walk.Nodup := by
  induction h with
  | finished => exact nofun
  | mutated hwalk _ => exact List.forall_mem_singleton.mpr hwalk.nodup.1
  | passed hwalk _ _ ih => exact List.forall_mem_cons.mpr ⟨hwalk.nodup.1, ih⟩

theorem exists_returnLoop
    (h : Leads (classifyReturns p askResult body values verdict) log (.done v)) :
    ∃ walks, ReturnLoop p body values verdict log walks v := by
  induction values generalizing verdict log with
  | nil =>
    obtain ⟨rfl, hv⟩ := leads_done_iff.mp h
    cases hv
    exact ⟨[], .finished⟩
  | cons value rest ih =>
    simp only [classifyReturns, bind_eq] at h
    obtain ⟨first, second, w, rfl, hwalk, hnext⟩ := leads_bind_done_iff.mp h
    obtain ⟨handled, hloop⟩ :=
      exists_sourceLoop (sourceStepsSuffice_start body.dataflow value) hwalk
    by_cases hmutates : (verdict.merge w).kind = .mutator
    · rw [if_pos (by simpa using hmutates)] at hnext
      obtain ⟨rfl, hv⟩ := leads_done_iff.mp hnext
      cases hv
      rw [List.append_nil]
      exact ⟨[handled], .mutated hloop hmutates⟩
    · rw [if_neg (by simpa using hmutates)] at hnext
      obtain ⟨walks, hrest⟩ := ih hnext
      exact ⟨handled :: walks, .passed hloop hmutates hrest⟩

theorem ReturnLoop.leads (h : ReturnLoop p body values verdict log walks v) :
    Leads (classifyReturns p askResult body values verdict) log (.done v) := by
  induction h with
  | finished => exact .here _
  | mutated hwalk hmutates =>
    have hleads := hwalk.leads (sourceStepsSuffice_start body.dataflow _)
    refine leads_bind_done_iff.mpr ⟨_, [], _, (List.append_nil _).symm, hleads, ?_⟩
    dsimp only
    rw [if_pos (by simpa using hmutates)]
    exact .here _
  | passed hwalk hharmless _ ih =>
    have hleads := hwalk.leads (sourceStepsSuffice_start body.dataflow _)
    refine leads_bind_done_iff.mpr ⟨_, _, _, rfl, hleads, ?_⟩
    dsimp only
    rw [if_neg (by simpa using hharmless)]
    exact ih

theorem ReturnLoop.unique (h : ReturnLoop p body values verdict log walks v) {log' : Log}
    {walks' : List (List String)} {v' : Verdict} (heq : log = log')
    (h' : ReturnLoop p body values verdict log' walks' v') : walks = walks' := by
  have hwalks {value : String} {first first' second second' : Log} {handled handled' : List String}
      {w w' : Verdict} (hwalk : SourceLoop p body [] [value] .inspector first handled w)
      (hwalk' : SourceLoop p body [] [value] .inspector first' handled' w')
      (heq : first ++ second = first' ++ second') :
      handled = handled' ∧ w = w' ∧ second = second' := by
    have hsteps := sourceStepsSuffice_start body.dataflow value
    obtain ⟨hlog, hw, hsecond⟩ := (hwalk.leads hsteps).unique (hwalk'.leads hsteps) heq
    exact ⟨hwalk.unique hlog hwalk', hw, hsecond⟩
  induction h generalizing log' walks' v' with
  | finished =>
    cases h'
    rfl
  | mutated hwalk hmutates =>
    cases h' with
    | mutated hwalk' _ =>
      rw [(hwalks hwalk hwalk' (congrArg (· ++ []) heq)).1]
    | passed hwalk' hharmless _ =>
      obtain ⟨-, rfl, -⟩ := hwalks hwalk hwalk' ((List.append_nil _).trans heq)
      exact absurd hmutates hharmless
  | passed hwalk hharmless _ ih =>
    cases h' with
    | mutated hwalk' hmutates =>
      obtain ⟨-, rfl, -⟩ := hwalks hwalk hwalk' (heq.trans (List.append_nil _).symm)
      exact absurd hmutates hharmless
    | passed hwalk' _ hrest =>
      obtain ⟨rfl, rfl, hsecond⟩ := hwalks hwalk hwalk' heq
      rw [ih hsecond hrest]

-- The inspection of a body for a question about it, with the names that each of its loops handles.
inductive Inspects (p : Program) (body : Body) : Question → Log → (walks : List (List String)) →
    Verdict → Prop
  | argument {function register : String} {log : Log} {handled : List String} {v : Verdict}
      (loop : AliasLoop (callArgument p askArgument) body (p.callsOf body) [] [register] .inspector
        log handled v) :
      Inspects p body (.argument function register) log [handled] v
  | result {function : String} {log : Log} {walks : List (List String)} {v : Verdict}
      (loop : ReturnLoop p body body.dataflow.returns .inspector log walks v) :
      Inspects p body (.result function) log walks v

theorem Inspects.nodup (h : Inspects p body x log walks v) : ∀ walk ∈ walks, walk.Nodup := by
  cases h with
  | argument hloop => exact List.forall_mem_singleton.mpr hloop.nodup.1
  | result hloop => exact hloop.nodup

-- The loops do what the inspection of the classifier does, with the same questions in their order.
theorem leads_inspection_iff :
    Leads (p.inspection body x) log (.done v) ↔ ∃ walks, Inspects p body x log walks v := by
  constructor
  · intro h
    cases x with
    | argument function register =>
      obtain ⟨handled, hloop⟩ := exists_aliasLoop (direct_callArgument p)
        (stepsSuffice_start body.dataflow (p.callsOf body) register) h
      exact ⟨[handled], .argument hloop⟩
    | result function =>
      obtain ⟨walks, hloop⟩ := exists_returnLoop h
      exact ⟨walks, .result hloop⟩
  · rintro ⟨walks, h⟩
    cases h with
    | argument hloop => exact hloop.leads (direct_callArgument p) (stepsSuffice_start _ _ _)
    | result hloop => exact hloop.leads

theorem Inspects.unique (h : Inspects p body x log walks v) {walks' : List (List String)}
    {v' : Verdict} (h' : Inspects p body x log walks' v') : walks = walks' := by
  cases h with
  | argument hloop =>
    cases h' with
    | argument hloop' => rw [hloop.unique rfl hloop']
  | result hloop =>
    cases h' with
    | result hloop' => exact hloop.unique rfl hloop'

end Returns

end TestFocus.Mutation
