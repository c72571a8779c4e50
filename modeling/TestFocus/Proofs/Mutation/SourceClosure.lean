import TestFocus.Proofs.Mutation.AliasWalk
import TestFocus.Proofs.Mutation.SourceSteps

namespace TestFocus

-- A register may get its value from another value: it is loaded from an address that the value was
-- stored to, or it is a cast or a merge of the value.
inductive Dataflow.ComesFrom (d : Dataflow) (register : String) : String → Prop
  | stored {address source : String} {isPointer : Bool}
      (hloaded : d.definition? register = some (.loadedFrom address isPointer))
      (hstored : source ∈ d.storedValues address) : ComesFrom d register source
  | converted {source : String} (hconverted : d.definition? register = some (.converted source)) :
      ComesFrom d register source
  | merged {sources : List String} {source : String}
      (hmerged : d.definition? register = some (.assigned sources)) (hsource : source ∈ sources) :
      ComesFrom d register source

namespace Mutation

-- The values that may become one of `results`.
inductive IsSource (d : Dataflow) (results : List String) : String → Prop
  | result {value : String} (hresult : value ∈ results) : IsSource d results value
  | flow {register source : String} (hregister : IsSource d results register)
      (hname : Operand.isRegister register) (hsource : d.ComesFrom register source) :
      IsSource d results source

-- What one register adds to a result: computing it is the function's own work, and a call of a
-- function that may be looked into adds what the answer says of the function's result.
inductive Contribution (p : Program) (answer : String → Verdict) (body : Body) (register : String) :
    MutationKind → Prop
  | computed {values : List String}
      (hcomputed : body.dataflow.definition? register = some (.computed values)) :
      Contribution p answer body register .mutator
  | call {node : Nat} {call : Call}
      (hresult : body.dataflow.definition? register = some (.callResult node))
      (hcall : body.call? node = some call)
      (hlimits : ¬p.isOffLimits (p.registry.resolve call.callee)) (hdirect : call.isDirect) :
      Contribution p answer body register (answer (p.registry.resolve call.callee)).kind
  | indirectCall {node : Nat} {call : Call}
      (hresult : body.dataflow.definition? register = some (.callResult node))
      (hcall : body.call? node = some call)
      (hlimits : ¬p.isOffLimits (p.registry.resolve call.callee)) (hdirect : ¬call.isDirect) :
      Contribution p answer body register .uncertain

-- What the registers among the sources add.
def SourceContribution (p : Program) (answer : String → Verdict) (body : Body)
    (results : List String) (kind : MutationKind) : Prop :=
  ∃ register, IsSource body.dataflow results register ∧ Operand.isRegister register ∧
    Contribution p answer body register kind

-- The verdict on the result of a function, with the verdicts on the functions that it calls given.
def producedVerdict (p : Program) (answer : String → Verdict) (body : Body) : Verdict :=
  Id.run (classifyReturns p (fun function => answer function) body body.dataflow.returns .inspector)

theorem mem_sourcesOf_iff {d : Dataflow} {register source : String} :
    source ∈ sourcesOf d register ↔ d.ComesFrom register source := by
  constructor
  · intro hmem
    unfold sourcesOf at hmem
    split at hmem
    · next hloaded => exact .stored hloaded (List.mem_reverse.mp hmem)
    · next hconverted =>
      cases List.mem_singleton.mp hmem
      exact .converted hconverted
    · next hmerged => exact .merged hmerged (List.mem_reverse.mp hmem)
    · cases hmem
  · intro h
    cases h with
    | stored hloaded hstored => simpa [sourcesOf, hloaded] using hstored
    | converted hconverted => simp [sourcesOf, hconverted]
    | merged hmerged hsource => simpa [sourcesOf, hmerged] using hsource

section

variable {p : Program} {answer : String → Verdict} {body : Body}

theorem contribution_call_iff {register : String} {node : Nat} {call : Call}
    (hresult : body.dataflow.definition? register = some (.callResult node))
    (hcall : body.call? node = some call) {kind : MutationKind} :
    Contribution p answer body register kind ↔
      ¬p.isOffLimits (p.registry.resolve call.callee) ∧
        kind = if call.isDirect then (answer (p.registry.resolve call.callee)).kind
          else .uncertain := by
  constructor
  · intro h
    cases h with
    | computed hcomputed =>
      rw [hresult] at hcomputed
      cases hcomputed
    | call hresult' hcall' hlimits hdirect =>
      rw [hresult] at hresult'
      cases hresult'
      rw [hcall] at hcall'
      cases hcall'
      exact ⟨hlimits, by rw [if_pos hdirect]⟩
    | indirectCall hresult' hcall' hlimits hdirect =>
      rw [hresult] at hresult'
      cases hresult'
      rw [hcall] at hcall'
      cases hcall'
      exact ⟨hlimits, by rw [if_neg hdirect]⟩
  · rintro ⟨hlimits, rfl⟩
    split
    · next hdirect => exact .call hresult hcall hlimits hdirect
    · next hdirect => exact .indirectCall hresult hcall hlimits hdirect

theorem callKindOfResult_isWorst {register : String} {node : Nat} {call : Call}
    (hresult : body.dataflow.definition? register = some (.callResult node))
    (hcall : body.call? node = some call) :
    (Id.run (callKindOfResult p (fun function => answer function) call)).IsWorst
      (Contribution p answer body register) := by
  by_cases hlimits : p.isOffLimits (p.registry.resolve call.callee)
  · have hkind :
        Id.run (callKindOfResult p (fun function => answer function) call) = .inspector := by
      simp only [callKindOfResult, if_pos hlimits]
      rfl
    rw [hkind]
    exact .of_none fun kind h => ((contribution_call_iff hresult hcall).mp h).1 hlimits
  · have hkind : Id.run (callKindOfResult p (fun function => answer function) call) =
        if call.isDirect then (answer (p.registry.resolve call.callee)).kind else .uncertain := by
      simp only [callKindOfResult, if_neg hlimits]
      split <;> rfl
    rw [hkind]
    refine ⟨.inr ((contribution_call_iff hresult hcall).mpr ⟨hlimits, rfl⟩), fun kind h => ?_⟩
    rw [((contribution_call_iff hresult hcall).mp h).2]

-- A definition that is neither a computation nor a call adds nothing.
theorem not_contribution {register : String} {definition : Option Provenance}
    (h : body.dataflow.definition? register = definition)
    (hcomputed : ∀ values, definition ≠ some (.computed values))
    (hcall : ∀ node call, definition = some (.callResult node) → body.call? node ≠ some call)
    (kind : MutationKind) : ¬Contribution p answer body register kind := by
  subst h
  rintro (h | ⟨h, hcall', -, -⟩ | ⟨h, hcall', -, -⟩)
  · exact hcomputed _ h
  · exact hcall _ _ h hcall'
  · exact hcall _ _ h hcall'

-- The walk on given verdicts.
def sourceWalk (p : Program) (answer : String → Verdict) (body : Body) (steps : Nat)
    (seen worklist : List String) (verdict : Verdict) : Verdict :=
  Id.run (walkSources p (fun function => answer function) body steps seen worklist verdict)

-- What a walk that handles `register` comes to: what the register adds joins the kind, and the walk
-- ends with a mutation or goes on with the sources of the register.
inductive Handles (p : Program) (answer : String → Verdict) (body : Body) (steps : Nat)
    (seen worklist : List String) (register : String) (verdict : Verdict) : Verdict → Prop
  | mutation {kind : MutationKind} {v : Verdict}
      (hworst : kind.IsWorst (Contribution p answer body register))
      (hmerge : verdict.kind.merge kind = .mutator) (hkind : v.kind = .mutator) :
      Handles p answer body steps seen worklist register verdict v
  | goesOn {kind : MutationKind} {returned : Bool} {v : Verdict}
      (hworst : kind.IsWorst (Contribution p answer body register))
      (hv : v = sourceWalk p answer body steps (register :: seen)
        (sourcesOf body.dataflow register ++ worklist) ⟨verdict.kind.merge kind, returned⟩) :
      Handles p answer body steps seen worklist register verdict v

theorem Handles.quiet {steps : Nat} {seen worklist : List String} {register : String}
    {verdict v : Verdict} {definition : Option Provenance} {returned : Bool}
    (hdefinition : body.dataflow.definition? register = definition)
    (hcomputed : ∀ values, definition ≠ some (.computed values))
    (hcall : ∀ node call, definition = some (.callResult node) → body.call? node ≠ some call)
    (hv : v = sourceWalk p answer body steps (register :: seen)
      (sourcesOf body.dataflow register ++ worklist) ⟨verdict.kind, returned⟩) :
    Handles p answer body steps seen worklist register verdict v :=
  .goesOn (.of_none (not_contribution hdefinition hcomputed hcall))
    (by rw [MutationKind.merge_inspector]; exact hv)

theorem sourceWalk_skip {steps : Nat} {seen worklist : List String} {value : String}
    {verdict : Verdict} (h : ¬(Operand.isRegister value ∧ value ∉ seen)) :
    sourceWalk p answer body (steps + 1) seen (value :: worklist) verdict =
      sourceWalk p answer body steps seen worklist verdict := by
  have hif : (!Operand.isRegister value || seen.contains value) = true := by
    simp only [not_and, not_not] at h
    cases hname : Operand.isRegister value with
    | false => rfl
    | true => simpa using h hname
  rw [sourceWalk, walkSources, if_pos hif, sourceWalk]

theorem handles_sourceWalk {steps : Nat} {seen worklist : List String} {register : String}
    {verdict : Verdict} (hname : Operand.isRegister register) (hnew : register ∉ seen) :
    Handles p answer body steps seen worklist register verdict
      (sourceWalk p answer body (steps + 1) seen (register :: worklist) verdict) := by
  have hif : ¬(!Operand.isRegister register || seen.contains register) = true := by
    simpa using ⟨hname, hnew⟩
  rw [sourceWalk, walkSources, if_neg hif]
  cases hdefinition : body.dataflow.definition? register with
  | none =>
    exact .quiet hdefinition (by simp) (by simp) (by simp only [sourcesOf, hdefinition]; rfl)
  | some definition =>
    cases definition with
    | storedFrom | loadedFrom | converted | referencedFrom | assigned =>
      exact .quiet hdefinition (by simp) (by simp) (by simp only [sourcesOf, hdefinition]; rfl)
    | computed values =>
      have hworst : MutationKind.mutator.IsWorst (Contribution p answer body register) :=
        ⟨.inr (.computed hdefinition), fun k _ => k.rank_le_two⟩
      exact .mutation hworst (MutationKind.merge_mutator _) rfl
    | callResult node =>
      cases hcall : body.call? node with
      | none =>
        refine .quiet hdefinition (by simp) ?_ (by simp only [sourcesOf, hdefinition, hcall]; rfl)
        rintro node' call heq
        cases heq
        simp [hcall]
      | some call =>
        have hworst : (Id.run (callKindOfResult p (fun function => answer function) call)).IsWorst
            (Contribution p answer body register) := callKindOfResult_isWorst hdefinition hcall
        simp only [hcall, Id.run_bind]
        split
        · next hmutator =>
          exact .mutation hworst (by simpa using hmutator) (by simpa using hmutator)
        · exact .goesOn hworst (by simp only [sourcesOf, hdefinition]; rfl)

-- Without a mutation the walk handles all that is on the worklist, and all that it comes from.
-- Nothing that one of these registers adds is worse than the kind that the walk ends with.
theorem sourceWalk_covers {steps : Nat} {seen worklist : List String} {verdict : Verdict}
    (hsteps : SourceStepsSuffice body.dataflow steps seen worklist)
    (hkind : (sourceWalk p answer body steps seen worklist verdict).kind ≠ .mutator) :
    verdict.kind.rank ≤ (sourceWalk p answer body steps seen worklist verdict).kind.rank ∧
      ∃ values, seen ⊆ values ∧ worklist ⊆ values ∧
        ∀ register ∈ values, register ∉ seen → Operand.isRegister register →
          (∀ kind, Contribution p answer body register kind →
            kind.rank ≤ (sourceWalk p answer body steps seen worklist verdict).kind.rank) ∧
          ∀ source, body.dataflow.ComesFrom register source → source ∈ values := by
  induction steps generalizing seen worklist verdict with
  | zero =>
    have hlength : worklist.length = 0 := by
      simp only [SourceStepsSuffice] at hsteps
      omega
    obtain rfl := List.length_eq_zero_iff.mp hlength
    exact ⟨le_rfl, seen, by simp, by simp, fun register hm hnew => absurd hm hnew⟩
  | succ steps ih =>
    cases worklist with
    | nil => exact ⟨le_rfl, seen, by simp, by simp, fun register hm hnew => absurd hm hnew⟩
    | cons value worklist =>
      by_cases hvalue : Operand.isRegister value ∧ value ∉ seen
      · have hhandles : Handles p answer body steps seen worklist value verdict
            (sourceWalk p answer body (steps + 1) seen (value :: worklist) verdict) :=
          handles_sourceWalk hvalue.1 hvalue.2
        generalize sourceWalk p answer body (steps + 1) seen (value :: worklist) verdict = v
          at hkind hhandles ⊢
        cases hhandles with
        | mutation _ _ hmutator => exact absurd hmutator hkind
        | @goesOn kind returned _ hworst hv =>
          subst hv
          -- the rest of the walk covers the sources of this value, which were put on the worklist
          obtain ⟨hrank, values, hseen, hworklist, hcovers⟩ := ih (hsteps.handle hvalue.2) hkind
          obtain ⟨hmem, hseen⟩ := List.cons_subset.mp hseen
          obtain ⟨hsources, hworklist⟩ := List.append_subset.mp hworklist
          rw [MutationKind.rank_merge] at hrank
          refine ⟨by omega, values, hseen, List.cons_subset.mpr ⟨hmem, hworklist⟩, ?_⟩
          intro register hm hnew hname
          by_cases heq : register = value
          · subst heq
            refine ⟨fun k hk => ?_, fun source hsource =>
              hsources (mem_sourcesOf_iff.mpr hsource)⟩
            have := hworst.bound k hk
            omega
          · exact hcovers register hm (by simp [heq, hnew]) hname
      · rw [sourceWalk_skip hvalue] at hkind ⊢
        -- a value that is skipped is no register or was handled before, so nothing is asked of it
        obtain ⟨hrank, values, hseen, hworklist, hcovers⟩ := ih hsteps.skip hkind
        refine ⟨hrank, value :: values, fun n hn => List.mem_cons_of_mem _ (hseen hn),
          List.cons_subset_cons _ hworklist, ?_⟩
        intro register hm hnew hname
        rcases List.mem_cons.mp hm with rfl | hm
        · exact absurd ⟨hname, hnew⟩ hvalue
        · obtain ⟨hbound, hsources⟩ := hcovers register hm hnew hname
          exact ⟨hbound, fun source hsource => List.mem_cons_of_mem _ (hsources source hsource)⟩

-- Whatever a walk finds is added by a register of any set that holds the worklist and is closed
-- under where registers get their values from.
theorem sourceWalk_found {A : String → Prop}
    (hflow : ∀ register source, A register → Operand.isRegister register →
      body.dataflow.ComesFrom register source → A source)
    {steps : Nat} {seen worklist : List String} {verdict : Verdict}
    (hworklist : ∀ value ∈ worklist, A value) :
    (sourceWalk p answer body steps seen worklist verdict).kind = verdict.kind ∨
      ∃ register, A register ∧ Operand.isRegister register ∧
        Contribution p answer body register
          (sourceWalk p answer body steps seen worklist verdict).kind := by
  induction steps generalizing seen worklist verdict with
  | zero => exact .inl rfl
  | succ steps ih =>
    cases worklist with
    | nil => exact .inl rfl
    | cons value worklist =>
      obtain ⟨hA, hworklist⟩ := List.forall_mem_cons.mp hworklist
      by_cases hvalue : Operand.isRegister value ∧ value ∉ seen
      · have hhandles : Handles p answer body steps seen worklist value verdict
            (sourceWalk p answer body (steps + 1) seen (value :: worklist) verdict) :=
          handles_sourceWalk hvalue.1 hvalue.2
        generalize sourceWalk p answer body (steps + 1) seen (value :: worklist) verdict = v
          at hhandles ⊢
        have hmerged {kind : MutationKind}
            (hworst : kind.IsWorst (Contribution p answer body value))
            (hv : v.kind = verdict.kind.merge kind) : v.kind = verdict.kind ∨
              ∃ register, A register ∧ Operand.isRegister register ∧
                Contribution p answer body register v.kind := by
          rw [hv]
          exact (hworst.attained_merge verdict.kind).imp_right fun h => ⟨value, hA, hvalue.1, h⟩
        cases hhandles with
        | mutation hworst hmerge hkind => exact hmerged hworst (hkind.trans hmerge.symm)
        | @goesOn kind returned _ hworst hv =>
          have hnew : ∀ source ∈ sourcesOf body.dataflow value ++ worklist, A source := by
            intro source hm
            rcases List.mem_append.mp hm with hm | hm
            · exact hflow value source hA hvalue.1 (mem_sourcesOf_iff.mp hm)
            · exact hworklist source hm
          subst hv
          rcases ih hnew with heq | hfound
          · exact hmerged hworst heq
          · exact .inr hfound
      · rw [sourceWalk_skip hvalue]
        exact ih hworklist

-- One value, followed back to all of its sources.
theorem classifyValue_isWorst (p : Program) (answer : String → Verdict) (body : Body)
    (value : String) :
    (Id.run (classifyValue p (fun function => answer function) body value)).kind.IsWorst
      (SourceContribution p answer body [value]) := by
  change (sourceWalk p answer body (sourceSteps body.dataflow) [] [value] .inspector).kind.IsWorst _
  constructor
  · exact sourceWalk_found (A := IsSource body.dataflow [value])
      (fun register source hregister hname hsource => .flow hregister hname hsource)
      (fun register hm => .result hm)
  · rintro kind ⟨register, hregister, hname, hkind⟩
    by_cases hmutator : (sourceWalk p answer body (sourceSteps body.dataflow) [] [value]
        .inspector).kind = .mutator
    · rw [hmutator]
      exact kind.rank_le_two
    · -- what the walk covers is closed under sources and holds the value, so it holds all of them
      obtain ⟨-, values, -, hworklist, hcovers⟩ :=
        sourceWalk_covers (sourceStepsSuffice_start body.dataflow value) hmutator
      have hmem : register ∈ values := by
        clear hname hkind
        induction hregister with
        | result hresult => exact hworklist hresult
        | flow _ hname hsource ih => exact (hcovers _ ih (by simp) hname).2 _ hsource
      exact (hcovers register hmem (by simp) hname).1 kind hkind

theorem isSource_cons_iff {d : Dataflow} {value source : String} {results : List String} :
    IsSource d (value :: results) source ↔
      IsSource d [value] source ∨ IsSource d results source := by
  constructor
  · intro h
    induction h with
    | result hresult =>
      rcases List.mem_cons.mp hresult with rfl | hresult
      · exact .inl (.result (by simp))
      · exact .inr (.result hresult)
    | flow _ hname hsource ih => exact ih.imp (.flow · hname hsource) (.flow · hname hsource)
  · rintro (h | h)
    · induction h with
      | result hresult => exact .result (by simp [List.mem_singleton.mp hresult])
      | flow _ hname hsource ih => exact .flow ih hname hsource
    · induction h with
      | result hresult => exact .result (List.mem_cons_of_mem _ hresult)
      | flow _ hname hsource ih => exact .flow ih hname hsource

theorem sourceContribution_cons_iff {value : String} {results : List String} {kind : MutationKind} :
    SourceContribution p answer body (value :: results) kind ↔
      SourceContribution p answer body [value] kind ∨
        SourceContribution p answer body results kind := by
  constructor
  · rintro ⟨register, hregister, hname, hkind⟩
    exact (isSource_cons_iff.mp hregister).imp (⟨register, ·, hname, hkind⟩)
      (⟨register, ·, hname, hkind⟩)
  · rintro (⟨register, hregister, hrest⟩ | ⟨register, hregister, hrest⟩)
    · exact ⟨register, isSource_cons_iff.mpr (.inl hregister), hrest⟩
    · exact ⟨register, isSource_cons_iff.mpr (.inr hregister), hrest⟩

theorem not_sourceContribution_nil {kind : MutationKind} :
    ¬SourceContribution p answer body [] kind := by
  rintro ⟨register, hregister, -⟩
  induction hregister with
  | result hresult => cases hresult
  | flow _ _ _ ih => exact ih

-- Returned values one after another, on top of what was found before.
theorem classifyReturns_isWorst {found : MutationKind → Prop} {results : List String}
    {verdict : Verdict} (h : verdict.kind.IsWorst found) :
    (Id.run (classifyReturns p (fun function => answer function) body results verdict)).kind.IsWorst
      fun kind => found kind ∨ SourceContribution p answer body results kind := by
  induction results generalizing verdict found with
  | nil => simpa [classifyReturns, not_sourceContribution_nil] using h
  | cons value results ih =>
    have hvalue := h.merge (classifyValue_isWorst p answer body value)
    have hsplit :
        (fun kind => found kind ∨ SourceContribution p answer body (value :: results) kind) =
        fun kind => (found kind ∨ SourceContribution p answer body [value] kind) ∨
          SourceContribution p answer body results kind := by
      funext kind
      rw [sourceContribution_cons_iff, or_assoc]
    rw [hsplit]
    simp only [classifyReturns, Id.run_bind]
    split
    · next hmutator =>
      exact hvalue.of_mutator ((MutationKind.isMutator_iff _).mp hmutator) .inl
    · exact ih hvalue

theorem producedVerdict_isWorst (p : Program) (answer : String → Verdict) (body : Body) :
    (producedVerdict p answer body).kind.IsWorst
      (SourceContribution p answer body body.dataflow.returns) := by
  have hnone : MutationKind.inspector.IsWorst fun _ => False := .of_none fun _ => id
  have hworst : (producedVerdict p answer body).kind.IsWorst fun kind =>
      False ∨ SourceContribution p answer body body.dataflow.returns kind :=
    classifyReturns_isWorst hnone
  simpa only [false_or] using hworst

-- The kind of a result does not depend on the order of the walks: with a computed value anywhere
-- among its sources it is the function's own work, and short of that a call among them of which
-- nothing certain is known makes it uncertain.
theorem producedVerdict_closure (p : Program) (answer : String → Verdict) (body : Body) :
    ((producedVerdict p answer body).kind = .mutator ↔
        SourceContribution p answer body body.dataflow.returns .mutator) ∧
      ((producedVerdict p answer body).kind = .uncertain ↔
        ¬SourceContribution p answer body body.dataflow.returns .mutator ∧
          SourceContribution p answer body body.dataflow.returns .uncertain) ∧
      ((producedVerdict p answer body).kind = .inspector ↔
        ¬SourceContribution p answer body body.dataflow.returns .mutator ∧
          ¬SourceContribution p answer body body.dataflow.returns .uncertain) := by
  have hworst := producedVerdict_isWorst p answer body
  exact ⟨hworst.mutator_iff, hworst.uncertain_iff, hworst.inspector_iff⟩

end

end Mutation

end TestFocus
