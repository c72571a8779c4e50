import TestFocus.Proofs.Mutation.AliasClosure
import TestFocus.Proofs.Mutation.PlainRecursion
import TestFocus.Proofs.Mutation.SourceClosure

namespace TestFocus

open Mutation Inquiry

-- The second verdict is one that the first may become when more is looked at.
structure Verdict.Resolves (v w : Verdict) : Prop where
  mutator : v.kind = .mutator → w.kind = .mutator
  inspector : v.kind = .inspector → w = v
  returned : w.kind ≠ .mutator → v.isReturned → w.isReturned

theorem Verdict.Resolves.refl (v : Verdict) : v.Resolves v :=
  ⟨id, fun _ => rfl, fun _ => id⟩

theorem Verdict.Resolves.uncertain (w : Verdict) : Verdict.uncertain.Resolves w :=
  ⟨nofun, nofun, nofun⟩

-- A certain kind stays.
theorem Verdict.Resolves.kind_eq {v w : Verdict} (h : v.Resolves w) (hkind : v.kind ≠ .uncertain) :
    w.kind = v.kind := by
  cases hv : v.kind with
  | mutator => exact h.mutator hv
  | inspector => rw [h.inspector hv, hv]
  | uncertain => exact absurd hv hkind

namespace Mutation

section Argument

variable {answer answer' : Call → Nat → Verdict} {body : Body} {calls : List (Nat × Call)}
  {register : String}

theorem Effect.mutator_of_resolves
    (h : ∀ call index, (answer call index).Resolves (answer' call index)) {name : String}
    (heffect : Effect answer body calls name .mutator) :
    Effect answer' body calls name .mutator := by
  generalize hkind : MutationKind.mutator = kind at heffect
  cases heffect with
  | stored hstored => exact .stored hstored
  | @passed node index call hcall hreceives =>
    rw [← hkind, ← (h call index).mutator hkind.symm]
    exact .passed hcall hreceives

-- Where nothing but inspectors was met, nothing else is met.
theorem Effect.inspector_of_resolves
    (h : ∀ call index, (answer call index).Resolves (answer' call index)) {name : String}
    {kind : MutationKind}
    (hcalm : ∀ kind, Effect answer body calls name kind → kind = .inspector)
    (heffect : Effect answer' body calls name kind) : kind = .inspector := by
  cases heffect with
  | stored hstored => exact hcalm _ (.stored hstored)
  | @passed node index call hcall hreceives =>
    have hinspector := hcalm _ (.passed hcall hreceives)
    rw [(h call index).inspector hinspector, hinspector]

-- As long as nothing is mutated, aliases stay aliases.
theorem IsAlias.of_resolves (h : ∀ call index, (answer call index).Resolves (answer' call index))
    (hcalm : ¬AliasEffect answer' body calls register .mutator) {name : String}
    (hname : IsAlias answer body calls register name) :
    IsAlias answer' body calls register name := by
  induction hname with
  | self => exact .self
  | flow _ hnext ih => exact .flow ih hnext
  | @handedBack name next node index call _ hcall hreceives _ hreturned hnext ih =>
    have hkind : (answer' call index).kind ≠ .mutator := by
      intro hmutator
      apply hcalm
      rw [← hmutator]
      exact ⟨name, ih, .passed hcall hreceives⟩
    exact .handedBack ih hcall hreceives hkind ((h call index).returned hkind hreturned) hnext

-- Where nothing but inspectors is met, there are no other aliases than before.
theorem IsAlias.of_inspectors (h : ∀ call index, (answer call index).Resolves (answer' call index))
    (hcalm : ∀ name, IsAlias answer body calls register name → ∀ kind,
      Effect answer body calls name kind → kind = .inspector) {name : String}
    (hname : IsAlias answer' body calls register name) :
    IsAlias answer body calls register name := by
  induction hname with
  | self => exact .self
  | flow _ hnext ih => exact .flow ih hnext
  | @handedBack name next node index call _ hcall hreceives hkind hreturned hnext ih =>
    have hsame := (h call index).inspector (hcalm name ih _ (.passed hcall hreceives))
    rw [hsame] at hkind hreturned
    exact .handedBack ih hcall hreceives hkind hreturned hnext

theorem referenceVerdict_resolves
    (h : ∀ call index, (answer call index).Resolves (answer' call index)) :
    (referenceVerdict answer body calls register).Resolves
      (referenceVerdict answer' body calls register) := by
  have hworst := referenceVerdict_isWorst answer body calls register
  have hworst' := referenceVerdict_isWorst answer' body calls register
  have hmutator : (referenceVerdict answer body calls register).kind = .mutator →
      (referenceVerdict answer' body calls register).kind = .mutator := by
    intro hkind
    by_contra hkind'
    have hcalm : ¬AliasEffect answer' body calls register .mutator :=
      fun heffect => hkind' (hworst'.mutator_iff.mpr heffect)
    obtain ⟨name, hname, heffect⟩ := hworst.mutator_iff.mp hkind
    exact hcalm ⟨name, hname.of_resolves h hcalm, heffect.mutator_of_resolves h⟩
  refine ⟨hmutator, ?_, ?_⟩
  · intro hkind
    have hcalm (name : String) (hname : IsAlias answer body calls register name)
        (kind : MutationKind) (heffect : Effect answer body calls name kind) :
        kind = .inspector :=
      MutationKind.eq_inspector_of_rank_le (hworst.bound kind ⟨name, hname, heffect⟩) hkind
    -- the worst of the new effects happens to an old alias, where only inspectors were met
    have hkind' : (referenceVerdict answer' body calls register).kind = .inspector := by
      obtain heq | ⟨name, hname, heffect⟩ := hworst'.attained
      · exact heq
      · exact heffect.inspector_of_resolves h (hcalm name (hname.of_inspectors h hcalm))
    have hcalm' : ¬AliasEffect answer' body calls register .mutator :=
      (hworst'.inspector_iff.mp hkind').1
    have hsame (name : String) : IsAlias answer' body calls register name ↔
        IsAlias answer body calls register name :=
      ⟨fun hname => hname.of_inspectors h hcalm, fun hname => hname.of_resolves h hcalm'⟩
    have hreturned : (referenceVerdict answer' body calls register).isReturned =
        (referenceVerdict answer body calls register).isReturned := by
      rw [Bool.eq_iff_iff, referenceVerdict_isReturned_iff (by simp [hkind']),
        referenceVerdict_isReturned_iff (by simp [hkind])]
      simp only [hsame]
    exact congrArg₂ Verdict.mk (hkind'.trans hkind.symm) hreturned
  · intro hkind' hreturned
    have hcalm : ¬AliasEffect answer' body calls register .mutator :=
      fun heffect => hkind' (hworst'.mutator_iff.mpr heffect)
    obtain ⟨name, hname, hreturned⟩ :=
      (referenceVerdict_isReturned_iff fun hkind => hkind' (hmutator hkind)).mp hreturned
    exact (referenceVerdict_isReturned_iff hkind').mpr ⟨name, hname.of_resolves h hcalm, hreturned⟩

end Argument

section Result

variable {p : Program} {answer answer' : String → Verdict} {body : Body}

theorem Contribution.mutator_of_certain
    (h : ∀ function, (answer function).kind ≠ .uncertain →
      (answer' function).kind = (answer function).kind) {register : String}
    (hcontribution : Contribution p answer body register .mutator) :
    Contribution p answer' body register .mutator := by
  generalize hkind : MutationKind.mutator = kind at hcontribution
  cases hcontribution with
  | computed hcomputed => exact .computed hcomputed
  | @call node call hresult hcall hlimits hdirect =>
    rw [← h (p.registry.resolve call.callee) (by simp [← hkind])]
    exact .call hresult hcall hlimits hdirect
  | indirectCall => cases hkind

-- Where nothing but inspectors was added, nothing else is added.
theorem Contribution.inspector_of_certain
    (h : ∀ function, (answer function).kind ≠ .uncertain →
      (answer' function).kind = (answer function).kind) {register : String} {kind : MutationKind}
    (hcalm : ∀ kind, Contribution p answer body register kind → kind = .inspector)
    (hcontribution : Contribution p answer' body register kind) : kind = .inspector := by
  cases hcontribution with
  | computed hcomputed => exact hcalm _ (.computed hcomputed)
  | @call node call hresult hcall hlimits hdirect =>
    have hinspector := hcalm _ (.call hresult hcall hlimits hdirect)
    rw [h (p.registry.resolve call.callee) (by simp [hinspector]), hinspector]
  | indirectCall hresult hcall hlimits hdirect =>
    exact hcalm _ (.indirectCall hresult hcall hlimits hdirect)

theorem producedVerdict_kind_eq
    (h : ∀ function, (answer function).kind ≠ .uncertain →
      (answer' function).kind = (answer function).kind)
    (hkind : (producedVerdict p answer body).kind ≠ .uncertain) :
    (producedVerdict p answer' body).kind = (producedVerdict p answer body).kind := by
  have hworst := producedVerdict_isWorst p answer body
  have hworst' := producedVerdict_isWorst p answer' body
  cases hproduced : (producedVerdict p answer body).kind with
  | mutator =>
    obtain ⟨register, hregister, hname, hcontribution⟩ := hworst.mutator_iff.mp hproduced
    exact hworst'.mutator_iff.mpr
      ⟨register, hregister, hname, hcontribution.mutator_of_certain h⟩
  | inspector =>
    obtain heq | ⟨register, hregister, hname, hcontribution⟩ := hworst'.attained
    · exact heq
    · refine hcontribution.inspector_of_certain h fun kind hcontribution => ?_
      exact MutationKind.eq_inspector_of_rank_le
        (hworst.bound kind ⟨register, hregister, hname, hcontribution⟩) hproduced
  | uncertain => exact absurd hproduced hkind

end Result

variable {p : Program}

-- Verdicts on questions about arguments.
def answerArguments (inspect : String → String → Verdict) : Question → Verdict
  | .argument function register => inspect function register
  | .result _ => .uncertain

-- An argument is settled at once, or by the parameter that it is passed to.
theorem callArgument_resolves {inspect inspect' : String → String → Verdict}
    (h : ∀ function register, (inspect function register).Resolves (inspect' function register))
    (call : Call) (index : Nat) :
    (Id.run (callArgument p inspect call index)).Resolves
      (Id.run (callArgument p inspect' call index)) := by
  have hrun (inspect : String → String → Verdict) :
      Id.run (callArgument p (fun function register => inspect function register) call index) =
        (callArgument p askArgument call index).eval (answerArguments inspect) := by
    rw [eval, run_callArgument]
    rfl
  rw [hrun, hrun]
  obtain ⟨v, heq, -⟩ | ⟨register, heq, -⟩ := callArgument_cases p call index
  · rw [heq]
    exact .refl v
  · rw [heq]
    exact h _ register

end Mutation

namespace Program

theorem plainArgument_resolves (p : Program) {budget budget' : Nat} (h : budget ≤ budget')
    (function register : String) :
    (p.plainArgument budget function register).Resolves
      (p.plainArgument budget' function register) := by
  induction budget generalizing budget' function register with
  | zero => exact .uncertain _
  | succ budget ih =>
    obtain ⟨larger, rfl⟩ := Nat.exists_eq_add_one_of_ne_zero (Nat.ne_zero_of_lt h)
    simp only [plainArgument]
    cases p.body? function with
    | none => exact .refl _
    | some body =>
      exact referenceVerdict_resolves fun call index =>
        callArgument_resolves (ih (Nat.le_of_succ_le_succ h)) call index

theorem plainResult_kind_eq (p : Program) {budget budget' : Nat} (h : budget ≤ budget')
    {function : String} (hkind : (p.plainResult budget function).kind ≠ .uncertain) :
    (p.plainResult budget' function).kind = (p.plainResult budget function).kind := by
  induction budget generalizing budget' function with
  | zero => exact absurd rfl hkind
  | succ budget ih =>
    obtain ⟨larger, rfl⟩ := Nat.exists_eq_add_one_of_ne_zero (Nat.ne_zero_of_lt h)
    simp only [plainResult] at hkind ⊢
    cases hbody : p.body? function with
    | none => rfl
    | some body =>
      rw [hbody] at hkind
      exact producedVerdict_kind_eq (fun _ => ih (Nat.le_of_succ_le_succ h)) hkind

end Program

namespace Mutation

variable {p : Program}

-- A query that asks one question gets the answer of plain recursion.
theorem verdictAfter_eq_plain_of_ask (hp : p.WellNamed) (hacyclic : p.Acyclic)
    (earlier : List Query) {q : Query} {x : Question} (h : q.inquiry p = .ask x .done) :
    p.verdictAfter earlier q = p.plain (p.budgetAt q.depth) x := by
  obtain ⟨r, hanswered, hverdict⟩ := verdictAfter_of_ask hp earlier h
  rw [hverdict]
  exact (hanswered.plainClaim hp hacyclic).2.1

-- Without recursion a larger budget only resolves uncertainty: a verdict that is certain so many
-- calls away from a test is of the same kind for a query that is asked closer to it.
theorem kind_eq_of_certain_deeper (hp : p.WellNamed) (hacyclic : p.Acyclic) {depth deeper : Nat}
    (h : depth ≤ deeper) :
    (∀ function register,
      (p.verdictAfter [] (.argument function register true deeper)).kind ≠ .uncertain →
        (p.verdictAfter [] (.argument function register true depth)).kind =
          (p.verdictAfter [] (.argument function register true deeper)).kind) ∧
    ∀ function, (p.verdictAfter [] (.result function deeper)).kind ≠ .uncertain →
      (p.verdictAfter [] (.result function depth)).kind =
        (p.verdictAfter [] (.result function deeper)).kind := by
  have hbudget : p.budgetAt deeper ≤ p.budgetAt depth := by
    simp only [Program.budgetAt, budgetFor]
    omega
  constructor
  · intro function register hkind
    have hplain (depth : Nat) := verdictAfter_eq_plain_of_ask hp hacyclic []
      (q := .argument function register true depth) (x := .argument function register) rfl
    rw [hplain] at hkind
    rw [hplain, hplain]
    exact (p.plainArgument_resolves hbudget function register).kind_eq hkind
  · intro function hkind
    have hplain (depth : Nat) := verdictAfter_eq_plain_of_ask hp hacyclic []
      (q := .result function depth) (x := .result function) rfl
    rw [hplain] at hkind
    rw [hplain, hplain]
    exact p.plainResult_kind_eq hbudget hkind

-- A function that first passes its pointer on to a chain of calls and then to one that writes.
def lateWrite : Program :=
  .ofSketches
    [{ name := "@outer", calls := [{ callee := "@middle", value := "%0", result := some "%1" },
        { callee := "@writer", value := "%0" }] },
     { name := "@middle", calls := [{ callee := "@inner", value := "%0" }] },
     { name := "@inner", dataflow := Dataflow.empty.ret "%0" },
     { name := "@writer", dataflow := Dataflow.empty.store "%0" "1" }] 2

theorem lateWrite_acyclic : lateWrite.Acyclic := by
  apply acyclic_ofSketches fun name =>
    if name = "@outer" then 2 else if name = "@middle" then 1 else 0
  simp

-- One call away from a test the chain is cut short, and the write is found all the same.
theorem kind_eq_of_certain_deeper_lateWrite :
    lateWrite.WellNamed ∧ lateWrite.Acyclic ∧ 0 ≤ 1 ∧
      (lateWrite.verdictAfter [] (.argument "@outer" "%0" true 1)).kind = .mutator ∧
      (lateWrite.verdictAfter [] (.argument "@outer" "%0" true 0)).kind = .mutator := by
  have hnamed : lateWrite.WellNamed := Program.wellNamed_ofSketches _ _
  have hdeeper : (lateWrite.verdictAfter [] (.argument "@outer" "%0" true 1)).kind = .mutator := by
    decide +kernel
  have hcertain := (kind_eq_of_certain_deeper hnamed lateWrite_acyclic (Nat.zero_le 1)).1 "@outer"
    "%0" (by rw [hdeeper]; nofun)
  exact ⟨hnamed, lateWrite_acyclic, by decide, hdeeper, hcertain.trans hdeeper⟩

end Mutation

end TestFocus
