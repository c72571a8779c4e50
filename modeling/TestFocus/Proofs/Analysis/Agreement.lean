import TestFocus.Proofs.Analysis.AliasChain
import TestFocus.Proofs.Mutation.Asking
import TestFocus.Trace.Search

-- Two programs that agree on everything a search can look at within the depth limit have the
-- same focal methods. Verdicts agree as computations over the memo table, so what the table
-- holds does not come into it.

namespace TestFocus

open Mutation Inquiry

-- A definition without what the scan of its body adds.
def Definition.header (d : Definition) : Definition :=
  { d with callSites := [] }

-- The classifier tells the parameters apart by nothing.
structure Parameter.SameRole (parameter parameter' : Parameter) : Prop where
  register : parameter.register = parameter'.register
  readOnly : parameter.attributes.any isReadOnly = parameter'.attributes.any isReadOnly

namespace Program

-- The names, and what is known of them without looking at bodies, are the same.
structure SameNames (p p' : Program) : Prop where
  aliases : p.registry.aliases = p'.registry.aliases
  attributeGroups : p.registry.attributeGroups = p'.registry.attributeGroups
  header : ∀ name, (p.registry.definitions.get? name).map (·.header) =
    (p'.registry.definitions.get? name).map (·.header)
  isAssertion : p.framework.isAssertion = p'.framework.isAssertion
  isExcluded : p.framework.isExcluded = p'.framework.isExcluded
  isAssertionType : p.framework.isAssertionType = p'.framework.isAssertionType
  maxDepth : p.maxDepth = p'.maxDepth

-- What a search reads without looking at bodies is the same.
structure SameSurface (p p' : Program) : Prop where
  aliases : p.registry.aliases = p'.registry.aliases
  readOnly : ∀ name, (p.registry.functionAttributes name).any isReadOnly =
    (p'.registry.functionAttributes name).any isReadOnly
  parameter : ∀ name (index : Nat), Option.Rel Parameter.SameRole
    ((p.registry.get? name).bind (·.parameters[index]?))
    ((p'.registry.get? name).bind (·.parameters[index]?))
  isAssertion : p.framework.isAssertion = p'.framework.isAssertion
  isExcluded : p.framework.isExcluded = p'.framework.isExcluded
  isAssertionType : p.framework.isAssertionType = p'.framework.isAssertionType
  maxDepth : p.maxDepth = p'.maxDepth

end Program

-- What the classifier sees of a body is the same.
structure Body.Alike (b b' : Body) : Prop where
  name : b.name = b'.name
  dataflow : b.dataflow = b'.dataflow
  call : ∀ node, b.call? node = b'.call? node
  assignee : ∀ node, b.assignee? node = b'.assignee? node

namespace Program

variable {p p' : Program}

namespace SameNames

-- Whatever is read from a header is the same.
theorem get?_eq (h : SameNames p p') {α : Type} (read : Definition → α)
    (hread : ∀ d, read d.header = read d) (name : String) :
    (p.registry.get? name).map read = (p'.registry.get? name).map read := by
  have hheader := congrArg (Option.map read) (h.header (p'.registry.resolve name))
  simpa only [Registry.get?, Registry.resolve_congr h.aliases, Option.map_map, Function.comp_def,
    hread] using hheader

theorem functionAttributes_eq (h : SameNames p p') (name : String) :
    p.registry.functionAttributes name = p'.registry.functionAttributes name := by
  have hattributes := h.get?_eq Definition.attributes (fun _ => rfl) name
  simp only [Registry.functionAttributes, Registry.expandAttributes, hattributes,
    h.attributeGroups]

theorem parameter_eq (h : SameNames p p') (name : String) (index : Nat) :
    (p.registry.get? name).bind (·.parameters[index]?) =
      (p'.registry.get? name).bind (·.parameters[index]?) := by
  have hparameters := h.get?_eq Definition.parameters (fun _ => rfl) name
  have hjoin := congrArg (Option.bind · (·[index]?)) hparameters
  simpa only [Option.bind_map, Function.comp_def] using hjoin

theorem surface (h : SameNames p p') : SameSurface p p' :=
  { h with
    readOnly := fun name => by rw [h.functionAttributes_eq]
    parameter := fun name index => by
      rw [h.parameter_eq]
      cases (p'.registry.get? name).bind (·.parameters[index]?) with
      | none => exact .none
      | some parameter => exact .some ⟨rfl, rfl⟩ }

end SameNames

namespace SameSurface

theorem resolve_eq (h : SameSurface p p') (name : String) :
    p.registry.resolve name = p'.registry.resolve name :=
  Registry.resolve_congr h.aliases name

theorem isOffLimits_eq (h : SameSurface p p') (callee : String) :
    p.isOffLimits callee = p'.isOffLimits callee := by
  simp only [isOffLimits, h.isAssertion, h.isExcluded]

theorem callArgument_eq {m : Type → Type} [Monad m] (h : SameSurface p p')
    (inspect : String → String → m Verdict) (call : Call) (index : Nat) :
    callArgument p inspect call index = callArgument p' inspect call index := by
  have hparameter := h.parameter (p'.registry.resolve call.callee) index
  simp only [callArgument, h.resolve_eq, h.isOffLimits_eq, h.readOnly]
  generalize (p.registry.get? (p'.registry.resolve call.callee)).bind (·.parameters[index]?) = q,
    (p'.registry.get? (p'.registry.resolve call.callee)).bind (·.parameters[index]?) = q'
    at hparameter
  cases hparameter with
  | none => rfl
  | some hrole =>
    simp only [Parameter.isVariadic, hrole.register, hrole.readOnly]
    rfl

theorem callKindOfResult_eq {m : Type → Type} [Monad m] (h : SameSurface p p')
    (answer : String → m Verdict) (call : Call) :
    callKindOfResult p answer call = callKindOfResult p' answer call := by
  simp only [callKindOfResult, h.resolve_eq, h.isOffLimits_eq]

end SameSurface

end Program

section Inspection

variable {p p' : Program} {b b' : Body}

theorem Body.Alike.passAlias_eq (h : Body.Alike b b') (answer : Call → Nat → Inquiry Verdict)
    (takes : List (Nat × Call × Nat)) (kind : MutationKind) (worklist : List String) :
    passAlias answer b takes kind worklist = passAlias answer b' takes kind worklist := by
  induction takes generalizing kind worklist with
  | nil => rfl
  | cons take rest ih => simp only [passAlias, h.assignee, ih]

theorem Body.Alike.walkAliases_eq (h : Body.Alike b b') (answer : Call → Nat → Inquiry Verdict)
    (calls : List (Nat × Call)) (steps : Nat) (seen worklist : List String) (verdict : Verdict) :
    walkAliases answer b calls steps seen worklist verdict =
      walkAliases answer b' calls steps seen worklist verdict := by
  induction steps generalizing seen worklist verdict with
  | zero => rfl
  | succ steps ih =>
    cases worklist with
    | nil => rfl
    | cons name worklist => simp only [walkAliases, h.dataflow, h.passAlias_eq, ih]

theorem Body.Alike.walkSources_eq (h : Body.Alike b b') (hsame : p.SameSurface p')
    (answer : String → Inquiry Verdict) (steps : Nat) (seen worklist : List String)
    (verdict : Verdict) :
    walkSources p answer b steps seen worklist verdict =
      walkSources p' answer b' steps seen worklist verdict := by
  induction steps generalizing seen worklist verdict with
  | zero => rfl
  | succ steps ih =>
    cases worklist with
    | nil => rfl
    | cons value worklist =>
      simp only [walkSources, h.dataflow, h.call, hsame.callKindOfResult_eq, ih]

theorem Body.Alike.classifyReturns_eq (h : Body.Alike b b') (hsame : p.SameSurface p')
    (answer : String → Inquiry Verdict) (values : List String) (verdict : Verdict) :
    classifyReturns p answer b values verdict = classifyReturns p' answer b' values verdict := by
  induction values generalizing verdict with
  | nil => rfl
  | cons value rest ih =>
    simp only [classifyReturns, classifyValue, h.walkSources_eq hsame, h.dataflow, ih]

-- The inspections of two such bodies ask the same questions and come to the same verdicts.
theorem Body.Alike.inspection_eq (h : Body.Alike b b') (hsame : p.SameSurface p')
    (hcalls : p.callsOf b = p'.callsOf b') (q : Question) :
    p.inspection b q = p'.inspection b' q := by
  cases q with
  | argument function register =>
    have hargument : callArgument p askArgument = callArgument p' askArgument := by
      funext call index
      exact hsame.callArgument_eq askArgument call index
    simp only [Program.inspection, classifyReference, hargument, hcalls, h.dataflow,
      h.walkAliases_eq]
  | result function =>
    simp only [Program.inspection, h.dataflow]
    exact h.classifyReturns_eq hsame askResult _ _

end Inspection

namespace Program

-- A function looks the same to the classifier as far as the budget goes.
def Agree (p p' : Program) : Nat → String → Prop
  | 0, _ => True
  | budget + 1, name =>
    (p.body? name = none ∧ p'.body? name = none) ∨
    ∃ b b', p.body? name = some b ∧ p'.body? name = some b' ∧ Body.Alike b b' ∧
      p.callsOf b = p'.callsOf b' ∧
      ∀ node call, b.call? node = some call → call.isDirect →
        ¬p.isOffLimits (p.registry.resolve call.callee) →
        Agree p p' budget (p.registry.resolve call.callee)

variable {p p' : Program}

theorem Agree.ask_eq (hp : p.WellNamed) (hp' : p'.WellNamed) (hsame : SameSurface p p')
    {budget : Nat} {x : Question} (h : Agree p p' budget x.function) :
    p.ask budget x = p'.ask budget x := by
  induction budget generalizing x with
  | zero => rw [ask_zero, ask_zero]
  | succ budget ih =>
    rcases h with ⟨hnone, hnone'⟩ | ⟨b, b', hbody, hbody', halike, hcalls, hbelow⟩
    · have htarget : p.target? x = none := by simp [target?, hnone]
      have htarget' : p'.target? x = none := by simp [target?, hnone']
      rw [ask_of_target?_none budget htarget, ask_of_target?_none budget htarget']
    · have htarget : p.target? x = some (x.about b.name) := by simp [target?, hbody]
      have htarget' : p'.target? x = some (x.about b.name) := by
        simp [target?, hbody', halike.name]
      have hget : p.bodies.get? (x.about b.name).function = some b := by
        rw [Question.function_about, hp _ _ hbody]
        exact hbody
      have hget' : p'.bodies.get? (x.about b.name).function = some b' := by
        rw [Question.function_about, halike.name, hp' _ _ hbody']
        exact hbody'
      rw [ask_of_target?_some hp budget htarget, ask_of_target?_some hp' budget htarget',
        inquiry_eq hget, inquiry_eq hget', ← halike.inspection_eq hsame hcalls]
      congr 1
      apply (allAsked_inspection p b _).run_congr
      rintro y ⟨node, call, hcall, hdirect, hlimits, hfunction⟩
      apply ih
      rw [hfunction]
      exact hbelow node call hcall hdirect hlimits

theorem Agree.isNone_eq {budget : Nat} {name : String} (h : Agree p p' (budget + 1) name) :
    (p.body? name).isNone = (p'.body? name).isNone := by
  rcases h with ⟨hnone, hnone'⟩ | ⟨b, b', hbody, hbody', -⟩
  · rw [hnone, hnone']
  · rw [hbody, hbody']
    rfl

end Program

namespace Trace

variable {p p' : Program} {σ : Type} {judge judge' : Judge σ} {b : Body}

-- Two judges of the calls in a body, with the bodies that the programs have for them.
def SameJudgement (p p' : Program) (judge judge' : Judge σ) (b : Body) : Prop :=
  ∀ node call, b.call? node = some call → call.isDirect →
    ¬p.isOffLimits (p.registry.resolve call.callee) →
    (p.body? (p.registry.resolve call.callee)).isNone =
        (p'.body? (p.registry.resolve call.callee)).isNone ∧
      judge.result (p.registry.resolve call.callee) =
        judge'.result (p.registry.resolve call.callee) ∧
      judge.argument call = judge'.argument call

theorem judgeArguments_eq {call : Call} (h : judge.argument call = judge'.argument call)
    (positions : List Nat) (verdict : Verdict) :
    judgeArguments judge call positions verdict = judgeArguments judge' call positions verdict := by
  induction positions generalizing verdict with
  | nil => rfl
  | cons index rest ih => simp only [judgeArguments, h, ih]

theorem stepCall_eq (hsame : p.SameSurface p') (hjudge : SameJudgement p p' judge judge' b)
    (s : TraceState) {node : Nat} {call : Call} (hcall : b.call? node = some call) (defines : Bool)
    (c : Candidates) :
    stepCall p judge b s call defines c = stepCall p' judge' b s call defines c := by
  simp only [stepCall, ← hsame.resolve_eq, ← hsame.isOffLimits_eq]
  split
  · rfl
  · split
    · rfl
    · split
      · rfl
      · next hlimits =>
        split
        · rfl
        · next hdirect =>
          obtain ⟨hbody, hresult, hargument⟩ :=
            hjudge node call hcall (by simpa using hdirect) hlimits
          simp only [hbody, stepScannedCall, judgeCall, hresult, judgeArguments_eq hargument]

theorem step_eq (hsame : p.SameSurface p') (hjudge : SameJudgement p p' judge judge' b)
    (s : TraceState) (c : Candidates) : step p judge b s c = step p' judge' b s c := by
  simp only [step]
  split
  · rfl
  · next node hnode =>
    split
    · rfl
    · next statement hstatement =>
      split
      · next call hcall =>
        have hfound : b.call? s.node = some call := by
          simp [Body.call?, Body.statement?, FlowGraph.statement?, hnode, hstatement, hcall]
        exact stepCall_eq hsame hjudge s hfound _ c
      · rfl

theorem walk_eq (hsame : p.SameSurface p') (hjudge : SameJudgement p p' judge judge' b)
    (steps : Nat) (queue : List TraceState) (visited : List (Nat × String × Bool))
    (c : Candidates) :
    walk p judge b steps queue visited c = walk p' judge' b steps queue visited c := by
  induction steps generalizing queue visited c with
  | zero => rfl
  | succ steps ih =>
    cases queue with
    | nil => rfl
    | cons s queue => simp only [walk, step_eq hsame hjudge, ih]

end Trace

namespace Program

variable {p p' : Program} {b : Body}

-- The calls of a body look the same to the classifier as far as a search goes.
def CallsAgree (p p' : Program) (b : Body) : Prop :=
  ∀ node call, b.call? node = some call → call.isDirect →
    ¬p.isOffLimits (p.registry.resolve call.callee) →
    Agree p p' p.maxDepth (p.registry.resolve call.callee)

theorem budgetAt_one (p : Program) : p.budgetAt 1 = p.maxDepth :=
  Nat.add_sub_cancel p.maxDepth 1

theorem classifyCallArgument_eq_run (p : Program) (call : Call) (index : Nat) :
    p.classifyCallArgument call index 1 =
      (callArgument p askArgument call index).run (p.ask p.maxDepth) := by
  rw [classifyCallArgument, budgetAt_one, run_callArgument]
  rfl

-- The verdicts on a call are the same computations over the memo table.
theorem Agree.judge_eq {call : Call}
    (h : Agree p p' p.maxDepth (p.registry.resolve call.callee)) (hp : p.WellNamed)
    (hp' : p'.WellNamed) (hsame : SameSurface p p') :
    p.judge.result (p.registry.resolve call.callee) =
        p'.judge.result (p.registry.resolve call.callee) ∧
      p.judge.argument call = p'.judge.argument call := by
  constructor
  · have hresult : p.ask p.maxDepth (.result (p.registry.resolve call.callee)) =
        p'.ask p.maxDepth (.result (p.registry.resolve call.callee)) :=
      Agree.ask_eq hp hp' hsame h
    simp only [judge, classifyResult, budgetAt_one, ← hsame.maxDepth]
    exact hresult
  · funext index
    simp only [judge, classifyCallArgument_eq_run, ← hsame.maxDepth, ← hsame.callArgument_eq]
    obtain ⟨v, heq, -⟩ | ⟨parameter, heq, -⟩ := callArgument_cases p call index
    · rw [heq, run_done, run_done]
    · rw [heq]
      have hargument : p.ask p.maxDepth (.argument (p.registry.resolve call.callee) parameter) =
          p'.ask p.maxDepth (.argument (p.registry.resolve call.callee) parameter) :=
        Agree.ask_eq hp hp' hsame h
      simp only [askArgument, run, hargument]

theorem CallsAgree.sameJudgement (h : CallsAgree p p' b) (hp : p.WellNamed) (hp' : p'.WellNamed)
    (hsame : SameSurface p p') (hdepth : 1 ≤ p.maxDepth) :
    Trace.SameJudgement p p' p.judge p'.judge b := by
  intro node call hcall hdirect hlimits
  have hagree := h node call hcall hdirect hlimits
  refine ⟨?_, hagree.judge_eq hp hp' hsame⟩
  obtain ⟨budget, hbudget⟩ := Nat.exists_eq_add_of_le' hdepth
  rw [hbudget] at hagree
  exact hagree.isNone_eq

theorem focalMethodsOf_eq (hsame : SameSurface p p')
    (hjudge : Trace.SameJudgement p p' p.judge p'.judge b) (values : List (Nat × String × Bool))
    (found : List String) : p.focalMethodsOf b values found = p'.focalMethodsOf b values found := by
  induction values generalizing found with
  | nil => rfl
  | cons value rest ih =>
    simp only [focalMethodsOf, Trace.focalMethods, Trace.walk_eq hsame hjudge, ih]

theorem SameSurface.assertedValues_eq (hsame : SameSurface p p') (b : Body) :
    p.assertedValues b = p'.assertedValues b := by
  simp only [assertedValues, hsame.isAssertionType]

-- A test has the same focal methods in both programs.
theorem CallsAgree.testFocalMethods_eq (h : CallsAgree p p' b) (hp : p.WellNamed)
    (hp' : p'.WellNamed) (hsame : SameSurface p p') (hdepth : 1 ≤ p.maxDepth) {test : String}
    (hbody : p.body? test = some b) (hbody' : p'.body? test = some b) :
    p.testFocalMethods test = p'.testFocalMethods test := by
  simp only [testFocalMethods, hbody, hbody', hsame.assertedValues_eq]
  exact focalMethodsOf_eq hsame (h.sameJudgement hp hp' hsame hdepth) _ _

end Program

end TestFocus
