import TestFocus.Proofs.Mutation.Inquiry

namespace TestFocus.Mutation

open Inquiry

section Run

variable {m : Type → Type} [Monad m] [LawfulMonad m] (answer : Question → m Verdict)

theorem run_passAlias (inspect : Call → Nat → Inquiry Verdict) (body : Body)
    (takes : List (Nat × Call × Nat)) (kind : MutationKind) (worklist : List String) :
    (passAlias inspect body takes kind worklist).run answer =
      passAlias (fun call index => (inspect call index).run answer) body takes kind worklist := by
  induction takes generalizing kind worklist with
  | nil => rfl
  | cons take rest ih =>
    obtain ⟨node, call, index⟩ := take
    simp only [passAlias, bind_eq, run_bind]
    congr 1
    funext v
    split
    · rfl
    · exact ih _ _

theorem run_walkAliases (inspect : Call → Nat → Inquiry Verdict) (body : Body)
    (calls : List (Nat × Call)) (steps : Nat) (seen worklist : List String) (verdict : Verdict) :
    (walkAliases inspect body calls steps seen worklist verdict).run answer =
      walkAliases (fun call index => (inspect call index).run answer) body calls steps seen
        worklist verdict := by
  induction steps generalizing seen worklist verdict with
  | zero => rfl
  | succ steps ih =>
    cases worklist with
    | nil => rfl
    | cons name worklist =>
      simp only [walkAliases]
      split
      · exact ih _ _ _
      · split
        · rfl
        · simp only [bind_eq, run_bind, run_passAlias]
          congr 1
          funext out
          cases out with
          | none => rfl
          | some out => exact ih _ _ _

theorem run_classifyReference (inspect : Call → Nat → Inquiry Verdict) (body : Body)
    (calls : List (Nat × Call)) (register : String) :
    (classifyReference inspect body calls register).run answer =
      classifyReference (fun call index => (inspect call index).run answer) body calls register :=
  run_walkAliases answer inspect body calls _ _ _ _

omit [LawfulMonad m] in
theorem run_callArgument (p : Program) (inspect : String → String → Inquiry Verdict) (call : Call)
    (index : Nat) :
    (callArgument p inspect call index).run answer =
      callArgument p (fun function register => (inspect function register).run answer) call
        index := by
  unfold callArgument
  split
  · rfl
  · simp only [pure_eq]
    repeat' split
    all_goals rfl

theorem run_callKindOfResult (p : Program) (inspect : String → Inquiry Verdict) (call : Call) :
    (callKindOfResult p inspect call).run answer =
      callKindOfResult p (fun function => (inspect function).run answer) call := by
  simp only [callKindOfResult]
  by_cases hlimits : p.isOffLimits (p.registry.resolve call.callee)
  · simp only [if_pos hlimits]
    rfl
  · by_cases hdirect : call.isDirect
    · simp only [if_neg hlimits, if_pos hdirect, bind_eq, run_bind]
      rfl
    · simp only [if_neg hlimits, if_neg hdirect]
      rfl

theorem run_walkSources (p : Program) (inspect : String → Inquiry Verdict) (body : Body)
    (steps : Nat) (seen worklist : List String) (verdict : Verdict) :
    (walkSources p inspect body steps seen worklist verdict).run answer =
      walkSources p (fun function => (inspect function).run answer) body steps seen worklist
        verdict := by
  induction steps generalizing seen worklist verdict with
  | zero => rfl
  | succ steps ih =>
    cases worklist with
    | nil => rfl
    | cons value worklist =>
      simp only [walkSources]
      split
      · exact ih _ _ _
      · split
        all_goals first | exact ih _ _ _ | rfl | skip
        -- what is left is the result of a call
        split
        · exact ih _ _ _
        · simp only [bind_eq, run_bind, run_callKindOfResult]
          congr 1
          funext kind
          split
          · rfl
          · exact ih _ _ _

theorem run_classifyReturns (p : Program) (inspect : String → Inquiry Verdict) (body : Body)
    (values : List String) (verdict : Verdict) :
    (classifyReturns p inspect body values verdict).run answer =
      classifyReturns p (fun function => (inspect function).run answer) body values verdict := by
  induction values generalizing verdict with
  | nil => rfl
  | cons value rest ih =>
    simp only [classifyReturns, bind_eq, run_bind, classifyValue, run_walkSources]
    congr 1
    funext v
    split
    · rfl
    · exact ih _

end Run

-- The function that a question is about.
def Question.function : Question → String
  | argument function _ => function
  | result function => function

def Question.isArgument : Question → Bool
  | argument _ _ => true
  | result _ => false

-- The same question about another function.
def Question.about : Question → String → Question
  | argument _ register, function => argument function register
  | result _, function => result function

def askArgument (function register : String) : Inquiry Verdict :=
  .ask (.argument function register) .done

def askResult (function : String) : Inquiry Verdict :=
  .ask (.result function) .done

@[simp] theorem Question.function_about (q : Question) (function : String) :
    (q.about function).function = function := by
  cases q <;> rfl

@[simp] theorem Question.isArgument_about (q : Question) (function : String) :
    (q.about function).isArgument = q.isArgument := by
  cases q <;> rfl

end TestFocus.Mutation

namespace TestFocus.Program

open Mutation

-- Every body is kept under its own name, as the analysis leaves it.
def WellNamed (p : Program) : Prop :=
  ∀ name body, p.bodies.get? name = some body → body.name = name

-- The question about the scanned function that a name stands for.
def target? (p : Program) (x : Question) : Option Question :=
  (p.body? x.function).map fun body => x.about body.name

-- The inspection of a body for a question about it.
def inspection (p : Program) (body : Body) : Question → Inquiry Verdict
  | .argument _ register =>
    classifyReference (callArgument p askArgument) body (p.callsOf body) register
  | .result _ => classifyReturns p askResult body body.dataflow.returns .inspector

-- What is done to answer a question about a scanned function.
def inquiry (p : Program) (q : Question) : Inquiry Verdict :=
  match p.bodies.get? q.function with
  | none => .done .uncertain
  | some body => p.inspection body q

-- Both questions of the classifier as one.
def ask (p : Program) (budget : Nat) : Question → Classify Verdict
  | .argument function register => argumentVerdict p budget function register
  | .result function => resultVerdict p budget function

-- A question about a scanned function keeps its kind, and its function has a body.
theorem exists_body_of_target? {p : Program} (hp : p.WellNamed) {x q : Question}
    (h : p.target? x = some q) :
    ∃ body, p.body? x.function = some body ∧ p.bodies.get? q.function = some body ∧
      q = x.about body.name := by
  obtain ⟨body, hbody, rfl⟩ := Option.map_eq_some_iff.mp h
  refine ⟨body, hbody, ?_, rfl⟩
  rw [Question.function_about, hp _ _ hbody]
  exact hbody

theorem isArgument_of_target? {p : Program} {x q : Question} (h : p.target? x = some q) :
    q.isArgument = x.isArgument := by
  obtain ⟨body, -, rfl⟩ := Option.map_eq_some_iff.mp h
  exact Question.isArgument_about x body.name

theorem ask_zero (p : Program) (x : Question) : p.ask 0 x = beyondLimit := by
  cases x <;> rfl

theorem ask_of_target?_none {p : Program} {x : Question} (budget : Nat)
    (h : p.target? x = none) : p.ask (budget + 1) x = withoutBody := by
  have hbody : p.body? x.function = none := Option.map_eq_none_iff.mp h
  cases x with
  | argument function register =>
    simp only [Question.function] at hbody
    simp only [ask, argumentVerdict, hbody]
  | result function =>
    simp only [Question.function] at hbody
    simp only [ask, resultVerdict, hbody]

theorem inquiry_eq {p : Program} {q : Question} {body : Body}
    (h : p.bodies.get? q.function = some body) : p.inquiry q = p.inspection body q := by
  simp only [inquiry, h]

-- A question about a function with a body is looked up, or the body is inspected with one level
-- less.
theorem ask_of_body? {p : Program} {x : Question} {body : Body} {budget : Nat}
    (h : p.body? x.function = some body) :
    p.ask (budget + 1) x =
      memoized (x.about body.name) (budget + 1) ((p.inspection body x).run (p.ask budget)) := by
  cases x with
  | argument function register =>
    simp only [Question.function] at h
    simp only [ask, argumentVerdict, h, inspection, Question.about, run_classifyReference,
      run_callArgument]
    rfl
  | result function =>
    simp only [Question.function] at h
    simp only [ask, resultVerdict, h, inspection, Question.about, run_classifyReturns]
    rfl

-- Answering a question about a scanned function runs its inquiry with one level less.
theorem ask_of_target?_some {p : Program} (hp : p.WellNamed) {x q : Question} (budget : Nat)
    (h : p.target? x = some q) :
    p.ask (budget + 1) x = memoized q (budget + 1) ((p.inquiry q).run (p.ask budget)) := by
  obtain ⟨body, hbody, hget, rfl⟩ := exists_body_of_target? hp h
  rw [inquiry_eq hget, ask_of_body? hbody]
  cases x <;> rfl

end TestFocus.Program
