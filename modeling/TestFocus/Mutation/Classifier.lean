import TestFocus.Mutation.Memo
import TestFocus.Mutation.Reference
import TestFocus.Mutation.Result

namespace TestFocus.Mutation

-- Whether `function` changes what `register` points to.
def argumentVerdict (p : Program) : Nat → String → String → Classify Verdict
  | 0, _, _ => beyondLimit
  | budget + 1, function, register =>
    match p.body? function with
    | none => withoutBody
    | some body =>
      memoized (.argument body.name register) (budget + 1)
        (classifyReference (callArgument p (argumentVerdict p budget)) body (p.callsOf body)
          register)

-- Whether the result of `function` is computed by it, or only read.
def resultVerdict (p : Program) : Nat → String → Classify Verdict
  | 0, _ => beyondLimit
  | budget + 1, function =>
    match p.body? function with
    | none => withoutBody
    | some body =>
      memoized (.result body.name) (budget + 1)
        (classifyReturns p (resultVerdict p budget) body body.dataflow.returns .inspector)

end TestFocus.Mutation

namespace TestFocus.Program

open Mutation

def budgetAt (p : Program) (depth : Nat) : Nat :=
  budgetFor p.maxDepth depth

-- An argument passed by value is a copy, which no callee can change for its caller.
def classifyArgument (p : Program) (function register : String) (isReference : Bool)
    (depth : Nat) : Classify Verdict :=
  if isReference then argumentVerdict p (p.budgetAt depth) function register
  else return .inspector

def classifyCallArgument (p : Program) (call : Call) (index depth : Nat) : Classify Verdict :=
  callArgument p (argumentVerdict p (p.budgetAt depth)) call index

def classifyResult (p : Program) (function : String) (depth : Nat) : Classify Verdict :=
  resultVerdict p (p.budgetAt depth) function

end TestFocus.Program
