import TestFocus.Mutation.Classifier
import TestFocus.Trace.Step

-- The way back from an assertion, breadth first, and the focal methods of a test: the functions
-- that last changed a value before an assertion looked at it. As in the classifier, depths are
-- idealised as natural numbers.

namespace TestFocus

namespace Trace

variable {σ : Type}

-- Takes states from the front of the queue. States beyond the nearest mutator and states that were
-- visited before, whatever their depth, are dropped.
def walk (p : Program) (judge : Judge σ) (b : Body) :
    Nat → List TraceState → List (Nat × String × Bool) → Candidates → StateM σ Candidates
  | 0, _, _, c => return c
  | _ + 1, [], _, c => return c
  | steps + 1, s :: queue, visited, c => do
    let place := (s.node, s.register, s.isReference)
    if !c.reaches s.depth || visited.contains place then walk p judge b steps queue visited c
    else
      let step ← step p judge b s c
      walk p judge b steps (queue ++ step.next) (place :: visited) step.candidates

def countOperands (b : Body) : Nat :=
  b.graph.statements.foldl (fun n (_, statement) => n + statement.usedValues.length) 0

def countEntries (b : Body) : Nat :=
  b.graph.nodes.toList.foldl (fun n node => n + node.incs.length) 0

-- A state is a node, a flag and a name, and the names other than the first are operands of the
-- body. A step queues each operand, and the name itself, once for each edge that enters the node.
-- So this many steps empty the queue.
def walkSteps (b : Body) : Nat :=
  let operands := countOperands b
  let entries := countEntries b
  entries + 2 * b.graph.size * (operands + 1) * ((operands + 1) * entries)

-- The functions that last changed `register` before control reached `node`.
def focalMethods (p : Program) (judge : Judge σ) (b : Body) (register : String)
    (isReference : Bool) (node : Nat) : StateM σ (List String) := do
  let start : TraceState := { register, node, isReference, depth := 0 }
  let found ← walk p judge b (walkSteps b) (stay b start) [] .empty
  return found.focalMethods

end Trace

namespace Program

open Mutation

-- The classifier as a judge of the calls in a test.
def judge (p : Program) : Judge Memo :=
  { result := fun callee => p.classifyResult callee 1
    argument := fun call index => p.classifyCallArgument call index 1 }

-- The assertion arguments that are followed: the node of the assertion, the name and whether it is
-- a reference.
def assertedValues (p : Program) (b : Body) : List (Nat × String × Bool) :=
  b.assertions.flatMap fun node =>
    match b.call? node with
    | none => []
    | some call => call.arguments.filterMap fun argument =>
      if p.framework.isAssertionType argument.type then none
      else (Operand.trackedName argument.value).map fun name =>
        (node, name, argument.isReference)

def focalMethodsOf (p : Program) (b : Body) : List (Nat × String × Bool) → List String →
    Classify (List String)
  | [], found => return sortedNames found
  | (node, name, isReference) :: rest, found => do
    let methods ← Trace.focalMethods p p.judge b name isReference node
    focalMethodsOf p b rest (found ++ methods)

-- The focal methods of a test, for all of its assertions.
def testFocalMethods (p : Program) (test : String) : Classify (List String) :=
  match p.body? test with
  | none => return []
  | some body => focalMethodsOf p body (p.assertedValues body) []

end Program

end TestFocus
