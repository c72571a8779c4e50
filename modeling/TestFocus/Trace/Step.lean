import TestFocus.Program
import TestFocus.Trace.Candidates
import TestFocus.Verdict

-- One step of the way back from an assertion: from a node and the name that is followed there to
-- the states at the node's predecessors. What a call does to the name is for the caller to say,
-- through a `Judge`.

namespace TestFocus

-- A name followed at a node, `depth` steps before the assertion. `isReference` tells that the name
-- stands for the memory it points to.
structure TraceState where
  register : String
  node : Nat
  isReference : Bool
  depth : Nat
deriving Repr, DecidableEq, Inhabited

-- Verdicts on the result of a function and on the arguments of a call.
structure Judge (σ : Type) where
  result : String → StateM σ Verdict
  argument : Call → Nat → StateM σ Verdict

-- What a step adds: states to visit, and candidates.
structure TraceStep where
  next : List TraceState
  candidates : Candidates
deriving Repr, DecidableEq

namespace Trace

-- Does the operand stand for the register itself?
def names (value register : String) : Bool :=
  Operand.trackedName value == some register

-- Is the address computed from the base by address computations and casts? At most `steps` of them
-- are looked at.
def derivesWithin (d : Dataflow) (base : String) : Nat → String → Bool
  | 0, _ => false
  | steps + 1, address =>
    if address ≠ base && names address base then true
    else match d.definition? address with
      | some (.referencedFrom source) | some (.converted source) =>
        source == base || derivesWithin d base steps source
      | _ => false

def chainLimit : Nat := 32

def derivesFrom (b : Body) (address base : String) : Bool :=
  derivesWithin b.dataflow base chainLimit address

-- The states in which a value is followed at every predecessor; none for a value without a name.
def follow (b : Body) (s : TraceState) (value : String) (isReference : Bool) : List TraceState :=
  match Operand.trackedName value with
  | none => []
  | some register =>
    (b.graph.predecessors s.node).map fun node =>
      { register, node, isReference, depth := s.depth + 1 }

-- The name is followed as it is.
def stay (b : Body) (s : TraceState) : List TraceState :=
  follow b s s.register s.isReference

-- The arguments other than the name are followed.
def followArguments (b : Body) (s : TraceState) (call : Call) : List TraceState :=
  call.arguments.flatMap fun argument =>
    if names argument.value s.register then []
    else follow b s argument.value argument.isReference

-- Past a call that did not change the name: a result depends on the arguments, and anything else
-- was only passed in.
def passCall (b : Body) (s : TraceState) (call : Call) (defines : Bool) : List TraceState :=
  if defines then followArguments b s call else stay b s

-- Past the statement that defines the name.
def passDefinition (b : Body) (s : TraceState) : Statement → List TraceState
  | .load _ _ _ _ address => follow b s address true
  | .compareExchange _ _ address _ _ _ => follow b s address true
  | .readModifyWrite _ _ address _ _ => follow b s address true
  | .elementPointer _ _ _ base _ => follow b s base true
  | .conversion _ _ value _ => follow b s value s.isReference
  | other =>
    other.usedRegisters.flatMap fun used =>
      follow b s used (s.isReference && !other.isComputation)

-- Type, value and address of what a statement writes.
def written? : Statement → Option (String × String × String)
  | .store _ _ ty value _ address => some (ty, value, address)
  | .compareExchange _ _ address _ ty newValue => some (ty, newValue, address)
  | .readModifyWrite _ _ address ty value => some (ty, value, address)
  | _ => none

def isStore : Statement → Bool
  | .store _ _ _ _ _ _ => true
  | _ => false

-- Past a statement that does not define the name. A store to the very address that is followed
-- replaces the whole value, so nothing before it matters.
def passWrite (b : Body) (s : TraceState) (statement : Statement) : List TraceState :=
  match if s.isReference then written? statement else none with
  | none => stay b s
  | some (ty, value, address) =>
    let stored := follow b s value (Operand.isPointerType ty)
    if address = s.register then
      if isStore statement then stored else stored ++ stay b s
    else if derivesFrom b address s.register then stored ++ stay b s
    else stay b s

-- The positions at which a call receives the name, or a pointer into what it stands for.
def receivingPositions (b : Body) (s : TraceState) (call : Call) : List Nat :=
  (call.arguments.zipIdx.filter fun (argument, _) =>
    names argument.value s.register || derivesFrom b argument.value s.register).map (·.2)

-- Past a call that copies or fills memory. When its destination is the name itself, only the source
-- matters; when it is a part of it, the source matters too.
def passMemoryIntrinsic (b : Body) (s : TraceState) (call : Call) (positions : List Nat) :
    List TraceState :=
  if s.isReference && positions.contains 0 then
    let copied := match call.arguments[1]? with
      | some source => follow b s source.value source.isReference
      | none => []
    let isWhole := call.arguments.head?.any fun target => names target.value s.register
    if isWhole then copied else copied ++ stay b s
  else stay b s

variable {σ : Type}

-- The merged verdicts on the arguments at the given positions.
def judgeArguments (judge : Judge σ) (call : Call) : List Nat → Verdict → StateM σ Verdict
  | [], verdict => return verdict
  | index :: rest, verdict => do
    let argument ← judge.argument call index
    judgeArguments judge call rest (verdict.merge argument)

-- The verdict on a call that defines the name or receives it.
def judgeCall (judge : Judge σ) (s : TraceState) (call : Call) (callee : String)
    (defines : Bool) (positions : List Nat) : StateM σ Verdict := do
  let verdict ← if defines then judge.result callee else pure .inspector
  if s.isReference then judgeArguments judge call positions verdict else return verdict

def stepScannedCall (judge : Judge σ) (b : Body) (s : TraceState) (call : Call) (callee : String)
    (defines : Bool) (positions : List Nat) (c : Candidates) : StateM σ TraceStep := do
  let verdict ← judgeCall judge s call callee defines positions
  match verdict.kind with
  | .mutator => return { next := [], candidates := c.addMutator callee s.depth }
  | .uncertain =>
    return { next := followArguments b s call ++ if defines then [] else stay b s
             candidates := c.addProvisional callee }
  | .inspector => return { next := passCall b s call defines, candidates := c }

def stepCall (p : Program) (judge : Judge σ) (b : Body) (s : TraceState) (call : Call)
    (defines : Bool) (c : Candidates) : StateM σ TraceStep :=
  let positions := receivingPositions b s call
  let callee := p.registry.resolve call.callee
  if !defines && positions.isEmpty then return { next := stay b s, candidates := c }
  else if isMemoryIntrinsic callee then
    return { next := passMemoryIntrinsic b s call positions, candidates := c }
  else if p.isOffLimits callee then
    return { next := passCall b s call defines, candidates := c }
  else if !call.isDirect then return { next := passCall b s call defines, candidates := c }
  else if (p.body? callee).isNone then
    return { next := passCall b s call defines, candidates := c.addUnscanned callee s.depth }
  else stepScannedCall judge b s call callee defines positions c

def step (p : Program) (judge : Judge σ) (b : Body) (s : TraceState) (c : Candidates) :
    StateM σ TraceStep :=
  match b.graph.node? s.node with
  | none => return { next := [], candidates := c }
  | some node =>
    match node.statement with
    | none => return { next := stay b s, candidates := c }
    | some statement =>
      let defines := node.assignee == some s.register
      match statement.call? with
      | some call => stepCall p judge b s call defines c
      | none =>
        let next := if defines then passDefinition b s statement else passWrite b s statement
        return { next, candidates := c }

end Trace

end TestFocus
