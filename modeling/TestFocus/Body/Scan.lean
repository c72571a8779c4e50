import TestFocus.Body.Basic
import TestFocus.CallGraph.Basic
import TestFocus.Definition.Registry
import TestFocus.Framework
import TestFocus.Instruction
import TestFocus.Module.Source

-- Scanning a function body once, from top to bottom, into its flow graph and its data flow.
-- Calls are recorded in the registry and in the call graph of the module on the way.

namespace TestFocus

-- `previous` is the node from which control falls through to the next line; there is none after a
-- terminator. `callees` are the functions called by name, each once.
structure Scan where
  function : String
  graph : FlowGraph
  dataflow : Dataflow
  entry : Nat
  previous : Option Nat
  assertions : List Nat
  callees : List String
  diagnostics : List Diagnostic
  registry : Registry
  callGraph : CallGraph

namespace Scan

def start (framework : Framework) (function : String) (registry : Registry)
    (callGraph : CallGraph) : Scan :=
  let (entry, graph) := (FlowGraph.empty function).addNode function
  { function
    graph := graph.modifyNode entry fun n =>
      { n with isStart := true, isTest := framework.isTest function }
    dataflow := .empty
    entry
    previous := some entry
    assertions := []
    callees := []
    diagnostics := []
    registry
    callGraph }

-- The edge along which control falls through into a node.
def fallInto (s : Scan) (node : Nat) : Scan :=
  match s.previous with
  | some previous => { s with graph := (s.graph.addEdge previous node none).2 }
  | none => s

def enterBlock (s : Scan) (label : String) : Scan :=
  let (node, graph) := s.graph.defineBlock label
  { { s with graph }.fallInto node with previous := some node }

-- What the register that a statement defines gets its value from.
def provenance? (node : Nat) : Statement → Option Provenance
  | .store _ _ _ _ _ _ => none
  | .ret _ (some _) => none
  | .compareExchange _ _ address _ ty _ => some (.loadedFrom address (Operand.isPointerType ty))
  | .readModifyWrite _ _ address ty _ => some (.loadedFrom address (Operand.isPointerType ty))
  | .load _ _ ty _ address => some (.loadedFrom address (Operand.isPointerType ty))
  | .elementPointer _ _ _ base _ => some (.referencedFrom base)
  | .conversion _ _ value _ => some (.converted value)
  | .call _ | .invoke _ _ _ | .callBranch _ _ _ => some (.callResult node)
  | other =>
    if other.isComputation then some (.computed other.usedValues)
    else some (.assigned other.usedRegisters)

-- What a statement stores or returns.
def recordEffect (d : Dataflow) : Statement → Dataflow
  | .store _ _ _ value _ address => d.store address value
  | .compareExchange _ _ address _ _ newValue => d.store address newValue
  | .readModifyWrite _ _ address _ value => d.store address value
  | .ret _ (some value) => d.ret value
  | _ => d

def recordDataflow (d : Dataflow) (node : Nat) (assignee : Option String) (s : Statement) :
    Dataflow :=
  let d := recordEffect d s
  match assignee, provenance? node s with
  | some register, some provenance => d.define register provenance
  | _, _ => d

-- Assertions are recognised by the name that the call gives, calls by the function it stands for.
def recordDirectCall (framework : Framework) (s : Scan) (node : Nat) (callee : String) : Scan :=
  let s := { s with
    callGraph := s.callGraph.addCall s.function (s.registry.resolve callee)
    callees := CallGraph.adjoin s.callees callee }
  if framework.isAssertion callee then
    { s with
      graph := s.graph.modifyNode node fun n => { n with isAssertion := true }
      assertions := s.assertions ++ [node] }
  else s

def recordCall (framework : Framework) (s : Scan) (node : Nat) (statement : Statement) : Scan :=
  match statement.call?, statement.callKind? with
  | some call, some kind =>
    let site : CallSite := { node, kind, callee := call.callee }
    let s := { s with registry := (s.registry.addCallSite? s.function site).getD s.registry }
    if call.isDirect then recordDirectCall framework s node call.callee else s
  | _, _ => s

def addJump (s : Scan) (node : Nat) (jump : String × Option String) : Scan :=
  let (target, graph) := s.graph.blockNode (Operand.labelRegister jump.1)
  { s with graph := (graph.addEdge node target jump.2).2 }

def addStatement (framework : Framework) (s : Scan) (line : SourceLine)
    (assignee : Option String) (statement : Statement) : Scan :=
  let (node, graph) := s.graph.addStatement line.text statement assignee line.number
  let s := { s with graph }.fallInto node
  let s := { s with dataflow := recordDataflow s.dataflow node assignee statement }
  let s := recordCall framework s node statement
  let s := statement.successors.foldl (fun s jump => s.addJump node jump) s
  { s with previous := if statement.isTerminator then none else some node }

-- A line that cannot be read is reported and passed over.
def addLine (framework : Framework) (s : Scan) : LogicalLine → Scan
  | .label label => s.enterBlock label
  | .instruction line =>
    match Instruction.parse line.text with
    | .error e =>
      { s with diagnostics := s.diagnostics ++ [.ofError (some s.function) line.number e] }
    | .ok { assignee, statement := some statement, .. } =>
      s.addStatement framework line assignee statement
    | .ok { statement := none, .. } => s

def body (s : Scan) : Body :=
  { name := s.function, graph := s.graph, dataflow := s.dataflow, entry := s.entry,
    assertions := s.assertions }

-- Scans the body of one function.
def run (framework : Framework) (registry : Registry) (callGraph : CallGraph)
    (function : String) (source : FunctionSource) : Scan :=
  (logicalLines source.body).foldl (addLine framework)
    (start framework function registry callGraph)

end Scan

end TestFocus
