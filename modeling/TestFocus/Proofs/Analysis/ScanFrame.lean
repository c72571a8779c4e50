import TestFocus.Proofs.Analysis.ScanCalls

namespace TestFocus

namespace Scan

-- The first scan is the second one with other marks; what they wrote to is left out.
structure Follows (keep : Bool) (s t : Scan) : Prop where
  function : s.function = t.function
  graph : s.graph = t.graph.marked keep
  dataflow : s.dataflow = t.dataflow
  entry : s.entry = t.entry
  previous : s.previous = t.previous
  assertions : s.assertions = t.assertions
  callees : s.callees = t.callees

variable {keep : Bool} {s t : Scan} {framework framework' : Framework}

theorem Follows.fallInto (h : Follows keep s t) (node : Nat) :
    Follows keep (s.fallInto node) (t.fallInto node) := by
  simp only [Scan.fallInto, h.previous]
  split
  · exact { h with graph := by simp only [h.graph, FlowGraph.marked_addEdge], previous := rfl }
  · exact h

theorem Follows.enterBlock (h : Follows keep s t) (label : String) :
    Follows keep (s.enterBlock label) (t.enterBlock label) := by
  simp only [Scan.enterBlock, h.graph, FlowGraph.marked_defineBlock]
  have hblock : Follows keep { s with graph := (t.graph.defineBlock label).2.marked keep }
      { t with graph := (t.graph.defineBlock label).2 } := { h with graph := rfl }
  exact { hblock.fallInto _ with previous := rfl }

theorem Follows.addJump (h : Follows keep s t) (node : Nat) (jump : String × Option String) :
    Follows keep (s.addJump node jump) (t.addJump node jump) := by
  simp only [Scan.addJump, h.graph, FlowGraph.marked_blockNode, FlowGraph.marked_addEdge]
  exact { h with graph := rfl }

theorem Follows.recordCall (hassertion : framework.isAssertion = framework'.isAssertion)
    (h : Follows keep s t) (node : Nat) (statement : Statement) :
    Follows keep (s.recordCall framework node statement)
      (t.recordCall framework' node statement) := by
  simp only [Scan.recordCall]
  split
  · next call kind _ _ =>
    split
    · simp only [recordDirectCall, hassertion]
      split
      · refine { h with graph := ?_, assertions := ?_, callees := ?_ }
        · simp only [h.graph]
          rw [FlowGraph.marked_modifyNode]
          intro n
          rfl
        · simp only [h.assertions]
        · simp only [h.callees]
      · exact { h with callees := by simp only [h.callees] }
    · exact { h with }
  · exact h

theorem Follows.addStatement (hassertion : framework.isAssertion = framework'.isAssertion)
    (h : Follows keep s t) (line : SourceLine) (assignee : Option String) (statement : Statement) :
    Follows keep (s.addStatement framework line assignee statement)
      (t.addStatement framework' line assignee statement) := by
  simp only [Scan.addStatement, h.graph, FlowGraph.marked_addStatement]
  generalize hnode : t.graph.addStatement line.text statement assignee line.number = added
  obtain ⟨node, graph⟩ := added
  have hadded : Follows keep { s with graph := graph.marked keep } { t with graph } :=
    { h with graph := rfl }
  have hfall := hadded.fallInto node
  have hflow : Follows keep
      { Scan.fallInto { s with graph := graph.marked keep } node with
        dataflow := recordDataflow
          (Scan.fallInto { s with graph := graph.marked keep } node).dataflow node assignee
          statement }
      { Scan.fallInto { t with graph } node with
        dataflow := recordDataflow (Scan.fallInto { t with graph } node).dataflow node assignee
          statement } := { hfall with dataflow := by simp only [hfall.dataflow] }
  have hjumps (jumps : List (String × Option String)) (s t : Scan) (h : Follows keep s t) :
      Follows keep (jumps.foldl (fun s jump => s.addJump node jump) s)
        (jumps.foldl (fun s jump => s.addJump node jump) t) := by
    induction jumps generalizing s t with
    | nil => exact h
    | cons jump jumps ih => exact ih _ _ (h.addJump node jump)
  exact { hjumps _ _ _ (hflow.recordCall hassertion node statement) with previous := rfl }

theorem Follows.addLine (hassertion : framework.isAssertion = framework'.isAssertion)
    (h : Follows keep s t) (line : LogicalLine) :
    Follows keep (s.addLine framework line) (t.addLine framework' line) := by
  cases line with
  | label label => exact h.enterBlock label
  | instruction line =>
    simp only [Scan.addLine]
    split
    · exact { h with }
    · exact h.addStatement hassertion line _ _
    · exact h

theorem follows_start (function : String) (registry registry' : Registry)
    (callGraph callGraph' : CallGraph) (htest : framework'.isTest function = true) :
    Follows (framework.isTest function) (start framework function registry callGraph)
      (start framework' function registry' callGraph') where
  function := rfl
  graph := by
    simp only [start, htest, FlowGraph.marked, FlowGraph.modifyNode, FlowGraph.addNode,
      FlowGraph.empty]
    congr 1
    ext1
    · simp
    · simp [FlowNode.marked]
  dataflow := rfl
  entry := rfl
  previous := rfl
  assertions := rfl
  callees := rfl

theorem Follows.addLines (hassertion : framework.isAssertion = framework'.isAssertion)
    (h : Follows keep s t) (lines : List LogicalLine) :
    Follows keep (lines.foldl (Scan.addLine framework) s)
      (lines.foldl (Scan.addLine framework') t) := by
  induction lines generalizing s t with
  | nil => exact h
  | cons line lines ih => exact ih (h.addLine hassertion line)

theorem Follows.sitesOf (h : Follows keep s t) (line : LogicalLine) :
    s.sitesOf line = t.sitesOf line := by
  have hsize : s.graph.nodes.size = t.graph.nodes.size := by
    rw [h.graph]
    exact Array.size_map
  simp only [Scan.sitesOf, hsize]

theorem Follows.sitesFrom (hassertion : framework.isAssertion = framework'.isAssertion)
    (h : Follows keep s t) (lines : List LogicalLine) :
    sitesFrom framework lines s = sitesFrom framework' lines t := by
  induction lines generalizing s t with
  | nil => rfl
  | cons line lines ih =>
    simp only [Scan.sitesFrom, h.sitesOf line, ih (h.addLine hassertion line)]

end Scan

namespace Framework

-- Every function counts as a test.
def allTests (framework : Framework) : Framework :=
  { framework with isTest := fun _ => true }

-- One function is the only test, if it is one.
def only (framework : Framework) (test : String) : Framework :=
  { framework with isTest := fun name => framework.isTest name && name == test }

end Framework

namespace Scan

-- The scan of a body on its own.
def alone (framework : Framework) (function : String) (source : FunctionSource) : Scan :=
  run framework.allTests .empty .empty function source

def sitesAlone (framework : Framework) (function : String) (source : FunctionSource) :
    List CallSite :=
  sitesFrom framework.allTests (logicalLines source.body)
    (start framework.allTests function .empty .empty)

variable (framework : Framework) (registry : Registry) (callGraph : CallGraph) (function : String)
  (source : FunctionSource)

theorem follows_alone :
    Follows (framework.isTest function) (run framework registry callGraph function source)
      (alone framework function source) :=
  (follows_start function registry .empty callGraph .empty rfl).addLines rfl _

theorem run_body :
    (run framework registry callGraph function source).body =
      (alone framework function source).body.marked (framework.isTest function) := by
  have h := follows_alone framework registry callGraph function source
  simp only [body, Body.marked, h.function, h.graph, h.dataflow, h.entry, h.assertions]

theorem run_callees :
    (run framework registry callGraph function source).callees =
      (alone framework function source).callees :=
  (follows_alone framework registry callGraph function source).callees

-- All that the scan does to the registry is to record the calls of the function.
theorem run_registry :
    (run framework registry callGraph function source).registry =
      registry.addCallSites function (sitesAlone framework function source) := by
  have hstart : Follows (framework.isTest function) (start framework function registry callGraph)
      (start framework.allTests function .empty .empty) := follows_start function _ _ _ _ rfl
  have hassertion : framework.isAssertion = framework.allTests.isAssertion := rfl
  rw [run, addLines_registry, sitesAlone, hstart.sitesFrom hassertion]
  rfl

theorem run_function (lines : List LogicalLine) (s : Scan) :
    (lines.foldl (addLine framework) s).function = s.function := by
  induction lines generalizing s with
  | nil => rfl
  | cons line lines ih =>
    rw [List.foldl_cons, ih, addLine_function]

theorem body_name : (alone framework function source).body.name = function :=
  run_function framework.allTests _ _

-- Every function that a body calls by its name is among the callees of its scan.
theorem callee_mem_alone {node : Nat} {call : Call}
    (hcall : (alone framework function source).body.call? node = some call)
    (hdirect : call.isDirect) : call.callee ∈ (alone framework function source).callees := by
  obtain ⟨statement, hstatement, hcall⟩ := Option.bind_eq_some_iff.mp hcall
  exact listsCallees_run _ _ _ _ _ node statement call hstatement hcall hdirect

end Scan

end TestFocus
