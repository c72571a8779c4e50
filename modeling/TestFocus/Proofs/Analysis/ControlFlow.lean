import TestFocus.Proofs.Analysis.ScanCalls
import TestFocus.Proofs.FlowGraph.Places

namespace TestFocus

-- Is the statement a call, by its name, of an assertion?
def Framework.asserts (framework : Framework) (statement : Statement) : Bool :=
  statement.call?.any fun call => call.isDirect && framework.isAssertion call.callee

namespace Scan

-- What the scan has seen so far, and where control is.
structure Shows (s : Scan) (places : Places) : Prop where
  graph : s.graph.Depicts s.entry places
  previous : s.previous = places.exit?

variable {s : Scan} {places : Places} {framework : Framework}

theorem graph_fallInto (s : Scan) (node : Nat) :
    (s.fallInto node).graph = s.graph.fall s.previous node := by
  cases hprevious : s.previous with
  | none =>
    rw [fallInto, hprevious]
    rfl
  | some previous =>
    rw [fallInto, hprevious]
    rfl

theorem graph_addJumps (jumps : List (String × Option String)) (s : Scan) (node : Nat) :
    (jumps.foldl (fun s jump => s.addJump node jump) s).graph =
      s.graph.addJumps node (jumps.map fun jump => (Operand.labelRegister jump.1, jump.2)) := by
  induction jumps generalizing s with
  | nil => rfl
  | cons jump jumps ih => exact ih _

theorem graph_recordCall (s : Scan) (node : Nat) (statement : Statement) :
    (s.recordCall framework node statement).graph =
      s.graph.markAssertion node (framework.asserts statement) := by
  cases hcall : statement.call? with
  | none =>
    simp only [recordCall, Framework.asserts, hcall]
    rfl
  | some call =>
    obtain ⟨kind, hkind⟩ := exists_callKind hcall
    simp only [recordCall, Framework.asserts, hcall, hkind, Option.any_some]
    cases hdirect : call.isDirect with
    | false => rfl
    | true =>
      simp only [recordDirectCall, Bool.true_and, if_true]
      cases framework.isAssertion call.callee <;> rfl

theorem graph_addStatement (s : Scan) (line : SourceLine) (assignee : Option String)
    (statement : Statement) :
    (s.addStatement framework line assignee statement).graph =
      (s.graph.visit s.previous line assignee statement (framework.asserts statement)).addJumps
        s.graph.size (Stop.statement line assignee statement).jumps := by
  have hjumps : (Stop.statement line assignee statement).jumps =
      statement.successors.map fun jump => (Operand.labelRegister jump.1, jump.2) := by
    simp [Stop.jumps, Stop.statement?]
  simp only [addStatement, graph_addJumps, hjumps, graph_recordCall, graph_fallInto]
  rfl

theorem fallInto_entry (s : Scan) (node : Nat) : (s.fallInto node).entry = s.entry := by
  rw [fallInto]
  split <;> rfl

theorem recordCall_entry (s : Scan) (node : Nat) (statement : Statement) :
    (s.recordCall framework node statement).entry = s.entry := by
  simp only [recordCall]
  split
  · split
    · simp only [recordDirectCall]
      split <;> rfl
    · rfl
  · rfl

theorem addJumps_entry (jumps : List (String × Option String)) (node : Nat) (s : Scan) :
    (jumps.foldl (fun s jump => s.addJump node jump) s).entry = s.entry := by
  induction jumps generalizing s with
  | nil => rfl
  | cons jump jumps ih => exact ih _

theorem addStatement_entry (s : Scan) (line : SourceLine) (assignee : Option String)
    (statement : Statement) :
    (s.addStatement framework line assignee statement).entry = s.entry := by
  simp only [addStatement, addJumps_entry, recordCall_entry, fallInto_entry]

theorem addLines_entry (lines : List LogicalLine) (s : Scan) :
    (lines.foldl (addLine framework) s).entry = s.entry := by
  induction lines generalizing s with
  | nil => rfl
  | cons line lines ih =>
    rw [List.foldl_cons, ih]
    cases line with
    | label label => exact fallInto_entry _ _
    | instruction line =>
      simp only [addLine]
      split
      · rfl
      · exact addStatement_entry _ _ _ _
      · rfl

theorem Shows.enterBlock (h : s.Shows places) (label : String) :
    (s.enterBlock label).Shows (places ++ [((s.graph.defineBlock label).1, .label label)]) where
  graph := by
    simp only [Scan.enterBlock, graph_fallInto, fallInto_entry, h.previous]
    exact h.graph.defineBlock label
  previous := by
    rw [Places.exit?_snoc]
    rfl

theorem Shows.addStatement (h : s.Shows places) (line : SourceLine) (assignee : Option String)
    (statement : Statement) :
    (s.addStatement framework line assignee statement).Shows
      (places ++ [(s.graph.size, .statement line assignee statement)]) where
  graph := by
    rw [graph_addStatement, addStatement_entry, h.previous]
    exact h.graph.addStatement line assignee statement _
  previous := by
    rw [Places.exit?_snoc]
    rfl

-- A line adds its place, if it has one.
theorem Shows.addLine (h : s.Shows places) (framework : Framework) (line : LogicalLine) :
    ∃ more : Places, more.map (·.2) = (Stop.ofLine? line).toList ∧
      (s.addLine framework line).Shows (places ++ more) := by
  cases line with
  | label label => exact ⟨_, rfl, h.enterBlock label⟩
  | instruction line =>
    simp only [Scan.addLine, Stop.ofLine?]
    cases Instruction.parse line.text with
    | error e => exact ⟨[], rfl, (List.append_nil places).symm ▸ ⟨h.graph, h.previous⟩⟩
    | ok instruction =>
      obtain ⟨assignee, kind, statement⟩ := instruction
      cases statement with
      | none => exact ⟨[], rfl, (List.append_nil places).symm ▸ h⟩
      | some statement => exact ⟨_, rfl, h.addStatement line assignee statement⟩

theorem Shows.addLines (h : s.Shows places) (framework : Framework) (lines : List LogicalLine) :
    ∃ more : Places, more.map (·.2) = lines.filterMap Stop.ofLine? ∧
      (lines.foldl (Scan.addLine framework) s).Shows (places ++ more) := by
  induction lines generalizing s places with
  | nil => exact ⟨[], rfl, by simpa using h⟩
  | cons line lines ih =>
    obtain ⟨here, hhere, hline⟩ := h.addLine framework line
    obtain ⟨more, hmore, hlines⟩ := ih hline
    refine ⟨here ++ more, ?_, by simpa using hlines⟩
    rw [List.map_append, hhere, hmore, List.filterMap_cons]
    cases Stop.ofLine? line <;> rfl

theorem shows_start (framework : Framework) (function : String) (registry : Registry)
    (callGraph : CallGraph) :
    (start framework function registry callGraph).Shows [(0, .entry)] := by
  have hgraph : (start framework function registry callGraph).graph.outlines =
      [{ id := 0, name := function, isStart := true, isTest := framework.isTest function }] := by
    simp [start, FlowGraph.outlines, FlowGraph.addNode, FlowGraph.modifyNode, FlowGraph.empty,
      FlowNode.outline]
  have hnode := FlowGraph.getElem?_outlines
    (start framework function registry callGraph).graph 0
  rw [hgraph] at hnode
  obtain ⟨n, hn, houtline⟩ := Option.map_eq_some_iff.mp hnode.symm
  have hformed : (start framework function registry callGraph).graph.WellFormed :=
    ((FlowGraph.wellFormed_empty function).addNode function).modifyNode 0
      fun _ => ⟨rfl, rfl, rfl, rfl, rfl⟩
  have hrooted : (start framework function registry callGraph).graph.Rooted 0 := by
    constructor
    case toWellFormed => exact hformed
    case root => simp [hgraph]
    case start => simp [hgraph]
    case placeholder => simp [hgraph]
    case apart =>
      intro label hlabel
      cases hlabel
  refine ⟨⟨hrooted, ?_, ?_, ?_, ?_, ?_⟩, rfl⟩
  · intro place hplace
    rw [List.mem_singleton.mp hplace]
    exact ⟨n, hn, congrArg (·.isStart) houtline, congrArg (·.statement) houtline⟩
  · rw [FlowGraph.statements_eq, hgraph]
    rfl
  · intro label
    have hnone : label ∉ (start framework function registry callGraph).graph.blocks.keys :=
      List.not_mem_nil
    simp [hnone, Places.Defines, Places.JumpsTo, Stop.jumps, Stop.statement?]
  · simp [start, FlowGraph.addNode, FlowGraph.modifyNode, FlowGraph.empty, Places.Defines]
  · intro edge
    simp [start, FlowGraph.addNode, FlowGraph.modifyNode, FlowGraph.empty, Places.FallsThrough,
      Places.Jumps, Stop.jumps, Stop.statement?]

-- The graph of a scanned body shows its stops, each with its node, and the ways between them.
theorem run_depicts_controlFlow (framework : Framework) (registry : Registry)
    (callGraph : CallGraph) (function : String) (source : FunctionSource) :
    let s := run framework registry callGraph function source
    ∃ places : Places,
      places.map (·.2) = stops source ∧ places.head? = some (s.entry, .entry) ∧
      s.graph.Depicts s.entry places ∧ s.graph.edges.toList.Nodup ∧
      s.graph.predecessors s.entry = [] ∧
      (∀ id statement, s.graph.statement? id = some statement →
        (s.graph.predecessors id).length ≤ 1 ∧
        (statement.isTerminator = true →
          ∀ target ∈ s.graph.successors id, ∃ label, s.graph.block? label = some target)) ∧
      s.graph.undefinedBlocks.Pairwise (· < ·) ∧
      ∀ label, label ∈ s.graph.undefinedBlocks ↔
        places.JumpsTo label ∧ ¬ places.Defines label := by
  intro s
  obtain ⟨more, hmore, hshows⟩ :=
    (shows_start framework function registry callGraph).addLines framework
      (logicalLines source.body)
  have hgraph : s.graph.Depicts s.entry ([(0, .entry)] ++ more) := hshows.graph
  have hentry : s.entry = 0 := addLines_entry _ _
  have htail : ∀ place ∈ ([(0, Stop.entry)] ++ more).tail, place.2 ≠ .entry := by
    intro place hplace
    have hstop : place.2 ∈ more.map (·.2) := List.mem_map.mpr ⟨place, hplace, rfl⟩
    rw [hmore] at hstop
    obtain ⟨line, -, hline⟩ := List.mem_filterMap.mp hstop
    exact Stop.ofLine?_ne_entry hline
  have hhead : (s.entry, Stop.entry) ∈ [(0, Stop.entry)] ++ more := by simp [hentry]
  refine ⟨[(0, .entry)] ++ more, ?_, ?_, hgraph, hgraph.toWellFormed.nodup_edges,
    hgraph.predecessors_entry hhead htail, fun id statement hs => ⟨hgraph.length_predecessors_le hs,
      fun hends target => hgraph.successors_terminator hs hends⟩,
    FlowGraph.pairwise_undefinedBlocks hgraph.labels, fun label => hgraph.mem_undefinedBlocks_iff⟩
  · rw [List.map_append, hmore]
    rfl
  · rw [hentry]
    rfl

end Scan

end TestFocus
