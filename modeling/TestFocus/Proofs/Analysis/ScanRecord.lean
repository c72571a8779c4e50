import TestFocus.Proofs.Analysis.ScanFrame

namespace TestFocus

namespace FlowGraph

-- Control can pass from the one node to the other.
def HasEdge (g : FlowGraph) (source target : Nat) : Prop :=
  ∃ e ∈ g.edges, e.source = source ∧ e.target = target

-- The edges that a node lists as entering it are there, and end in it.
def ListsEntries (g : FlowGraph) : Prop :=
  ∀ id n, g.node? id = some n → ∀ entry ∈ n.incs, ∃ e, g.edge? entry = some e ∧ e.target = id

variable {g : FlowGraph}

theorem ListsEntries.hasEdge (h : g.ListsEntries) {source target : Nat}
    (hsource : source ∈ g.predecessors target) : g.HasEdge source target := by
  unfold predecessors at hsource
  cases hnode : g.node? target with
  | none => simp [hnode] at hsource
  | some n =>
    simp only [hnode, List.mem_map, List.mem_filterMap] at hsource
    obtain ⟨e, ⟨entry, hentry, hedge⟩, rfl⟩ := hsource
    obtain ⟨e', hedge', htarget⟩ := h target n hnode entry hentry
    have heq : e' = e := Option.some.inj (hedge'.symm.trans hedge)
    exact ⟨e, Array.mem_of_getElem? hedge, rfl, heq ▸ htarget⟩

theorem ListsEntries.modifyNode (h : g.ListsEntries) (id : Nat) {f : FlowNode → FlowNode}
    (hf : ∀ n, (f n).incs = n.incs) : (g.modifyNode id f).ListsEntries := by
  intro other n hn
  simp only [FlowGraph.modifyNode, node?, Array.getElem?_modify] at hn
  split at hn
  · obtain ⟨old, hold, rfl⟩ := Option.map_eq_some_iff.mp hn
    rw [hf]
    exact h other old hold
  · exact h other n hn

-- A node that is added lists no edges.
theorem ListsEntries.push (h : g.ListsEntries) {node : FlowNode} (hnode : node.incs = []) :
    ListsEntries { g with nodes := g.nodes.push node } := by
  intro id n hn entry hentry
  simp only [node?, Array.getElem?_push] at hn
  split at hn
  · cases hn
    simp [hnode] at hentry
  · exact h id n hn entry hentry

theorem ListsEntries.addEdge (h : g.ListsEntries) (source target : Nat) (label : Option String) :
    (g.addEdge source target label).2.ListsEntries := by
  simp only [FlowGraph.addEdge]
  split
  · exact h
  · have hkept (entry : Nat) (e : FlowEdge) (he : g.edges[entry]? = some e) :
        (g.edges.push { source, target, label })[entry]? = some e := by
      have hlt : entry < g.edges.size := (Array.getElem?_eq_some_iff.mp he).1
      rw [Array.getElem?_push, if_neg (by omega), he]
    have hpushed : ListsEntries { g with
        edges := g.edges.push { source, target, label }
        edgeIndex := ({ source, target, label }, g.edges.size) :: g.edgeIndex } := by
      intro id n hn entry hentry
      obtain ⟨e, he, htarget⟩ := h id n hn entry hentry
      exact ⟨e, hkept entry e he, htarget⟩
    have hout := hpushed.modifyNode source
      (f := fun n => { n with outs := n.outs ++ [g.edges.size] }) fun _ => rfl
    intro id n hn entry hentry
    simp only [node?, FlowGraph.modifyNode, Array.getElem?_modify (i := target)] at hn
    split at hn
    · next hid =>
      obtain ⟨old, hold, rfl⟩ := Option.map_eq_some_iff.mp hn
      rcases List.mem_append.mp hentry with hentry | hentry
      · exact hout id old hold entry hentry
      · cases List.mem_singleton.mp hentry
        exact ⟨{ source, target, label }, by simp [edge?, FlowGraph.modifyNode], hid⟩
    · exact hout id n hn entry hentry

theorem ListsEntries.blockNode (h : g.ListsEntries) (label : String) :
    (g.blockNode label).2.ListsEntries := by
  simp only [FlowGraph.blockNode]
  split
  · exact h
  · exact h.push rfl

theorem ListsEntries.defineBlock (h : g.ListsEntries) (label : String) :
    (g.defineBlock label).2.ListsEntries :=
  ListsEntries.blockNode (g := { g with
    definedBlocks :=
      if g.definedBlocks.contains label then g.definedBlocks else g.definedBlocks ++ [label] })
    h label

theorem ListsEntries.marked (h : g.ListsEntries) (keep : Bool) : (g.marked keep).ListsEntries := by
  intro id n hn
  simp only [FlowGraph.marked, node?, Array.getElem?_map] at hn
  obtain ⟨old, hold, rfl⟩ := Option.map_eq_some_iff.mp hn
  exact h id old hold

end FlowGraph

namespace Scan

structure Records (framework : Framework) (s : Scan) : Prop where
  entries : s.graph.ListsEntries
  callees : ∀ callee ∈ s.callees, ∃ node call, s.body.call? node = some call ∧
    call.isDirect = true ∧ call.callee = callee
  assertions : ∀ node ∈ s.assertions, ∃ call, s.body.call? node = some call ∧
    call.isDirect = true ∧ framework.isAssertion call.callee = true

variable {framework : Framework} {s t : Scan}

theorem call?_body_eq (h : ∀ id, t.graph.statement? id = s.graph.statement? id) (node : Nat) :
    t.body.call? node = s.body.call? node := by
  simp only [Body.call?, Body.statement?, body, h]

-- A scan that has lost no call and recorded none.
theorem Records.extend (h : Records framework s) (hentries : t.graph.ListsEntries)
    (hcalls : ∀ node call, s.body.call? node = some call → t.body.call? node = some call)
    (hcallees : t.callees = s.callees) (hassertions : t.assertions = s.assertions) :
    Records framework t where
  entries := hentries
  callees := by
    intro callee hcallee
    rw [hcallees] at hcallee
    obtain ⟨node, call, hcall, hdirect⟩ := h.callees callee hcallee
    exact ⟨node, call, hcalls node call hcall, hdirect⟩
  assertions := by
    intro node hnode
    rw [hassertions] at hnode
    obtain ⟨call, hcall, hdirect⟩ := h.assertions node hnode
    exact ⟨call, hcalls node call hcall, hdirect⟩

theorem Records.fallInto (h : Records framework s) (node : Nat) :
    Records framework (s.fallInto node) := by
  unfold Scan.fallInto
  split
  · refine h.extend (h.entries.addEdge _ _ _) ?_ rfl rfl
    intro other call hcall
    rwa [call?_body_eq fun id => FlowGraph.statement?_addEdge _ _ _ _ id]
  · exact h

theorem Records.enterBlock (h : Records framework s) (label : String) :
    Records framework (s.enterBlock label) := by
  have hblock : Records framework { s with graph := (s.graph.defineBlock label).2 } := by
    refine h.extend (h.entries.defineBlock label) ?_ rfl rfl
    intro other call hcall
    rwa [call?_body_eq fun id => FlowGraph.statement?_defineBlock s.graph label id]
  have hfall := hblock.fallInto (s.graph.defineBlock label).1
  exact hfall.extend hfall.entries (fun _ _ => id) rfl rfl

theorem Records.addJumps (h : Records framework s) (jumps : List (String × Option String))
    (node : Nat) : Records framework (jumps.foldl (fun s jump => s.addJump node jump) s) := by
  induction jumps generalizing s with
  | nil => exact h
  | cons jump jumps ih =>
    have hstatements (id : Nat) :
        (s.addJump node jump).graph.statement? id = s.graph.statement? id := by
      simp only [Scan.addJump, FlowGraph.statement?_addEdge, FlowGraph.statement?_blockNode]
    refine ih (h.extend ((h.entries.blockNode _).addEdge _ _ _) ?_ rfl rfl)
    intro other call hcall
    rwa [call?_body_eq hstatements]

theorem Records.recordCall (h : Records framework s) {node : Nat} {statement : Statement}
    (hstatement : s.graph.statement? node = some statement) :
    Records framework (s.recordCall framework node statement) := by
  have hcalls (other : Nat) :
      (s.recordCall framework node statement).body.call? other = s.body.call? other :=
    call?_body_eq (recordCall_statement? framework s node statement) other
  have hhere (call : Call) (hcall : statement.call? = some call) :
      (s.recordCall framework node statement).body.call? node = some call := by
    rw [hcalls]
    simp only [Body.call?, Body.statement?, body, hstatement, Option.bind_some, hcall]
  constructor
  case entries =>
    simp only [Scan.recordCall]
    split
    · split
      · simp only [recordDirectCall]
        split
        · exact h.entries.modifyNode node fun _ => rfl
        · exact h.entries
      · exact h.entries
    · exact h.entries
  case callees =>
    intro callee hcallee
    rcases (mem_recordCall_callees framework s node statement callee).mp hcallee with
      hold | ⟨call, hcall, hdirect, rfl⟩
    · obtain ⟨other, call, hcall, hdirect⟩ := h.callees callee hold
      exact ⟨other, call, (hcalls other).trans hcall, hdirect⟩
    · exact ⟨node, call, hhere call hcall, hdirect, rfl⟩
  case assertions =>
    have hnew (other : Nat)
        (hother : other ∈ (s.recordCall framework node statement).assertions) :
        other ∈ s.assertions ∨ other = node ∧ ∃ call, statement.call? = some call ∧
          call.isDirect = true ∧ framework.isAssertion call.callee = true := by
      simp only [Scan.recordCall] at hother
      split at hother
      · next call kind hcall _ =>
        split at hother
        · next hdirect =>
          simp only [recordDirectCall] at hother
          split at hother
          · next hassertion =>
            rcases List.mem_append.mp hother with hold | hother
            · exact .inl hold
            · exact .inr ⟨List.mem_singleton.mp hother, call, hcall, hdirect, hassertion⟩
          · exact .inl hother
        · exact .inl hother
      · exact .inl hother
    intro other hother
    rcases hnew other hother with hold | ⟨rfl, call, hcall, hdirect⟩
    · obtain ⟨call, hcall, hdirect⟩ := h.assertions other hold
      exact ⟨call, (hcalls other).trans hcall, hdirect⟩
    · exact ⟨call, hhere call hcall, hdirect⟩

theorem Records.addStatement (h : Records framework s) (line : SourceLine)
    (assignee : Option String) (statement : Statement) :
    Records framework (s.addStatement framework line assignee statement) := by
  have hadded : Records framework
      { s with graph := (s.graph.addStatement line.text statement assignee line.number).2 } := by
    refine h.extend (h.entries.push rfl) ?_ rfl rfl
    intro node call hcall
    obtain ⟨other, hother, hcall⟩ := Option.bind_eq_some_iff.mp hcall
    simp only [Body.statement?, body] at hother
    have hne : node ≠ s.graph.nodes.size := by
      rintro rfl
      simp [FlowGraph.statement?, FlowGraph.node?] at hother
    simp only [Body.call?, Body.statement?, body, FlowGraph.statement?_addStatement, if_neg hne,
      hother, Option.bind_some, hcall]
  have hfall := hadded.fallInto s.graph.nodes.size
  have hstatement : (Scan.fallInto { s with
        graph := (s.graph.addStatement line.text statement assignee line.number).2 }
      s.graph.nodes.size).graph.statement? s.graph.nodes.size = some statement := by
    rw [fallInto_statement?, FlowGraph.statement?_addStatement, if_pos rfl]
  simp only [Scan.addStatement]
  have hnode : (s.graph.addStatement line.text statement assignee line.number).1 =
    s.graph.nodes.size := rfl
  rw [hnode]
  generalize Scan.fallInto { s with
    graph := (s.graph.addStatement line.text statement assignee line.number).2 }
      s.graph.nodes.size = fallen at hfall hstatement ⊢
  have hflow : Records framework { fallen with
      dataflow := recordDataflow fallen.dataflow s.graph.nodes.size assignee statement } :=
    hfall.extend hfall.entries (fun _ _ => id) rfl rfl
  have hjumps := (hflow.recordCall hstatement).addJumps statement.successors s.graph.nodes.size
  exact hjumps.extend hjumps.entries (fun _ _ => id) rfl rfl

theorem Records.addLine (h : Records framework s) (line : LogicalLine) :
    Records framework (s.addLine framework line) := by
  cases line with
  | label label => exact h.enterBlock label
  | instruction line =>
    simp only [Scan.addLine]
    split
    · exact h.extend h.entries (fun _ _ => id) rfl rfl
    · exact h.addStatement line _ _
    · exact h

theorem records_run (framework : Framework) (registry : Registry) (callGraph : CallGraph)
    (function : String) (source : FunctionSource) :
    Records framework (run framework registry callGraph function source) := by
  have hlines (lines : List LogicalLine) (s : Scan) (h : Records framework s) :
      Records framework (lines.foldl (Scan.addLine framework) s) := by
    induction lines generalizing s with
    | nil => exact h
    | cons line lines ih => exact ih _ (h.addLine line)
  apply hlines
  have hempty : (FlowGraph.empty function).ListsEntries := by
    intro id n hn
    simp [FlowGraph.empty, FlowGraph.node?] at hn
  constructor
  case entries => exact FlowGraph.ListsEntries.modifyNode (hempty.push rfl) _ fun _ => rfl
  case callees => exact fun _ h => by cases h
  case assertions => exact fun _ h => by cases h

end Scan

end TestFocus
