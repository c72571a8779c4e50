import TestFocus.Proofs.Analysis.AliasChain
import TestFocus.Proofs.Analysis.ScanFrame
import TestFocus.Proofs.Comments.Line

namespace TestFocus

def FlowNode.unnumbered (n : FlowNode) : FlowNode :=
  { n with line := 0 }

theorem FlowNode.cosmetic_unnumbered : Cosmetic unnumbered where
  fresh _ _ := rfl
  outs _ _ := rfl
  incs _ _ := rfl

-- A flow graph without the lines of its nodes.
def FlowGraph.unnumbered (g : FlowGraph) : FlowGraph :=
  g.mapNodes FlowNode.unnumbered

def Body.unnumbered (b : Body) : Body :=
  { b with graph := b.graph.unnumbered }

namespace FlowGraph

-- Two graphs of which nothing but the lines differs.
def Alike (g g' : FlowGraph) : Prop :=
  g.unnumbered = g'.unnumbered

variable {g g' : FlowGraph}

theorem Alike.size_eq (h : g.Alike g') : g.nodes.size = g'.nodes.size := by
  have hsize := congrArg (·.nodes.size) h
  simpa [unnumbered, mapNodes] using hsize

-- What an operation that does not see the lines does to two such graphs.
theorem Alike.of_commutes {α : Type} {f : FlowGraph → α × FlowGraph}
    (hf : ∀ g : FlowGraph, f g.unnumbered = ((f g).1, (f g).2.unnumbered)) (h : g.Alike g') :
    (f g).1 = (f g').1 ∧ (f g).2.Alike (f g').2 :=
  Prod.mk.inj ((hf g).symm.trans ((congrArg f h).trans (hf g')))

theorem Alike.addEdge (h : g.Alike g') (source target : Nat) (label : Option String) :
    (g.addEdge source target label).2.Alike (g'.addEdge source target label).2 :=
  (h.of_commutes (f := (·.addEdge source target label)) fun g =>
    mapNodes_addEdge g FlowNode.cosmetic_unnumbered source target label).2

theorem Alike.blockNode (h : g.Alike g') (label : String) :
    (g.blockNode label).1 = (g'.blockNode label).1 ∧
      (g.blockNode label).2.Alike (g'.blockNode label).2 :=
  h.of_commutes (f := (·.blockNode label)) fun g =>
    mapNodes_blockNode g FlowNode.cosmetic_unnumbered label

theorem Alike.defineBlock (h : g.Alike g') (label : String) :
    (g.defineBlock label).1 = (g'.defineBlock label).1 ∧
      (g.defineBlock label).2.Alike (g'.defineBlock label).2 :=
  h.of_commutes (f := (·.defineBlock label)) fun g =>
    mapNodes_defineBlock g FlowNode.cosmetic_unnumbered label

theorem Alike.modifyNode (h : g.Alike g') (id : Nat) {change : FlowNode → FlowNode}
    (hchange : ∀ n, change (FlowNode.unnumbered n) = (change n).unnumbered) :
    (g.modifyNode id change).Alike (g'.modifyNode id change) := by
  rw [Alike, unnumbered, unnumbered, ← mapNodes_modifyNode g id hchange,
    ← mapNodes_modifyNode g' id hchange]
  exact congrArg (·.modifyNode id change) h

theorem Alike.addStatement (h : g.Alike g') (name : String) (statement : Statement)
    (assignee : Option String) (line line' : Nat) :
    (g.addStatement name statement assignee line).1 =
        (g'.addStatement name statement assignee line').1 ∧
      (g.addStatement name statement assignee line).2.Alike
        (g'.addStatement name statement assignee line').2 := by
  have hpush (g : FlowGraph) (line : Nat) :
      (g.addStatement name statement assignee line).2.unnumbered =
        (g.unnumbered.addStatement name statement assignee 0).2 := by
    simp [FlowGraph.addStatement, unnumbered, mapNodes, FlowNode.unnumbered]
  refine ⟨h.size_eq, ?_⟩
  rw [Alike, hpush, hpush, h]

end FlowGraph

namespace Scan

-- The scans differ in lines only, as far as the body goes and the names of the module.
structure Alike (s t : Scan) : Prop where
  function : s.function = t.function
  graph : s.graph.Alike t.graph
  dataflow : s.dataflow = t.dataflow
  entry : s.entry = t.entry
  previous : s.previous = t.previous
  assertions : s.assertions = t.assertions
  callees : s.callees = t.callees
  aliases : s.registry.aliases = t.registry.aliases
  callGraph : s.callGraph = t.callGraph

variable {s t : Scan} {framework : Framework}

theorem Alike.fallInto (h : Alike s t) (node : Nat) :
    Alike (s.fallInto node) (t.fallInto node) := by
  simp only [Scan.fallInto, h.previous]
  split
  · exact { h with graph := h.graph.addEdge _ _ _, previous := rfl }
  · exact h

theorem Alike.enterBlock (h : Alike s t) (label : String) :
    Alike (s.enterBlock label) (t.enterBlock label) := by
  obtain ⟨hnode, hgraph⟩ := h.graph.defineBlock label
  simp only [Scan.enterBlock, ← hnode]
  have hblock : Alike { s with graph := (s.graph.defineBlock label).2 }
      { t with graph := (t.graph.defineBlock label).2 } := { h with graph := hgraph }
  exact { hblock.fallInto _ with previous := rfl }

theorem Alike.addJump (h : Alike s t) (node : Nat) (jump : String × Option String) :
    Alike (s.addJump node jump) (t.addJump node jump) := by
  obtain ⟨htarget, hgraph⟩ := h.graph.blockNode (Operand.labelRegister jump.1)
  simp only [Scan.addJump, ← htarget]
  exact { h with graph := hgraph.addEdge _ _ _ }

theorem Alike.recordDirectCall (h : Alike s t) (node : Nat) (callee : String) :
    Alike (s.recordDirectCall framework node callee)
      (t.recordDirectCall framework node callee) := by
  have hcallGraph : s.callGraph.addCall s.function (s.registry.resolve callee) =
      t.callGraph.addCall t.function (t.registry.resolve callee) := by
    rw [h.callGraph, h.function, Registry.resolve_congr h.aliases]
  unfold Scan.recordDirectCall
  split
  · exact { h with
      graph := h.graph.modifyNode _ fun _ => rfl
      assertions := by simp only [h.assertions]
      callees := by simp only [h.callees]
      callGraph := hcallGraph }
  · exact { h with
      callees := by simp only [h.callees]
      callGraph := hcallGraph }

theorem Alike.recordCall (h : Alike s t) (node : Nat) (statement : Statement) :
    Alike (s.recordCall framework node statement) (t.recordCall framework node statement) := by
  simp only [Scan.recordCall]
  split
  · next call kind _ _ =>
    have hrecorded : Alike
        { s with registry := (s.registry.addCallSite? s.function
            { node, kind, callee := call.callee }).getD s.registry }
        { t with registry := (t.registry.addCallSite? t.function
            { node, kind, callee := call.callee }).getD t.registry } :=
      { h with aliases := by simp only [Registry.addCallSite_aliases, h.aliases] }
    split
    · exact hrecorded.recordDirectCall node call.callee
    · exact hrecorded
  · exact h

theorem Alike.recordDataflow (h : Alike s t) (node : Nat) (assignee : Option String)
    (statement : Statement) :
    Alike { s with dataflow := Scan.recordDataflow s.dataflow node assignee statement }
      { t with dataflow := Scan.recordDataflow t.dataflow node assignee statement } :=
  { h with dataflow := by simp only [h.dataflow] }

theorem Alike.addJumps (h : Alike s t) (node : Nat) (jumps : List (String × Option String)) :
    Alike (jumps.foldl (fun s jump => s.addJump node jump) s)
      (jumps.foldl (fun s jump => s.addJump node jump) t) := by
  induction jumps generalizing s t with
  | nil => exact h
  | cons jump jumps ih => exact ih (h.addJump node jump)

theorem Alike.addStatement (h : Alike s t) {line line' : SourceLine}
    (htext : line.text = line'.text) (assignee : Option String) (statement : Statement) :
    Alike (s.addStatement framework line assignee statement)
      (t.addStatement framework line' assignee statement) := by
  obtain ⟨hnode, hgraph⟩ :=
    h.graph.addStatement line.text statement assignee line.number line'.number
  simp only [Scan.addStatement, ← htext, ← hnode]
  have hadded : Alike
      { s with graph := (s.graph.addStatement line.text statement assignee line.number).2 }
      { t with graph := (t.graph.addStatement line.text statement assignee line'.number).2 } :=
    { h with graph := hgraph }
  have hfall := hadded.fallInto
    (s.graph.addStatement line.text statement assignee line.number).1
  have hflow := hfall.recordDataflow
    (s.graph.addStatement line.text statement assignee line.number).1 assignee statement
  have hcall : Alike (Scan.recordCall framework _ _ _) (Scan.recordCall framework _ _ _) :=
    hflow.recordCall (s.graph.addStatement line.text statement assignee line.number).1 statement
  have hjumps := hcall.addJumps
    (s.graph.addStatement line.text statement assignee line.number).1 statement.successors
  exact { hjumps with previous := rfl }

theorem Alike.addLine (h : Alike s t) {line line' : LogicalLine}
    (hline : line.unnumbered = line'.unnumbered) :
    Alike (s.addLine framework line) (t.addLine framework line') := by
  cases line with
  | label label =>
    cases line' with
    | label label' =>
      cases hline
      exact h.enterBlock label
    | instruction line' => cases hline
  | instruction line =>
    cases line' with
    | label label' => cases hline
    | instruction line' =>
      have htext : line.text = line'.text := LogicalLine.text_eq_of_unnumbered hline
      simp only [Scan.addLine, ← htext]
      split
      · exact { h with }
      · exact h.addStatement htext _ _
      · exact h

theorem Alike.sitesOf_eq (h : Alike s t) {line line' : LogicalLine}
    (hline : line.unnumbered = line'.unnumbered) : s.sitesOf line = t.sitesOf line' := by
  cases line with
  | label label =>
    cases line' with
    | label label' => rfl
    | instruction line' => cases hline
  | instruction line =>
    cases line' with
    | label label' => cases hline
    | instruction line' =>
      have htext : line.text = line'.text := LogicalLine.text_eq_of_unnumbered hline
      simp only [Scan.sitesOf, ← htext, h.graph.size_eq]

theorem Alike.addLines (h : Alike s t) {lines lines' : List LogicalLine}
    (hlines : lines.map LogicalLine.unnumbered = lines'.map LogicalLine.unnumbered) :
    Alike (lines.foldl (Scan.addLine framework) s) (lines'.foldl (Scan.addLine framework) t) ∧
      sitesFrom framework lines s = sitesFrom framework lines' t := by
  induction lines generalizing lines' s t with
  | nil =>
    rw [List.map_nil, eq_comm, List.map_eq_nil_iff] at hlines
    subst hlines
    exact ⟨h, rfl⟩
  | cons line lines ih =>
    cases lines' with
    | nil => cases hlines
    | cons line' lines' =>
      obtain ⟨hline, hlines⟩ := List.cons.inj hlines
      have hnext : Alike (Scan.addLine framework s line) (Scan.addLine framework t line') :=
        h.addLine hline
      obtain ⟨hscan, hsites⟩ := ih hnext hlines
      exact ⟨hscan, by rw [sitesFrom, sitesFrom, h.sitesOf_eq hline, hsites]⟩

variable (framework : Framework) {r r' : Registry} {source source' : FunctionSource}

theorem alike_start (haliases : r.aliases = r'.aliases) (callGraph : CallGraph)
    (function : String) :
    Alike (start framework function r callGraph) (start framework function r' callGraph) :=
  ⟨rfl, rfl, rfl, rfl, rfl, rfl, rfl, haliases, rfl⟩

-- Bodies with the same entries are scanned alike.
theorem alike_run (haliases : r.aliases = r'.aliases) (callGraph : CallGraph) (function : String)
    (hsource : Line.entries source.body = Line.entries source'.body) :
    Alike (run framework r callGraph function source)
      (run framework r' callGraph function source') :=
  ((alike_start framework haliases callGraph function).addLines (logicalLines_unnumbered hsource)).1

theorem Alike.body_eq (h : Alike s t) : s.body.unnumbered = t.body.unnumbered := by
  have hgraph : s.graph.unnumbered = t.graph.unnumbered := h.graph
  simp only [body, Body.unnumbered, h.function, hgraph, h.dataflow, h.entry, h.assertions]

theorem sitesAlone_eq (function : String)
    (hsource : Line.entries source.body = Line.entries source'.body) :
    sitesAlone framework function source = sitesAlone framework function source' :=
  ((alike_start framework.allTests (r := .empty) rfl .empty function).addLines
    (logicalLines_unnumbered hsource)).2

end Scan

end TestFocus
