import TestFocus.Proofs.Analysis.AliasChain
import TestFocus.Proofs.Analysis.ControlFlow
import TestFocus.Proofs.Analysis.ScanRecord
import TestFocus.Proofs.Dataflow.Uses

namespace TestFocus

namespace FlowGraph

-- The calls among the statements, in order.
def callSites (g : FlowGraph) : List CallSite :=
  g.statements.filterMap fun place => Scan.siteOf? place.1 place.2

-- Does the node carry the mark of an assertion?
def isAssertion (g : FlowGraph) (id : Nat) : Bool :=
  (g.node? id).any (·.isAssertion)

-- The node is a call whose result goes to the register.
def Answers (g : FlowGraph) (id : Nat) (register : String) : Prop :=
  ∃ n statement call, g.node? id = some n ∧ n.assignee = some register ∧
    n.statement = some statement ∧ statement.call? = some call

variable {g g' : FlowGraph}

theorem isAssertion_addEdge (g : FlowGraph) (source target : Nat) (label : Option String)
    (id : Nat) : (g.addEdge source target label).2.isAssertion id = g.isAssertion id := by
  rw [addEdge_eq]
  split
  · rfl
  · rw [isAssertion, isAssertion, node?_withEdge, Option.any_map]

-- A new node carries no mark.
theorem isAssertion_withNode (g : FlowGraph) {node : FlowNode} (hnode : node.isAssertion = false)
    (id : Nat) : (g.withNode node).isAssertion id = g.isAssertion id := by
  rw [isAssertion, isAssertion, node?_withNode]
  split
  · next hid =>
    have hnone : g.node? id = none := Array.getElem?_eq_none (Nat.le_of_eq hid.symm)
    rw [hnone, Option.any_some, hnode, Option.any_none]
  · rfl

theorem isAssertion_blockNode (g : FlowGraph) (label : String) (id : Nat) :
    (g.blockNode label).2.isAssertion id = g.isAssertion id := by
  rw [blockNode]
  split
  · rfl
  · exact isAssertion_withNode g rfl id

theorem isAssertion_fall (g : FlowGraph) (previous : Option Nat) (node id : Nat) :
    (g.fall previous node).isAssertion id = g.isAssertion id := by
  cases previous with
  | none => rfl
  | some previous => exact isAssertion_addEdge g previous node none id

theorem isAssertion_addJumps (g : FlowGraph) (node : Nat) (jumps : List (String × Option String))
    (id : Nat) : (g.addJumps node jumps).isAssertion id = g.isAssertion id := by
  induction jumps generalizing g with
  | nil => rfl
  | cons jump jumps ih =>
    rw [addJumps_cons, ih, isAssertion_addEdge, isAssertion_blockNode]

theorem isAssertion_markAssertion {node : Nat} (hnode : node < g.size) (assertion : Bool)
    (id : Nat) : (g.markAssertion node assertion).isAssertion id =
      (g.isAssertion id || (id == node && assertion)) := by
  cases assertion with
  | false => simp [markAssertion]
  | true =>
    obtain ⟨n, hn⟩ := exists_node?_of_lt hnode
    simp only [markAssertion, if_true, isAssertion, node?, modifyNode, Array.getElem?_modify]
    by_cases hid : node = id
    · subst hid
      have hhere : g.nodes[node]? = some n := hn
      simp [hhere]
    · simp [hid, Ne.symm hid]

theorem isAssertion_visit (g : FlowGraph) (previous : Option Nat) (line : SourceLine)
    (assignee : Option String) (s : Statement) (assertion : Bool) (id : Nat) :
    (g.visit previous line assignee s assertion).isAssertion id =
      (g.isAssertion id || (id == g.size && assertion)) := by
  have hsize : g.size < ((g.addStatement line.text s assignee line.number).2.fall previous
      g.size).size := by
    rw [← length_outlines (fall _ _ _), outlines_fall, outlines_addStatement, List.length_append,
      length_outlines]
    exact Nat.lt_succ_self _
  rw [visit, isAssertion_markAssertion hsize, isAssertion_fall]
  congr 1
  exact isAssertion_withNode g rfl id

theorem statements_fall (g : FlowGraph) (previous : Option Nat) (node : Nat) :
    (g.fall previous node).statements = g.statements := by
  rw [statements_eq, statements_eq, outlines_fall]

theorem statements_visit (g : FlowGraph) (previous : Option Nat) (line : SourceLine)
    (assignee : Option String) (s : Statement) (assertion : Bool) :
    (g.visit previous line assignee s assertion).statements = g.statements ++ [(g.size, s)] := by
  rw [statements_eq, statements_eq, outlines_visit, List.filterMap_append]
  rfl

theorem Answers.mono {id : Nat} {register : String} (h : g.Answers id register)
    (hext : g.Extends g') : g'.Answers id register := by
  obtain ⟨n, statement, call, hn, hassignee, hstatement, hcall⟩ := h
  obtain ⟨n', hn', houtline⟩ := hext.node? hn
  have hassignee' : n'.assignee = n.assignee := congrArg (·.assignee) houtline
  have hstatement' : n'.statement = n.statement := congrArg (·.statement) houtline
  exact ⟨n', statement, call, hn', hassignee'.trans hassignee, hstatement'.trans hstatement, hcall⟩

end FlowGraph

namespace Scan

variable {framework : Framework} {s t : Scan}

theorem definition?_recordEffect (d : Dataflow) (statement : Statement) (register : String) :
    (recordEffect d statement).definition? register = d.definition? register := by
  unfold recordEffect
  split <;> rfl

theorem call?_of_provenance? {node other : Nat} {statement : Statement}
    (h : provenance? node statement = some (.callResult other)) :
    other = node ∧ ∃ call, statement.call? = some call := by
  cases statement with
  | call call =>
    cases h
    exact ⟨rfl, call, rfl⟩
  | invoke call normal unwind =>
    cases h
    exact ⟨rfl, call, rfl⟩
  | callBranch call fallthrough indirect =>
    cases h
    exact ⟨rfl, call, rfl⟩
  | ret type value =>
    cases value <;> simp [provenance?, Statement.isComputation] at h
  | _ => simp [provenance?, Statement.isComputation] at h

-- A definition as the result of a call that was not there is that of the assignee, if the statement
-- is a call.
theorem definition?_recordDataflow {d : Dataflow} {node other : Nat} {assignee : Option String}
    {statement : Statement} {register : String}
    (h : (recordDataflow d node assignee statement).definition? register =
      some (.callResult other)) :
    d.definition? register = some (.callResult other) ∨
      other = node ∧ assignee = some register ∧ ∃ call, statement.call? = some call := by
  unfold recordDataflow at h
  split at h
  · next assigned provenance hprovenance =>
    rw [Dataflow.definition?_define, definition?_recordEffect] at h
    split at h
    · next hnew =>
      cases h
      obtain ⟨rfl, hcall⟩ := call?_of_provenance? hprovenance
      exact .inr ⟨rfl, by rw [hnew.1], hcall⟩
    · exact .inl h
  · rw [definition?_recordEffect] at h
    exact .inl h

-- The scans have noted the same, with the same names.
structure NotesAlike (s t : Scan) : Prop where
  function : t.function = s.function
  dataflow : t.dataflow = s.dataflow
  assertions : t.assertions = s.assertions
  callees : t.callees = s.callees
  callGraph : t.callGraph = s.callGraph
  aliases : t.registry.aliases = s.registry.aliases

theorem fallInto_notes (s : Scan) (node : Nat) : NotesAlike s (s.fallInto node) := by
  unfold fallInto
  split <;> exact ⟨rfl, rfl, rfl, rfl, rfl, rfl⟩

theorem addJumps_notes (jumps : List (String × Option String)) (node : Nat) (s : Scan) :
    NotesAlike s (jumps.foldl (fun s jump => s.addJump node jump) s) := by
  induction jumps generalizing s with
  | nil => exact ⟨rfl, rfl, rfl, rfl, rfl, rfl⟩
  | cons jump jumps ih => exact { ih (s.addJump node jump) with }

theorem recordCall_dataflow (s : Scan) (node : Nat) (statement : Statement) :
    (s.recordCall framework node statement).dataflow = s.dataflow := by
  simp only [recordCall]
  split
  · split
    · simp only [recordDirectCall]
      split <;> rfl
    · rfl
  · rfl

theorem recordCall_aliases (s : Scan) (node : Nat) (statement : Statement) :
    (s.recordCall framework node statement).registry.aliases = s.registry.aliases := by
  rw [recordCall_registry, Registry.addCallSites_aliases]

theorem mem_recordCall_assertions (s : Scan) (node : Nat) (statement : Statement) (id : Nat) :
    id ∈ (s.recordCall framework node statement).assertions ↔
      id ∈ s.assertions ∨ id = node ∧ framework.asserts statement = true := by
  cases hcall : statement.call? with
  | none => simp [recordCall, Framework.asserts, hcall]
  | some call =>
    obtain ⟨kind, hkind⟩ := exists_callKind hcall
    cases hdirect : call.isDirect with
    | false => simp [recordCall, Framework.asserts, hcall, hkind, hdirect]
    | true =>
      cases hassertion : framework.isAssertion call.callee with
      | false =>
        simp [recordCall, recordDirectCall, Framework.asserts, hcall, hkind, hdirect, hassertion]
      | true =>
        simp [recordCall, recordDirectCall, Framework.asserts, hcall, hkind, hdirect, hassertion]

-- A call by a name is noted as a call of the function that the name stands for.
theorem recordCall_callGraph (s : Scan) (node : Nat) (statement : Statement) :
    (s.recordCall framework node statement).callGraph =
      match statement.call? with
      | some call =>
        if call.isDirect then s.callGraph.addCall s.function (s.registry.resolve call.callee)
        else s.callGraph
      | none => s.callGraph := by
  cases hcall : statement.call? with
  | none => simp [recordCall, hcall]
  | some call =>
    obtain ⟨kind, hkind⟩ := exists_callKind hcall
    by_cases hdirect : call.isDirect
    · have hresolve (site : CallSite) :
          Registry.resolve ((s.registry.addCallSite? s.function site).getD s.registry) call.callee =
            s.registry.resolve call.callee :=
        Registry.resolve_congr (Registry.addCallSite_aliases _ _ _) _
      simp only [recordCall, hcall, hkind, hdirect, if_true, recordDirectCall, hresolve]
      split <;> rfl
    · simp [recordCall, hcall, hkind, hdirect]

theorem wellFormed_recordCall {s : Scan} (h : s.callGraph.WellFormed) (node : Nat)
    (statement : Statement) :
    (s.recordCall framework node statement).callGraph.WellFormed := by
  rw [recordCall_callGraph]
  split
  · split
    · exact (h.addCall _ _).1
    · exact h
  · exact h

theorem mem_recordCall_calls {s : Scan} (h : s.callGraph.WellFormed) (node : Nat)
    (statement : Statement) (pair : String × String) :
    pair ∈ (s.recordCall framework node statement).callGraph.calls ↔ pair ∈ s.callGraph.calls ∨
      ∃ call, statement.call? = some call ∧ call.isDirect ∧
        pair = (s.function, s.registry.resolve call.callee) := by
  rw [recordCall_callGraph]
  cases hcall : statement.call? with
  | none => simp
  | some call =>
    by_cases hdirect : call.isDirect
    · have hcalls := (h.addCall s.function (s.registry.resolve call.callee)).2.2
      simp [hdirect, hcalls, CallGraph.mem_adjoin]
    · simp [hdirect]

-- A statement is noted by its data flow and by its call, before the jumps.
theorem addStatement_notes (framework : Framework) (s : Scan) (line : SourceLine)
    (assignee : Option String) (statement : Statement) :
    ∃ fallen : Scan,
      NotesAlike { s with
        dataflow := recordDataflow s.dataflow s.graph.size assignee statement } fallen ∧
      NotesAlike (fallen.recordCall framework s.graph.size statement)
        (s.addStatement framework line assignee statement) := by
  let fall := Scan.fallInto
    { s with graph := (s.graph.addStatement line.text statement assignee line.number).2 }
    s.graph.size
  have hfall : NotesAlike s fall := { fallInto_notes _ _ with }
  exact ⟨{ fall with dataflow := recordDataflow fall.dataflow s.graph.size assignee statement },
    { hfall with dataflow := by simp only [hfall.dataflow] },
    { addJumps_notes statement.successors s.graph.size
        (recordCall framework
          { fall with dataflow := recordDataflow fall.dataflow s.graph.size assignee statement }
          s.graph.size statement) with }⟩

-- What is noted agrees with the graph, and the calls that are there from other bodies are kept.
structure Noted (calls : List (String × String)) (s : Scan) : Prop where
  marks : ∀ id, s.graph.isAssertion id = true ↔ id ∈ s.assertions
  results : ∀ register node, s.dataflow.definition? register = some (.callResult node) →
    s.graph.Answers node register
  formed : s.callGraph.WellFormed
  kept : calls ⊆ s.callGraph.calls
  joined : ∀ callee ∈ s.callees,
    (s.function, s.registry.resolve callee) ∈ s.callGraph.calls

variable {calls : List (String × String)}

-- More nodes without marks change nothing.
theorem Noted.congr (h : Noted calls s) (hnotes : NotesAlike s t)
    (hgraph : s.graph.Extends t.graph)
    (hmarks : ∀ id, t.graph.isAssertion id = s.graph.isAssertion id) : Noted calls t where
  marks id := by
    rw [hmarks, hnotes.assertions]
    exact h.marks id
  results register node hresult := by
    rw [hnotes.dataflow] at hresult
    exact (h.results register node hresult).mono hgraph
  formed := by
    rw [hnotes.callGraph]
    exact h.formed
  kept := by
    rw [hnotes.callGraph]
    exact h.kept
  joined callee hcallee := by
    rw [hnotes.callees] at hcallee
    rw [hnotes.callGraph, hnotes.function, Registry.resolve_congr hnotes.aliases]
    exact h.joined callee hcallee

theorem Noted.enterBlock (h : Noted calls s) (label : String) :
    Noted calls (s.enterBlock label) := by
  have hgraph : (s.enterBlock label).graph =
      (s.graph.defineBlock label).2.fall s.previous (s.graph.defineBlock label).1 := by
    simp only [Scan.enterBlock, graph_fallInto]
  refine h.congr { fallInto_notes { s with graph := (s.graph.defineBlock label).2 } _ with } ?_
    fun id => ?_
  · rw [hgraph]
    exact (FlowGraph.extends_defineBlock s.graph label).trans (FlowGraph.extends_fall _ _ _)
  · rw [hgraph, FlowGraph.isAssertion_fall]
    exact FlowGraph.isAssertion_blockNode _ label id

theorem Noted.addStatement (h : Noted calls s) (line : SourceLine) (assignee : Option String)
    (statement : Statement) :
    Noted calls (s.addStatement framework line assignee statement) := by
  obtain ⟨fallen, hfallen, hnotes⟩ := addStatement_notes framework s line assignee statement
  have hgraph : (s.addStatement framework line assignee statement).graph =
      (s.graph.visit s.previous line assignee statement (framework.asserts statement)).addJumps
        s.graph.size (Stop.statement line assignee statement).jumps :=
    graph_addStatement s line assignee statement
  have hvisit : s.graph.Extends (s.graph.visit s.previous line assignee statement
      (framework.asserts statement)) := FlowGraph.extends_visit
  have hext : s.graph.Extends (s.addStatement framework line assignee statement).graph := by
    rw [hgraph]
    exact hvisit.trans (FlowGraph.extends_addJumps _ _ _)
  have hresolve (name : String) : fallen.registry.resolve name = s.registry.resolve name :=
    Registry.resolve_congr hfallen.aliases name
  have hformed : fallen.callGraph.WellFormed := by
    rw [hfallen.callGraph]
    exact h.formed
  constructor
  case marks =>
    intro id
    rw [hgraph, FlowGraph.isAssertion_addJumps, FlowGraph.isAssertion_visit, hnotes.assertions,
      mem_recordCall_assertions, hfallen.assertions, Bool.or_eq_true, h.marks, Bool.and_eq_true,
      beq_iff_eq]
  case results =>
    intro register node hresult
    rw [hnotes.dataflow, recordCall_dataflow, hfallen.dataflow] at hresult
    rcases definition?_recordDataflow hresult with hold | ⟨rfl, rfl, call, hcall⟩
    · exact (h.results register node hold).mono hext
    · have hstands : (Stop.statement line (some register) statement).StandsAt
          (s.addStatement framework line (some register) statement).graph s.graph.size := by
        rw [hgraph]
        exact FlowGraph.standsAt_visit.mono (FlowGraph.extends_addJumps _ _ _)
      obtain ⟨n, hn, houtline⟩ := hstands
      exact ⟨n, statement, call, hn, congrArg FlowNode.assignee houtline,
        congrArg FlowNode.statement houtline, hcall⟩
  case formed =>
    rw [hnotes.callGraph]
    exact wellFormed_recordCall hformed _ _
  case kept =>
    intro pair hpair
    rw [hnotes.callGraph, mem_recordCall_calls hformed, hfallen.callGraph]
    exact .inl (h.kept hpair)
  case joined =>
    intro callee hcallee
    rw [hnotes.callees, mem_recordCall_callees, hfallen.callees] at hcallee
    rw [hnotes.callGraph, mem_recordCall_calls hformed, hfallen.callGraph, hnotes.function,
      recordCall_function, hfallen.function, Registry.resolve_congr hnotes.aliases,
      Registry.resolve_congr (recordCall_aliases fallen _ _), hresolve]
    rcases hcallee with hold | ⟨call, hcall, hdirect, rfl⟩
    · exact .inl (h.joined callee hold)
    · exact .inr ⟨call, hcall, hdirect, by rw [hresolve]⟩

theorem Noted.addLine (h : Noted calls s) (line : LogicalLine) :
    Noted calls (s.addLine framework line) := by
  cases line with
  | label label => exact h.enterBlock label
  | instruction line =>
    simp only [Scan.addLine]
    split
    · exact { h with }
    · exact h.addStatement line _ _
    · exact h

theorem noted_run (framework : Framework) (registry : Registry) {callGraph : CallGraph}
    (hformed : callGraph.WellFormed) (function : String) (source : FunctionSource) :
    Noted callGraph.calls (run framework registry callGraph function source) := by
  have hlines (lines : List LogicalLine) (s : Scan) (h : Noted callGraph.calls s) :
      Noted callGraph.calls (lines.foldl (Scan.addLine framework) s) := by
    induction lines generalizing s with
    | nil => exact h
    | cons line lines ih => exact ih _ (h.addLine line)
  apply hlines
  constructor
  case marks =>
    intro id
    have hstart : (start framework function registry callGraph).graph.isAssertion id = false := by
      cases id <;> simp [start, FlowGraph.isAssertion, FlowGraph.addNode, FlowGraph.modifyNode,
        FlowGraph.empty, FlowGraph.node?]
    rw [hstart]
    exact iff_of_false Bool.false_ne_true List.not_mem_nil
  case results =>
    intro register node hresult
    cases hresult
  case formed => exact hformed
  case kept => exact List.Subset.refl _
  case joined =>
    intro callee hcallee
    cases hcallee

end Scan

theorem Scan.siteOf?_eq_some {node : Nat} {statement : Statement} {site : CallSite} :
    siteOf? node statement = some site ↔ ∃ call, statement.call? = some call ∧
      statement.callKind? = some site.kind ∧ site.node = node ∧ site.callee = call.callee := by
  obtain ⟨node', kind', callee⟩ := site
  unfold siteOf?
  cases hcall : statement.call? with
  | none => simp
  | some call =>
    obtain ⟨kind, hkind⟩ := exists_callKind hcall
    simp [hkind, eq_comm, and_left_comm]

namespace FlowGraph

variable {g : FlowGraph}

theorem WellFormed.mem_statements (h : g.WellFormed) {id : Nat} {s : Statement} :
    (id, s) ∈ g.statements ↔ g.statement? id = some s := by
  simp only [statements, List.mem_filterMap, Option.map_eq_some_iff, Prod.mk.injEq,
    Array.mem_toList_iff]
  constructor
  · rintro ⟨n, hn, _, hs, rfl, rfl⟩
    obtain ⟨i, hi⟩ := Array.mem_iff_getElem?.mp hn
    rw [h.id i n hi, statement?, node?, hi]
    exact hs
  · intro hs
    obtain ⟨n, hn, hs⟩ := Option.bind_eq_some_iff.mp hs
    exact ⟨n, Array.mem_of_getElem? hn, s, hs, h.id id n hn, rfl⟩

-- A call site is that of a node that holds a call.
theorem WellFormed.mem_callSites (h : g.WellFormed) {site : CallSite} :
    site ∈ g.callSites ↔ ∃ s call, g.statement? site.node = some s ∧ s.call? = some call ∧
      s.callKind? = some site.kind ∧ site.callee = call.callee := by
  simp only [callSites, List.mem_filterMap, Scan.siteOf?_eq_some]
  constructor
  · rintro ⟨⟨id, s⟩, hmem, call, hcall, hkind, rfl, hcallee⟩
    exact ⟨s, call, h.mem_statements.mp hmem, hcall, hkind, hcallee⟩
  · rintro ⟨s, call, hs, hcall, hkind, hcallee⟩
    exact ⟨(site.node, s), h.mem_statements.mpr hs, call, hcall, hkind, rfl, hcallee⟩

-- The call sites stand in the order of their nodes, each once.
theorem WellFormed.pairwise_callSites (h : g.WellFormed) :
    g.callSites.Pairwise (·.node < ·.node) := by
  rw [callSites, List.pairwise_filterMap]
  refine h.pairwise_statements.imp fun {place place'} hlt => ?_
  intro site hsite site' hsite'
  obtain ⟨_, _, _, hnode, _⟩ := Scan.siteOf?_eq_some.mp hsite
  obtain ⟨_, _, _, hnode', _⟩ := Scan.siteOf?_eq_some.mp hsite'
  rwa [hnode, hnode']

end FlowGraph

namespace Scan

theorem callSites_addLine (framework : Framework) (s : Scan) (line : LogicalLine) :
    (s.addLine framework line).graph.callSites = s.graph.callSites ++ s.sitesOf line := by
  cases line with
  | label label =>
    have hgraph : (s.enterBlock label).graph.statements = s.graph.statements := by
      simp only [Scan.enterBlock, graph_fallInto, FlowGraph.statements_fall]
      exact FlowGraph.statements_blockNode _ label
    simp only [addLine, sitesOf, FlowGraph.callSites, hgraph, List.append_nil]
  | instruction line =>
    simp only [addLine, sitesOf]
    cases Instruction.parse line.text with
    | error e => exact (List.append_nil _).symm
    | ok instruction =>
      obtain ⟨assignee, kind, statement⟩ := instruction
      cases statement with
      | none => exact (List.append_nil _).symm
      | some statement =>
        simp only [graph_addStatement, FlowGraph.callSites, FlowGraph.statements_addJumps,
          FlowGraph.statements_visit, List.filterMap_append]
        congr 1

theorem callSites_addLines (framework : Framework) (lines : List LogicalLine) (s : Scan) :
    (lines.foldl (addLine framework) s).graph.callSites =
      s.graph.callSites ++ sitesFrom framework lines s := by
  induction lines generalizing s with
  | nil => exact (List.append_nil _).symm
  | cons line lines ih =>
    rw [List.foldl_cons, ih, callSites_addLine, sitesFrom, List.append_assoc]

-- The call sites that a scan records are the calls of its graph.
theorem callSites_alone (framework : Framework) (function : String) (source : FunctionSource) :
    (alone framework function source).graph.callSites = sitesAlone framework function source := by
  have hstart : (start framework.allTests function .empty .empty).graph.callSites = [] := rfl
  rw [alone, run, callSites_addLines, hstart, List.nil_append, sitesAlone]

end Scan

end TestFocus
