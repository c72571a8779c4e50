import TestFocus.Body.Scan
import TestFocus.Proofs.Analysis.Marks
import TestFocus.Proofs.CallGraph.Growth
import TestFocus.Proofs.Table

namespace TestFocus

-- A definition with more calls, behind those that are there.
def Definition.withCalls (d : Definition) (sites : List CallSite) : Definition :=
  { d with callSites := d.callSites ++ sites }

namespace Registry

-- Records calls of a function one after another.
def addCallSites (r : Registry) (name : String) (sites : List CallSite) : Registry :=
  sites.foldl (fun r site => (r.addCallSite? name site).getD r) r

theorem addCallSites_append (r : Registry) (name : String) (first second : List CallSite) :
    r.addCallSites name (first ++ second) = (r.addCallSites name first).addCallSites name second :=
  List.foldl_append

theorem addCallSite_aliases (r : Registry) (name : String) (site : CallSite) :
    ((r.addCallSite? name site).getD r).aliases = r.aliases := by
  unfold addCallSite?
  cases r.definitions.get? name <;> rfl

theorem addCallSite_attributeGroups (r : Registry) (name : String) (site : CallSite) :
    ((r.addCallSite? name site).getD r).attributeGroups = r.attributeGroups := by
  unfold addCallSite?
  cases r.definitions.get? name <;> rfl

theorem get?_addCallSite (r : Registry) (name other : String) (site : CallSite) :
    ((r.addCallSite? name site).getD r).definitions.get? other =
      if other = name then (r.definitions.get? name).map (·.withCalls [site])
      else r.definitions.get? other := by
  unfold addCallSite?
  cases hdefined : r.definitions.get? name with
  | none =>
    by_cases hother : other = name
    · simp [hother, hdefined]
    · simp [hother]
  | some d => exact Table.get?_insert _ _ _ _

theorem addCallSites_aliases (r : Registry) (name : String) (sites : List CallSite) :
    (r.addCallSites name sites).aliases = r.aliases := by
  induction sites generalizing r with
  | nil => rfl
  | cons site sites ih =>
    exact (ih _).trans (addCallSite_aliases r name site)

theorem addCallSites_attributeGroups (r : Registry) (name : String) (sites : List CallSite) :
    (r.addCallSites name sites).attributeGroups = r.attributeGroups := by
  induction sites generalizing r with
  | nil => rfl
  | cons site sites ih =>
    exact (ih _).trans (addCallSite_attributeGroups r name site)

theorem get?_addCallSites (r : Registry) (name other : String) (sites : List CallSite) :
    (r.addCallSites name sites).definitions.get? other =
      if other = name then (r.definitions.get? name).map (·.withCalls sites)
      else r.definitions.get? other := by
  induction sites generalizing r with
  | nil =>
    by_cases hother : other = name
    · simp [addCallSites, hother, Definition.withCalls]
    · simp [addCallSites, hother]
  | cons site sites ih =>
    have hstep := ih ((r.addCallSite? name site).getD r)
    rw [get?_addCallSite, get?_addCallSite, if_pos rfl] at hstep
    refine hstep.trans ?_
    by_cases hother : other = name
    · simp [hother, Definition.withCalls, Function.comp_def]
    · simp [hother]

end Registry

namespace Scan

section Sites

-- The call site of a statement that is a call.
def siteOf? (node : Nat) (statement : Statement) : Option CallSite :=
  match statement.call?, statement.callKind? with
  | some call, some kind => some { node, kind, callee := call.callee }
  | _, _ => none

-- The call sites that a line adds.
def sitesOf (s : Scan) : LogicalLine → List CallSite
  | .label _ => []
  | .instruction line =>
    match Instruction.parse line.text with
    | .ok { statement := some statement, .. } => (siteOf? s.graph.nodes.size statement).toList
    | _ => []

def sitesFrom (framework : Framework) : List LogicalLine → Scan → List CallSite
  | [], _ => []
  | line :: lines, s => s.sitesOf line ++ sitesFrom framework lines (s.addLine framework line)

theorem fallInto_registry (s : Scan) (node : Nat) : (s.fallInto node).registry = s.registry := by
  unfold fallInto
  split <;> rfl

theorem fallInto_function (s : Scan) (node : Nat) : (s.fallInto node).function = s.function := by
  unfold fallInto
  split <;> rfl

theorem recordDirectCall_registry (framework : Framework) (s : Scan) (node : Nat)
    (callee : String) : (s.recordDirectCall framework node callee).registry = s.registry := by
  simp only [recordDirectCall]
  split <;> rfl

theorem recordDirectCall_function (framework : Framework) (s : Scan) (node : Nat)
    (callee : String) : (s.recordDirectCall framework node callee).function = s.function := by
  simp only [recordDirectCall]
  split <;> rfl

theorem recordCall_registry (framework : Framework) (s : Scan) (node : Nat)
    (statement : Statement) :
    (s.recordCall framework node statement).registry =
      s.registry.addCallSites s.function (siteOf? node statement).toList := by
  cases hcall : statement.call? with
  | none =>
    simp only [recordCall, siteOf?, hcall]
    rfl
  | some call =>
    cases hkind : statement.callKind? with
    | none =>
      simp only [recordCall, siteOf?, hcall, hkind]
      rfl
    | some kind =>
      simp only [recordCall, siteOf?, hcall, hkind]
      split
      · rw [recordDirectCall_registry]
        rfl
      · rfl

theorem recordCall_function (framework : Framework) (s : Scan) (node : Nat)
    (statement : Statement) : (s.recordCall framework node statement).function = s.function := by
  simp only [recordCall]
  split
  · split
    · exact recordDirectCall_function framework _ node _
    · rfl
  · rfl

theorem addJumps_registry (jumps : List (String × Option String)) (node : Nat) (s : Scan) :
    (jumps.foldl (fun s jump => s.addJump node jump) s).registry = s.registry := by
  induction jumps generalizing s with
  | nil => rfl
  | cons jump jumps ih => exact ih _

theorem addJumps_function (jumps : List (String × Option String)) (node : Nat) (s : Scan) :
    (jumps.foldl (fun s jump => s.addJump node jump) s).function = s.function := by
  induction jumps generalizing s with
  | nil => rfl
  | cons jump jumps ih => exact ih _

theorem addLine_registry (framework : Framework) (s : Scan) (line : LogicalLine) :
    (s.addLine framework line).registry = s.registry.addCallSites s.function (s.sitesOf line) := by
  cases line with
  | label label => exact fallInto_registry _ _
  | instruction line =>
    simp only [addLine, sitesOf]
    cases Instruction.parse line.text with
    | error e => rfl
    | ok instruction =>
      obtain ⟨assignee, kind, statement⟩ := instruction
      cases statement with
      | none => rfl
      | some statement =>
        simp only [addStatement, addJumps_registry, recordCall_registry, fallInto_registry,
          fallInto_function]
        rfl

theorem addLine_function (framework : Framework) (s : Scan) (line : LogicalLine) :
    (s.addLine framework line).function = s.function := by
  cases line with
  | label label => exact fallInto_function _ _
  | instruction line =>
    simp only [addLine]
    split
    · rfl
    · simp only [addStatement, addJumps_function, recordCall_function, fallInto_function]
    · rfl

theorem addLines_registry (framework : Framework) (lines : List LogicalLine) (s : Scan) :
    (lines.foldl (addLine framework) s).registry =
      s.registry.addCallSites s.function (sitesFrom framework lines s) := by
  induction lines generalizing s with
  | nil => rfl
  | cons line lines ih =>
    rw [List.foldl_cons, ih, addLine_registry, addLine_function, sitesFrom,
      Registry.addCallSites_append]

end Sites

section Callees

variable {s t : Scan} {framework : Framework}

-- Every function that is called by its name is among the callees.
def ListsCallees (s : Scan) : Prop :=
  ∀ node statement call, s.graph.statement? node = some statement → statement.call? = some call →
    call.isDirect → call.callee ∈ s.callees

theorem ListsCallees.congr (h : ListsCallees s) (hcallees : s.callees = t.callees)
    (hstatements : ∀ id, t.graph.statement? id = s.graph.statement? id) : ListsCallees t := by
  intro node statement call hstatement hcall hdirect
  rw [hstatements] at hstatement
  rw [← hcallees]
  exact h node statement call hstatement hcall hdirect

theorem fallInto_statement? (s : Scan) (node id : Nat) :
    (s.fallInto node).graph.statement? id = s.graph.statement? id := by
  unfold Scan.fallInto
  split
  · exact FlowGraph.statement?_addEdge _ _ _ _ _
  · rfl

theorem fallInto_callees (s : Scan) (node : Nat) : (s.fallInto node).callees = s.callees := by
  unfold Scan.fallInto
  split <;> rfl

theorem ListsCallees.fallInto (h : ListsCallees s) (node : Nat) : ListsCallees (s.fallInto node) :=
  h.congr (fallInto_callees s node).symm (fallInto_statement? s node)

theorem ListsCallees.addJumps (h : ListsCallees s) (jumps : List (String × Option String))
    (node : Nat) : ListsCallees (jumps.foldl (fun s jump => s.addJump node jump) s) := by
  induction jumps generalizing s with
  | nil => exact h
  | cons jump jumps ih =>
    refine ih (h.congr rfl fun id => ?_)
    simp only [Scan.addJump, FlowGraph.statement?_addEdge, FlowGraph.statement?_blockNode]

theorem exists_callKind {statement : Statement} {call : Call} (h : statement.call? = some call) :
    ∃ kind, statement.callKind? = some kind := by
  cases statement <;> simp_all [Statement.call?, Statement.callKind?]

theorem recordCall_statement? (framework : Framework) (s : Scan) (node : Nat)
    (statement : Statement) (id : Nat) :
    (s.recordCall framework node statement).graph.statement? id = s.graph.statement? id := by
  simp only [Scan.recordCall]
  split
  · split
    · simp only [recordDirectCall]
      split
      · simp only
        rw [FlowGraph.statement?_modifyNode]
        intro n
        rfl
      · rfl
    · rfl
  · rfl

theorem mem_recordCall_callees (framework : Framework) (s : Scan) (node : Nat)
    (statement : Statement) (callee : String) :
    callee ∈ (s.recordCall framework node statement).callees ↔ callee ∈ s.callees ∨
      ∃ call, statement.call? = some call ∧ call.isDirect ∧ callee = call.callee := by
  cases hcall : statement.call? with
  | none => simp [Scan.recordCall, hcall]
  | some call =>
    obtain ⟨kind, hkind⟩ := exists_callKind hcall
    by_cases hdirect : call.isDirect
    · have hcallees : (s.recordCall framework node statement).callees =
          CallGraph.adjoin s.callees call.callee := by
        simp only [Scan.recordCall, hcall, hkind, hdirect, ite_true, recordDirectCall]
        split <;> rfl
      rw [hcallees, CallGraph.mem_adjoin]
      simp [hdirect]
    · simp [Scan.recordCall, hcall, hkind, hdirect]

theorem ListsCallees.addStatement (h : ListsCallees s) (line : SourceLine)
    (assignee : Option String) (statement : Statement) :
    ListsCallees (s.addStatement framework line assignee statement) := by
  simp only [Scan.addStatement]
  refine ListsCallees.congr (ListsCallees.addJumps ?_ statement.successors _) rfl fun _ => rfl
  intro id other call hother hcall hdirect
  rw [recordCall_statement?, fallInto_statement?, FlowGraph.statement?_addStatement] at hother
  rw [mem_recordCall_callees, fallInto_callees]
  split at hother
  · cases hother
    exact .inr ⟨call, hcall, hdirect, rfl⟩
  · exact .inl (h id other call hother hcall hdirect)

theorem ListsCallees.addLine (h : ListsCallees s) (line : LogicalLine) :
    ListsCallees (s.addLine framework line) := by
  cases line with
  | label label =>
    have hblock : ListsCallees { s with graph := (s.graph.defineBlock label).2 } :=
      h.congr rfl fun id => FlowGraph.statement?_defineBlock s.graph label id
    exact (hblock.fallInto _).congr rfl fun _ => rfl
  | instruction line =>
    simp only [Scan.addLine]
    split
    · exact h.congr rfl fun _ => rfl
    · exact h.addStatement line _ _
    · exact h

theorem listsCallees_run (framework : Framework) (registry : Registry) (callGraph : CallGraph)
    (function : String) (source : FunctionSource) :
    ListsCallees (run framework registry callGraph function source) := by
  have hlines (lines : List LogicalLine) (s : Scan) (h : ListsCallees s) :
      ListsCallees (lines.foldl (Scan.addLine framework) s) := by
    induction lines generalizing s with
    | nil => exact h
    | cons line lines ih => exact ih _ (h.addLine line)
  have hstart (node : Nat) :
      (start framework function registry callGraph).graph.statement? node = none := by
    simp only [start]
    rw [FlowGraph.statement?_modifyNode, FlowGraph.statement?_addNode]
    · rfl
    · intro n
      rfl
  apply hlines
  intro node statement call hstatement
  rw [hstart] at hstatement
  cases hstatement

end Callees

end Scan

end TestFocus
