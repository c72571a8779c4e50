import TestFocus.Proofs.Analysis.Agreement
import TestFocus.Proofs.Comments.Padding
import TestFocus.Proofs.Comments.Scanning

namespace TestFocus

namespace FlowGraph

variable (g : FlowGraph) (id : Nat)

theorem node?_unnumbered : g.unnumbered.node? id = (g.node? id).map FlowNode.unnumbered :=
  Array.getElem?_map

theorem statement?_unnumbered : g.unnumbered.statement? id = g.statement? id :=
  statement?_mapNodes (f := FlowNode.unnumbered) g (fun _ => rfl) id

theorem predecessors_unnumbered : g.unnumbered.predecessors id = g.predecessors id := by
  simp only [predecessors, node?_unnumbered]
  cases g.node? id <;> rfl

theorem size_unnumbered : g.unnumbered.size = g.size :=
  Array.size_map

end FlowGraph

namespace Body

variable (b : Body)

theorem call?_unnumbered (node : Nat) : b.unnumbered.call? node = b.call? node := by
  simp only [call?, statement?, unnumbered, FlowGraph.statement?_unnumbered]

theorem assignee?_unnumbered (node : Nat) : b.unnumbered.assignee? node = b.assignee? node := by
  simp only [assignee?, unnumbered, FlowGraph.node?_unnumbered, Option.bind_map]
  rfl

variable {b} {b' : Body}

theorem alike_of_unnumbered_eq (h : b.unnumbered = b'.unnumbered) : Body.Alike b b' where
  name := congrArg (·.name) h
  dataflow := congrArg (·.dataflow) h
  call node := by rw [← call?_unnumbered b, h, call?_unnumbered]
  assignee node := by rw [← assignee?_unnumbered b, h, assignee?_unnumbered]

end Body

namespace Trace

variable {σ : Type} (p : Program) (judge : Judge σ) (b : Body)

theorem follow_unnumbered (s : TraceState) (value : String) (isReference : Bool) :
    follow b.unnumbered s value isReference = follow b s value isReference := by
  simp only [follow, Body.unnumbered, FlowGraph.predecessors_unnumbered]

theorem stay_unnumbered (s : TraceState) : stay b.unnumbered s = stay b s :=
  follow_unnumbered b s s.register s.isReference

theorem followArguments_unnumbered (s : TraceState) (call : Call) :
    followArguments b.unnumbered s call = followArguments b s call := by
  simp only [followArguments, follow_unnumbered]

theorem passCall_unnumbered (s : TraceState) (call : Call) (defines : Bool) :
    passCall b.unnumbered s call defines = passCall b s call defines := by
  simp only [passCall, followArguments_unnumbered, stay_unnumbered]

theorem derivesFrom_unnumbered (address base : String) :
    derivesFrom b.unnumbered address base = derivesFrom b address base := rfl

theorem passDefinition_unnumbered (s : TraceState) (statement : Statement) :
    passDefinition b.unnumbered s statement = passDefinition b s statement := by
  simp only [passDefinition, follow_unnumbered]

theorem passWrite_unnumbered (s : TraceState) (statement : Statement) :
    passWrite b.unnumbered s statement = passWrite b s statement := by
  simp only [passWrite, follow_unnumbered, stay_unnumbered, derivesFrom_unnumbered]

theorem passMemoryIntrinsic_unnumbered (s : TraceState) (call : Call) (positions : List Nat) :
    passMemoryIntrinsic b.unnumbered s call positions = passMemoryIntrinsic b s call positions := by
  simp only [passMemoryIntrinsic, follow_unnumbered, stay_unnumbered]

theorem receivingPositions_unnumbered (s : TraceState) (call : Call) :
    receivingPositions b.unnumbered s call = receivingPositions b s call := rfl

theorem stepScannedCall_unnumbered (s : TraceState) (call : Call) (callee : String)
    (defines : Bool) (positions : List Nat) (c : Candidates) :
    stepScannedCall judge b.unnumbered s call callee defines positions c =
      stepScannedCall judge b s call callee defines positions c := by
  simp only [stepScannedCall, followArguments_unnumbered, stay_unnumbered, passCall_unnumbered]

theorem stepCall_unnumbered (s : TraceState) (call : Call) (defines : Bool) (c : Candidates) :
    stepCall p judge b.unnumbered s call defines c = stepCall p judge b s call defines c := by
  simp only [stepCall, receivingPositions_unnumbered, stay_unnumbered, passCall_unnumbered,
    passMemoryIntrinsic_unnumbered, stepScannedCall_unnumbered]

theorem step_unnumbered (s : TraceState) (c : Candidates) :
    step p judge b.unnumbered s c = step p judge b s c := by
  have hnode : b.unnumbered.graph.node? s.node =
      (b.graph.node? s.node).map FlowNode.unnumbered := FlowGraph.node?_unnumbered b.graph s.node
  simp only [step, hnode, stay_unnumbered, stepCall_unnumbered, passDefinition_unnumbered,
    passWrite_unnumbered]
  cases b.graph.node? s.node <;> rfl

theorem walk_unnumbered (steps : Nat) (queue : List TraceState)
    (visited : List (Nat × String × Bool)) (c : Candidates) :
    walk p judge b.unnumbered steps queue visited c = walk p judge b steps queue visited c := by
  induction steps generalizing queue visited c with
  | zero => rfl
  | succ steps ih =>
    cases queue with
    | nil => rfl
    | cons s queue => simp only [walk, step_unnumbered, ih]

theorem walkSteps_unnumbered : walkSteps b.unnumbered = walkSteps b := by
  have hstatements : b.unnumbered.graph.statements = b.graph.statements := by
    simp [Body.unnumbered, FlowGraph.statements, FlowGraph.unnumbered, FlowGraph.mapNodes,
      FlowNode.unnumbered, Function.comp_def]
  have hentries : countEntries b.unnumbered = countEntries b := by
    simp only [countEntries, Body.unnumbered, FlowGraph.unnumbered, FlowGraph.mapNodes,
      Array.toList_map, List.foldl_map]
    rfl
  have hsize : b.unnumbered.graph.size = b.graph.size := FlowGraph.size_unnumbered b.graph
  simp only [walkSteps, countOperands, hstatements, hentries, hsize]

theorem focalMethods_unnumbered (register : String) (isReference : Bool) (node : Nat) :
    focalMethods p judge b.unnumbered register isReference node =
      focalMethods p judge b register isReference node := by
  simp only [focalMethods, walkSteps_unnumbered, stay_unnumbered, walk_unnumbered]

end Trace

namespace Program

variable (p : Program) (b : Body)

theorem assertedValues_unnumbered : p.assertedValues b.unnumbered = p.assertedValues b := by
  have hassertions : b.unnumbered.assertions = b.assertions := rfl
  simp only [assertedValues, hassertions, Body.call?_unnumbered]

theorem focalMethodsOf_unnumbered (values : List (Nat × String × Bool)) (found : List String) :
    p.focalMethodsOf b.unnumbered values found = p.focalMethodsOf b values found := by
  induction values generalizing found with
  | nil => rfl
  | cons value values ih => simp only [focalMethodsOf, Trace.focalMethods_unnumbered, ih]

-- Two programs whose bodies differ in lines only.
structure Alike (p p' : Program) : Prop where
  surface : SameSurface p p'
  bodies : ∀ name, Option.Rel (fun b b' => b.unnumbered = b'.unnumbered) (p.bodies.get? name)
    (p'.bodies.get? name)
  callSites : ∀ name, p.registry.callSites name = p'.registry.callSites name

variable {p} {b} {p' : Program} {b' : Body}

namespace Alike

theorem body? (h : Alike p p') (name : String) :
    Option.Rel (fun b b' => b.unnumbered = b'.unnumbered) (p.body? name) (p'.body? name) := by
  rw [Program.body?, Program.body?, h.surface.resolve_eq]
  exact h.bodies _

theorem callsOf_eq (h : Alike p p') (hb : b.unnumbered = b'.unnumbered) :
    p.callsOf b = p'.callsOf b' := by
  have halike := Body.alike_of_unnumbered_eq hb
  simp only [callsOf, halike.name, h.callSites, halike.call]

-- The bodies are alike everywhere, so no limit on the depth is needed.
theorem agree (h : Alike p p') (budget : Nat) (name : String) : Agree p p' budget name := by
  induction budget generalizing name with
  | zero => trivial
  | succ budget ih =>
    rcases rel_cases (h.body? name) with hnone | ⟨b, b', hbody, hbody', hb⟩
    · exact .inl hnone
    · exact .inr ⟨b, b', hbody, hbody', Body.alike_of_unnumbered_eq hb, h.callsOf_eq hb,
        fun _ _ _ _ _ => ih _⟩

theorem sameJudgement (h : Alike p p') (hp : p.WellNamed) (hp' : p'.WellNamed) (b : Body) :
    Trace.SameJudgement p p' p.judge p'.judge b := by
  intro node call _ _ _
  exact ⟨(h.agree 1 _).isNone_eq, (h.agree p.maxDepth _).judge_eq hp hp' h.surface⟩

theorem testFocalMethods_eq (h : Alike p p') (hp : p.WellNamed) (hp' : p'.WellNamed)
    (test : String) : p.testFocalMethods test = p'.testFocalMethods test := by
  rcases rel_cases (h.body? test) with ⟨hnone, hnone'⟩ | ⟨b, b', hbody, hbody', hb⟩
  · simp only [testFocalMethods, hnone, hnone']
  · have hvalues : p.assertedValues b = p'.assertedValues b' := by
      rw [← assertedValues_unnumbered p b, hb, assertedValues_unnumbered,
        h.surface.assertedValues_eq]
    simp only [testFocalMethods, hbody, hbody', hvalues]
    calc p.focalMethodsOf b (p'.assertedValues b') []
        = p.focalMethodsOf b'.unnumbered (p'.assertedValues b') [] := by
          rw [← hb, focalMethodsOf_unnumbered]
      _ = p'.focalMethodsOf b'.unnumbered (p'.assertedValues b') [] :=
          focalMethodsOf_eq h.surface (h.sameJudgement hp hp' _) _ _
      _ = p'.focalMethodsOf b' (p'.assertedValues b') [] := focalMethodsOf_unnumbered p' b' _ _

end Alike

end Program

end TestFocus
