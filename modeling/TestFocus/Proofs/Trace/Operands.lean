import TestFocus.Proofs.Trace.StepCases
import TestFocus.Trace.Search

namespace TestFocus

namespace Statement

-- Arithmetic and comparisons, merges and choices, operations on vectors and aggregates.
def combines : Statement → Bool
  | unary _ _ _ _ | binary _ _ _ _ _ _ | compareIntegers _ _ _ _ | compareFloats _ _ _ _ _
  | phi _ _ | select _ _ _ _ | freeze _ _ | extractElement _ _ _ | insertElement _ _ _ _
  | shuffleVector _ _ _ _ | extractValue _ _ _ | insertValue _ _ _ _ => true
  | _ => false

-- The operand that a load, an atomic update, an address computation or a cast goes back to, and
-- whether it is followed as a reference.
def origin? (isReference : Bool) : Statement → Option (String × Bool)
  | load _ _ _ _ address | compareExchange _ _ address _ _ _ | readModifyWrite _ _ address _ _ =>
    some (address, true)
  | elementPointer _ _ _ base _ => some (base, true)
  | conversion _ _ value _ => some (value, isReference)
  | _ => none

theorem call?_of_combines {statement : Statement} (h : statement.combines = true) :
    statement.call? = none := by
  cases statement with
  | call | invoke | callBranch => cases h
  | _ => rfl

theorem call?_of_origin? {statement : Statement} {isReference : Bool} {origin : String × Bool}
    (h : statement.origin? isReference = some origin) : statement.call? = none := by
  cases statement with
  | call | invoke | callBranch => cases h
  | _ => rfl

end Statement

namespace Trace

variable {σ : Type} (p : Program) (judge : Judge σ) (b : Body) (s : TraceState)

-- At the definition of the name, a state is queued for each operand that is a name itself.
theorem mem_passDefinition_of_combines {statement : Statement} (h : statement.combines = true)
    {t : TraceState} :
    t ∈ passDefinition b s statement ↔
      (∃ value ∈ statement.usedValues, Operand.isRegister value = true ∧
        Operand.trackedName value = some t.register) ∧
      t.node ∈ b.graph.predecessors s.node ∧
      t.isReference = (s.isReference && !statement.isComputation) ∧ t.depth = s.depth + 1 := by
  have hpass : passDefinition b s statement = statement.usedRegisters.flatMap fun used =>
      follow b s used (s.isReference && !statement.isComputation) := by
    cases statement with
    | load | compareExchange | readModifyWrite | elementPointer | conversion => cases h
    | _ => rfl
  simp only [hpass, List.mem_flatMap, mem_follow, Statement.usedRegisters, List.mem_filter]
  constructor
  · rintro ⟨value, ⟨hused, hregister⟩, htracked, hplace⟩
    exact ⟨⟨value, hused, hregister, htracked⟩, hplace⟩
  · rintro ⟨⟨value, hused, hregister, htracked⟩, hplace⟩
    exact ⟨value, ⟨hused, hregister⟩, htracked, hplace⟩

theorem passDefinition_of_origin? {statement : Statement} {value : String} {isReference : Bool}
    (h : statement.origin? s.isReference = some (value, isReference)) :
    passDefinition b s statement = follow b s value isReference := by
  cases statement <;> cases h <;> rfl

-- What is queued at the definition of the name: the operands of a combination that are names
-- themselves, and the name that the one operand of any other definition is built on.
theorem mem_next_at_definition {node : FlowNode} {statement : Statement}
    (hnode : b.graph.node? s.node = some node) (hstatement : node.statement = some statement)
    (hdefines : node.assignee = some s.register) (c : Candidates) (st : σ) (t : TraceState) :
    let next := ((step p judge b s c).run st).1.next
    (statement.combines = true →
      (t ∈ next ↔ (∃ value ∈ statement.usedValues, Operand.isRegister value = true ∧
          Operand.trackedName value = some t.register) ∧
        t.node ∈ b.graph.predecessors s.node ∧
        t.isReference = (s.isReference && !statement.isComputation) ∧ t.depth = s.depth + 1)) ∧
    ∀ value isReference, statement.origin? s.isReference = some (value, isReference) →
      (t ∈ next ↔ Operand.trackedName value = some t.register ∧
        t.node ∈ b.graph.predecessors s.node ∧ t.isReference = isReference ∧
        t.depth = s.depth + 1) := by
  have hnext (hcall : statement.call? = none) :
      ((step p judge b s c).run st).1.next = passDefinition b s statement := by
    have hdefined : defines b s = true := by
      simp [defines, Body.assignee?, hnode, hdefines]
    rw [step_of_not_call p b s judge hnode hstatement hcall, hdefined]
    rfl
  constructor
  · intro hcombines
    rw [hnext (Statement.call?_of_combines hcombines)]
    exact mem_passDefinition_of_combines b s hcombines
  · intro value isReference horigin
    rw [hnext (Statement.call?_of_origin? horigin), passDefinition_of_origin? b s horigin]
    exact mem_follow

-- Two ways into one node, which defines `%3`.
def merging (statement : Statement) : Body :=
  { (default : Body) with
    graph := { FlowGraph.empty "@t" with
      nodes := #[{ id := 0, name := "%1" }, { id := 1, name := "%2" },
        { id := 2, name := "%3 = ...", statement := some statement, assignee := some "%3"
          incs := [0, 1] }]
      edges := #[{ source := 0, target := 2, label := none },
        { source := 1, target := 2, label := none }] } }

-- A program in which nothing is known.
def unknown : Program :=
  { registry := .empty, bodies := ∅, framework := .ofNames [] [], maxDepth := 1 }

-- A merge of a register and a global, each followed along both ways.
theorem mem_next_at_definition_phi :
    let next := ((step unknown unknown.judge (merging (.phi "ptr" [("%4", "%1"), ("@g", "%2")]))
      ⟨"%3", 2, true, 0⟩ .empty).run .empty).1.next
    ⟨"%4", 0, true, 1⟩ ∈ next ∧ ⟨"%4", 1, true, 1⟩ ∈ next ∧
      ⟨"@g", 0, true, 1⟩ ∈ next ∧ ⟨"@g", 1, true, 1⟩ ∈ next := by
  have hqueued (t : TraceState) := (mem_next_at_definition unknown unknown.judge
    (merging (.phi "ptr" [("%4", "%1"), ("@g", "%2")])) ⟨"%3", 2, true, 0⟩ rfl rfl rfl .empty
    .empty t).1 rfl
  have hregister : ∃ value ∈ ["%4", "@g"], Operand.isRegister value = true ∧
      Operand.trackedName value = some "%4" := ⟨"%4", by decide⟩
  have hglobal : ∃ value ∈ ["%4", "@g"], Operand.isRegister value = true ∧
      Operand.trackedName value = some "@g" := ⟨"@g", by decide⟩
  refine ⟨?_, ?_, ?_, ?_⟩
  · exact (hqueued _).mpr ⟨hregister, by decide, rfl, rfl⟩
  · exact (hqueued _).mpr ⟨hregister, by decide, rfl, rfl⟩
  · exact (hqueued _).mpr ⟨hglobal, by decide, rfl, rfl⟩
  · exact (hqueued _).mpr ⟨hglobal, by decide, rfl, rfl⟩

-- A constant expression on a global is followed past an address computation, and not past a choice.
example :
    let s : TraceState := ⟨"%3", 2, true, 0⟩
    let constant := "bitcast (i32* @g to i8*)"
    let computed :=
      passDefinition (merging default) s (.elementPointer false "i8" "ptr" constant [])
    let chosen := passDefinition (merging default) s (.select "%1" "ptr" constant "%2")
    computed.map (·.register) = ["@g", "@g"] ∧
      chosen.map (·.register) = ["%1", "%1", "%2", "%2"] := by
  decide

end Trace

end TestFocus
