import TestFocus.Proofs.Mutation.Query

namespace TestFocus

-- A call passes `value` to `callee`, and keeps the result in a register or drops it.
structure SketchedCall where
  callee : String
  value : String
  result : Option String := none

structure Sketch where
  name : String
  calls : List SketchedCall := []
  dataflow : Dataflow := .empty

namespace Sketch

def call (c : SketchedCall) : Call :=
  { tail := none, fastMathFlags := [], callingConvention := none, returnAttributes := [],
    addressSpace := none, returnType := "ptr", callee := c.callee,
    arguments := [{ type := "ptr", attributes := [], value := c.value }],
    functionAttributes := [], operandBundles := [] }

-- The node of a call is its place among the calls.
def body (s : Sketch) : Body :=
  { name := s.name
    graph :=
      { FlowGraph.empty s.name with
        nodes := (s.calls.mapIdx fun id c =>
          { id, name := c.callee, statement := some (.call (call c)),
            assignee := c.result }).toArray }
    dataflow := s.dataflow
    entry := 0
    assertions := [] }

def definition (s : Sketch) : Definition :=
  { name := s.name
    returnType := "ptr"
    parameters := [{ type := "ptr", attributes := [], register := "%0" }]
    callSites := s.calls.mapIdx fun node c => { node, kind := .call, callee := c.callee } }

end Sketch

def Program.ofSketches (sketches : List Sketch) (maxDepth : Nat) : Program :=
  { registry :=
      { definitions := ⟨sketches.map fun s => (s.name, s.definition)⟩
        aliases := ∅
        attributeGroups := ∅ }
    bodies := ⟨sketches.map fun s => (s.name, s.body)⟩
    framework := .ofNames [] []
    maxDepth }

-- A body of a sketched program is that of one of the sketches.
theorem Program.exists_sketch {sketches : List Sketch} {maxDepth : Nat} {name : String}
    {body : Body} (h : (Program.ofSketches sketches maxDepth).bodies.get? name = some body) :
    ∃ s ∈ sketches, s.name = name ∧ s.body = body := by
  simp only [Program.ofSketches, Table.get?] at h
  induction sketches with
  | nil => cases h
  | cons s sketches ih =>
    by_cases hname : s.name = name
    · simp only [List.map_cons, Table.find, if_pos hname, Option.some.injEq] at h
      exact ⟨s, by simp, hname, h⟩
    · simp only [List.map_cons, Table.find, if_neg hname] at h
      obtain ⟨s', hm, hrest⟩ := ih h
      exact ⟨s', List.mem_cons_of_mem _ hm, hrest⟩

theorem Program.wellNamed_ofSketches (sketches : List Sketch) (maxDepth : Nat) :
    (Program.ofSketches sketches maxDepth).WellNamed := by
  intro name body h
  obtain ⟨s, -, hname, rfl⟩ := exists_sketch h
  exact hname

-- No name is an alias, so a call is for the function that it names.
theorem Program.resolve_ofSketches (sketches : List Sketch) (maxDepth : Nat) (name : String) :
    (Program.ofSketches sketches maxDepth).registry.resolve name = name := rfl

theorem Sketch.call?_body (s : Sketch) (node : Nat) :
    s.body.call? node = s.calls[node]?.map Sketch.call := by
  simp only [Body.call?, Body.statement?, FlowGraph.statement?, FlowGraph.node?, Sketch.body,
    List.getElem?_toArray, List.getElem?_mapIdx]
  cases s.calls[node]? <;> rfl

theorem Sketch.assignee?_body (s : Sketch) (node : Nat) :
    s.body.assignee? node = s.calls[node]?.bind (·.result) := by
  simp only [Body.assignee?, FlowGraph.node?, Sketch.body, List.getElem?_toArray,
    List.getElem?_mapIdx]
  cases s.calls[node]? <;> rfl

-- A call of a sketched program is one of its function's sketch.
theorem Program.calls_ofSketches {sketches : List Sketch} {maxDepth : Nat} {caller : String}
    {body : Body} {node : Nat} {call : Call}
    (h : (Program.ofSketches sketches maxDepth).bodies.get? caller = some body)
    (hcall : body.call? node = some call) :
    ∃ s ∈ sketches, s.name = caller ∧ ∃ c ∈ s.calls, Sketch.call c = call := by
  obtain ⟨s, hm, hname, rfl⟩ := exists_sketch h
  rw [Sketch.call?_body] at hcall
  obtain ⟨c, hc, rfl⟩ := Option.map_eq_some_iff.mp hcall
  exact ⟨s, hm, hname, c, List.mem_of_getElem? hc, rfl⟩

end TestFocus
