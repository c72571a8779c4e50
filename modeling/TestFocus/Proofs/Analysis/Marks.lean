import TestFocus.Body.Basic

namespace TestFocus

-- A change of nodes that leaves new nodes as they are, and the numbers of their edges.
structure FlowNode.Cosmetic (f : FlowNode → FlowNode) : Prop where
  fresh : ∀ id name, f { id, name } = { id, name }
  outs : ∀ n id, f { n with outs := n.outs ++ [id] } = { f n with outs := (f n).outs ++ [id] }
  incs : ∀ n id, f { n with incs := n.incs ++ [id] } = { f n with incs := (f n).incs ++ [id] }

namespace FlowGraph

def mapNodes (f : FlowNode → FlowNode) (g : FlowGraph) : FlowGraph :=
  { g with nodes := g.nodes.map f }

section Cosmetic

variable {f : FlowNode → FlowNode} (g : FlowGraph)

-- What is done to a node alike before and after can be done before or after.
theorem mapNodes_modifyNode (id : Nat) {change : FlowNode → FlowNode}
    (hchange : ∀ n, change (f n) = f (change n)) :
    (g.mapNodes f).modifyNode id change = (g.modifyNode id change).mapNodes f := by
  simp only [modifyNode, mapNodes]
  congr 1
  ext1
  · simp
  · next i _ _ =>
    by_cases hi : id = i
    · simp [Array.getElem_modify, hi, hchange]
    · simp [Array.getElem_modify, hi]

variable (hf : FlowNode.Cosmetic f)

include hf

theorem mapNodes_addNode (name : String) :
    (g.mapNodes f).addNode name = ((g.addNode name).1, (g.addNode name).2.mapNodes f) := by
  simp [addNode, mapNodes, hf.fresh]

theorem mapNodes_addEdge (source target : Nat) (label : Option String) :
    (g.mapNodes f).addEdge source target label =
      ((g.addEdge source target label).1, (g.addEdge source target label).2.mapNodes f) := by
  simp only [addEdge]
  have hindex : (g.mapNodes f).edgeIndex = g.edgeIndex := rfl
  rw [hindex]
  split
  · rfl
  · have hadded (edge : FlowEdge) (id : Nat) :
        ({ g.mapNodes f with
            edges := g.edges.push edge, edgeIndex := (edge, id) :: g.edgeIndex } : FlowGraph) =
          ({ g with
              edges := g.edges.push edge
              edgeIndex := (edge, id) :: g.edgeIndex } : FlowGraph).mapNodes f := rfl
    have hedges : (g.mapNodes f).edges = g.edges := rfl
    rw [hedges, hadded, mapNodes_modifyNode, mapNodes_modifyNode]
    · exact fun n => (hf.incs n _).symm
    · exact fun n => (hf.outs n _).symm

theorem mapNodes_blockNode (label : String) :
    (g.mapNodes f).blockNode label = ((g.blockNode label).1, (g.blockNode label).2.mapNodes f) := by
  simp only [blockNode]
  have hblocks : (g.mapNodes f).blocks = g.blocks := rfl
  rw [hblocks]
  split
  · rfl
  · rw [mapNodes_addNode g hf]
    rfl

theorem mapNodes_defineBlock (label : String) :
    (g.mapNodes f).defineBlock label =
      ((g.defineBlock label).1, (g.defineBlock label).2.mapNodes f) := by
  simp only [defineBlock]
  exact mapNodes_blockNode { g with
    definedBlocks :=
      if g.definedBlocks.contains label then g.definedBlocks else g.definedBlocks ++ [label] } hf
    label

omit hf in
theorem statement?_mapNodes (hstatement : ∀ n, (f n).statement = n.statement) (id : Nat) :
    (g.mapNodes f).statement? id = g.statement? id := by
  simp only [statement?, node?, mapNodes, Array.getElem?_map, Option.bind_map, Function.comp_def,
    hstatement]

end Cosmetic

end FlowGraph

-- Keeps the mark of a test, or takes it away.
def FlowNode.marked (keep : Bool) (n : FlowNode) : FlowNode :=
  { n with isTest := n.isTest && keep }

theorem FlowNode.cosmetic_marked (keep : Bool) : Cosmetic (marked keep) where
  fresh _ _ := rfl
  outs _ _ := rfl
  incs _ _ := rfl

namespace FlowGraph

def marked (keep : Bool) (g : FlowGraph) : FlowGraph :=
  { g with nodes := g.nodes.map (·.marked keep) }

variable (keep : Bool) (g : FlowGraph)

theorem marked_addStatement (name : String) (statement : Statement) (assignee : Option String)
    (line : Nat) :
    (g.marked keep).addStatement name statement assignee line =
      ((g.addStatement name statement assignee line).1,
        (g.addStatement name statement assignee line).2.marked keep) := by
  simp [addStatement, marked, FlowNode.marked]

theorem marked_modifyNode (id : Nat) {f : FlowNode → FlowNode}
    (hf : ∀ n, f (n.marked keep) = (f n).marked keep) :
    (g.marked keep).modifyNode id f = (g.modifyNode id f).marked keep :=
  mapNodes_modifyNode g id hf

theorem marked_addEdge (source target : Nat) (label : Option String) :
    (g.marked keep).addEdge source target label =
      ((g.addEdge source target label).1, (g.addEdge source target label).2.marked keep) :=
  mapNodes_addEdge g (FlowNode.cosmetic_marked keep) source target label

theorem marked_blockNode (label : String) :
    (g.marked keep).blockNode label = ((g.blockNode label).1, (g.blockNode label).2.marked keep) :=
  mapNodes_blockNode g (FlowNode.cosmetic_marked keep) label

theorem marked_defineBlock (label : String) :
    (g.marked keep).defineBlock label =
      ((g.defineBlock label).1, (g.defineBlock label).2.marked keep) :=
  mapNodes_defineBlock g (FlowNode.cosmetic_marked keep) label

theorem statement?_marked (id : Nat) : (g.marked keep).statement? id = g.statement? id :=
  statement?_mapNodes (f := FlowNode.marked keep) g (fun _ => rfl) id

-- Only an added statement changes the statements.
theorem statement?_modifyNode (id id' : Nat) {f : FlowNode → FlowNode}
    (hf : ∀ n, (f n).statement = n.statement) :
    (g.modifyNode id f).statement? id' = g.statement? id' := by
  simp only [statement?, node?, modifyNode, Array.getElem?_modify]
  split
  · cases g.nodes[id']? with
    | none => rfl
    | some n => exact hf n
  · rfl

theorem statement?_addNode (name : String) (id : Nat) :
    (g.addNode name).2.statement? id = g.statement? id := by
  simp only [statement?, node?, addNode, Array.getElem?_push]
  split
  · next h =>
    subst h
    simp
  · rfl

theorem statement?_addEdge (source target : Nat) (label : Option String) (id : Nat) :
    (g.addEdge source target label).2.statement? id = g.statement? id := by
  simp only [addEdge]
  split
  · rfl
  · simp only
    rw [statement?_modifyNode, statement?_modifyNode]
    · rfl
    · intro n
      rfl
    · intro n
      rfl

theorem statement?_blockNode (label : String) (id : Nat) :
    (g.blockNode label).2.statement? id = g.statement? id := by
  simp only [blockNode]
  split
  · rfl
  · exact statement?_addNode g label id

theorem statement?_defineBlock (label : String) (id : Nat) :
    (g.defineBlock label).2.statement? id = g.statement? id :=
  statement?_blockNode _ label id

theorem statement?_addStatement (name : String) (statement : Statement) (assignee : Option String)
    (line id : Nat) :
    (g.addStatement name statement assignee line).2.statement? id =
      if id = g.nodes.size then some statement else g.statement? id := by
  simp only [statement?, node?, addStatement, Array.getElem?_push]
  split
  · rfl
  · rfl

end FlowGraph

def Body.marked (keep : Bool) (b : Body) : Body :=
  { b with graph := b.graph.marked keep }

theorem Body.call?_marked (keep : Bool) (b : Body) (node : Nat) :
    (b.marked keep).call? node = b.call? node := by
  simp only [call?, statement?, marked, FlowGraph.statement?_marked]

theorem Body.assignee?_marked (keep : Bool) (b : Body) (node : Nat) :
    (b.marked keep).assignee? node = b.assignee? node := by
  simp only [assignee?, marked, FlowGraph.marked, FlowGraph.node?, Array.getElem?_map,
    Option.bind_map]
  rfl

end TestFocus
