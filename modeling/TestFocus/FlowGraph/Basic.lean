import TestFocus.Statement.Basic
import TestFocus.Table

-- The flow graph of one function: a node for each statement, one for each block label and one
-- for the entry. Nodes and edges are numbered in the order in which they are added.

namespace TestFocus

structure FlowEdge where
  source : Nat
  target : Nat
  label : Option String
deriving Repr, DecidableEq, Inhabited

-- The entry and the block labels have no statement, and line zero. `outs` and `incs` are the
-- numbers of the edges that leave and that enter the node.
structure FlowNode where
  id : Nat
  name : String
  statement : Option Statement := none
  assignee : Option String := none
  line : Nat := 0
  isFinal : Bool := false
  isTest : Bool := false
  isAssertion : Bool := false
  isStart : Bool := false
  outs : List Nat := []
  incs : List Nat := []
deriving Repr, DecidableEq, Inhabited

def FlowNode.isPlaceholder (n : FlowNode) : Bool :=
  n.statement.isNone

-- `edgeIndex` gives the number of each edge and `blocks` the node of each label; `definedBlocks`
-- holds the labels whose line was seen.
structure FlowGraph where
  name : String
  nodes : Array FlowNode
  edges : Array FlowEdge
  edgeIndex : List (FlowEdge × Nat) := []
  blocks : Table Nat
  definedBlocks : List String
deriving Repr, DecidableEq

namespace FlowGraph

def empty (name : String) : FlowGraph :=
  { name, nodes := #[], edges := #[], blocks := ∅, definedBlocks := [] }

instance : Inhabited FlowGraph := ⟨empty ""⟩

-- Every operation that adds something returns its number with the new graph.
def addNode (g : FlowGraph) (name : String) : Nat × FlowGraph :=
  (g.nodes.size, { g with nodes := g.nodes.push { id := g.nodes.size, name } })

def addStatement (g : FlowGraph) (name : String) (statement : Statement)
    (assignee : Option String) (line : Nat) : Nat × FlowGraph :=
  let node : FlowNode :=
    { id := g.nodes.size, name, statement := some statement, assignee, line,
      isFinal := statement.isFinal }
  (g.nodes.size, { g with nodes := g.nodes.push node })

def modifyNode (g : FlowGraph) (id : Nat) (f : FlowNode → FlowNode) : FlowGraph :=
  { g with nodes := g.nodes.modify id f }

-- An edge that is there already is not added again.
def addEdge (g : FlowGraph) (source target : Nat) (label : Option String) : Nat × FlowGraph :=
  let edge : FlowEdge := { source, target, label }
  match g.edgeIndex.lookup edge with
  | some id => (id, g)
  | none =>
    let id := g.edges.size
    let g := { g with edges := g.edges.push edge, edgeIndex := (edge, id) :: g.edgeIndex }
    let g := g.modifyNode source fun n => { n with outs := n.outs ++ [id] }
    (id, g.modifyNode target fun n => { n with incs := n.incs ++ [id] })

-- The node of a block label, added when the label is new.
def blockNode (g : FlowGraph) (label : String) : Nat × FlowGraph :=
  match g.blocks.get? label with
  | some id => (id, g)
  | none =>
    let (id, g) := g.addNode label
    (id, { g with blocks := g.blocks.insert label id })

-- The node of a block label whose line was reached.
def defineBlock (g : FlowGraph) (label : String) : Nat × FlowGraph :=
  let definedBlocks :=
    if g.definedBlocks.contains label then g.definedBlocks else g.definedBlocks ++ [label]
  { g with definedBlocks }.blockNode label

def block? (g : FlowGraph) (label : String) : Option Nat :=
  g.blocks.get? label

-- The labels jumped to whose line was never reached, in ascending order.
def undefinedBlocks (g : FlowGraph) : List String :=
  (g.blocks.keys.filter fun label => !g.definedBlocks.contains label).mergeSort

def node? (g : FlowGraph) (id : Nat) : Option FlowNode :=
  g.nodes[id]?

def edge? (g : FlowGraph) (id : Nat) : Option FlowEdge :=
  g.edges[id]?

def size (g : FlowGraph) : Nat :=
  g.nodes.size

def isEmpty (g : FlowGraph) : Bool :=
  g.nodes.isEmpty

-- One entry for each edge, so a node may occur more than once.
def predecessors (g : FlowGraph) (id : Nat) : List Nat :=
  match g.node? id with
  | some node => (node.incs.filterMap g.edge?).map (·.source)
  | none => []

def successors (g : FlowGraph) (id : Nat) : List Nat :=
  match g.node? id with
  | some node => (node.outs.filterMap g.edge?).map (·.target)
  | none => []

def statement? (g : FlowGraph) (id : Nat) : Option Statement :=
  (g.node? id).bind (·.statement)

-- The nodes that hold a statement, in order.
def statements (g : FlowGraph) : List (Nat × Statement) :=
  g.nodes.toList.filterMap fun node => node.statement.map fun s => (node.id, s)

end FlowGraph

end TestFocus
