import TestFocus.Dataflow
import TestFocus.FlowGraph.Basic

namespace TestFocus

-- `entry` is the node at which the function starts, and `assertions` the nodes of its assertion
-- calls, in order.
structure Body where
  name : String
  graph : FlowGraph
  dataflow : Dataflow
  entry : Nat
  assertions : List Nat
deriving Repr, DecidableEq, Inhabited

namespace Body

def statement? (b : Body) (node : Nat) : Option Statement :=
  b.graph.statement? node

def call? (b : Body) (node : Nat) : Option Call :=
  (b.statement? node).bind (·.call?)

def assignee? (b : Body) (node : Nat) : Option String :=
  (b.graph.node? node).bind (·.assignee)

-- The node that defines a register.
def definingNode? (b : Body) (register : String) : Option Nat :=
  (b.graph.nodes.toList.find? (·.assignee == some register)).map (·.id)

end Body

end TestFocus
