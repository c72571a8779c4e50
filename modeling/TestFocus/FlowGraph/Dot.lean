import TestFocus.FlowGraph.Basic
import TestFocus.Text.Quoted

namespace TestFocus.FlowGraph

def nodeStyle (n : FlowNode) : String :=
  if n.isStart && n.isTest then ", style=filled, fillcolor=lightblue"
  else if n.isStart then ", style=filled, fillcolor=green"
  else if n.isAssertion then ", style=filled, fillcolor=red"
  else if n.isFinal then ", shape=doublecircle"
  else ""

def nodeLine (n : FlowNode) : String :=
  "    n" ++ toString n.id ++ " [label=\"" ++ Text.escape n.name ++ "\"" ++ nodeStyle n ++ "];\n"

def edgeLine (e : FlowEdge) : String :=
  let joined := "    n" ++ toString e.source ++ " -> n" ++ toString e.target
  match e.label with
  | some label => joined ++ " [label=\"" ++ Text.escape label ++ "\"];\n"
  | none => joined ++ ";\n"

def toDot (g : FlowGraph) : String :=
  "digraph \"" ++ Text.escape g.name ++ "\" \x7b\n" ++
    String.join (g.nodes.toList.map nodeLine) ++
    String.join (g.edges.toList.map edgeLine) ++ "\x7d\n"

end TestFocus.FlowGraph
