import TestFocus.CallGraph.Basic
import TestFocus.Text.Quoted

namespace TestFocus.CallGraph

variable {G : Type} [DiGraph G]

def functionStyle (g : CallGraph G) (name : String) : String :=
  if g.isStart name then "style=filled fillcolor=green"
  else if g.isTest name then "style=filled fillcolor=lightblue"
  else ""

-- A label is the quoted form of the name, quoted once more.
def functionLine (g : CallGraph G) (node : Nat) (name : String) : String :=
  "    " ++ toString node ++ " [ label = \"" ++ Text.escape (Text.shown name) ++ "\" " ++
    g.functionStyle name ++ "]\n"

def callLine (edge : Nat × Nat) : String :=
  "    " ++ toString edge.1 ++ " -> " ++ toString edge.2 ++ " [ ]\n"

def toDot (g : CallGraph G) : String :=
  "digraph \x7b\n" ++
    String.join (g.functions.mapIdx g.functionLine) ++
    String.join ((DiGraph.edges g.graph).map callLine) ++ "\x7d\n"

end TestFocus.CallGraph
