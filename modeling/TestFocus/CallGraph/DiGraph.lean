namespace TestFocus

-- Adds a member to the end of a list that lacks it.
def CallGraph.adjoin [BEq α] (members : List α) (a : α) : List α :=
  if members.contains a then members else members ++ [a]

inductive EdgeDirection where
  | outgoing
  | incoming
deriving Repr, DecidableEq

namespace EdgeDirection

-- The end of an edge at which one stands when looking along the direction.
def near : EdgeDirection → α × α → α
  | outgoing, edge => edge.1
  | incoming, edge => edge.2

def far : EdgeDirection → α × α → α
  | outgoing, edge => edge.2
  | incoming, edge => edge.1

end EdgeDirection

-- The graph library behind the call graphs: directed graphs whose nodes carry names, with nodes and
-- edges numbered from zero. The library is not part of this development; these are the operations
-- that are used of it.
class DiGraph (G : Type) where
  empty : G
  addNode : G → String → Nat × G
  updateEdge : G → Nat → Nat → G
  weights : G → List String
  edges : G → List (Nat × Nat)
  neighbors : G → Nat → EdgeDirection → List Nat

-- What the library says of these operations. Nodes are numbered as they are added; a pair of nodes
-- has at most one edge; the neighbours of a node come newest first.
class LawfulDiGraph (G : Type) [DiGraph G] : Prop where
  weights_empty : DiGraph.weights (DiGraph.empty : G) = []
  edges_empty : DiGraph.edges (DiGraph.empty : G) = []
  neighbors_empty (node : Nat) (direction : EdgeDirection) :
    DiGraph.neighbors (DiGraph.empty : G) node direction = []
  addNode_fst (g : G) (name : String) : (DiGraph.addNode g name).1 = (DiGraph.weights g).length
  weights_addNode (g : G) (name : String) :
    DiGraph.weights (DiGraph.addNode g name).2 = DiGraph.weights g ++ [name]
  edges_addNode (g : G) (name : String) :
    DiGraph.edges (DiGraph.addNode g name).2 = DiGraph.edges g
  neighbors_addNode (g : G) (name : String) (node : Nat) (direction : EdgeDirection) :
    DiGraph.neighbors (DiGraph.addNode g name).2 node direction =
      DiGraph.neighbors g node direction
  weights_updateEdge (g : G) {source target : Nat} (hsource : source < (DiGraph.weights g).length)
    (htarget : target < (DiGraph.weights g).length) :
    DiGraph.weights (DiGraph.updateEdge g source target) = DiGraph.weights g
  edges_updateEdge (g : G) {source target : Nat} (hsource : source < (DiGraph.weights g).length)
    (htarget : target < (DiGraph.weights g).length) :
    DiGraph.edges (DiGraph.updateEdge g source target) =
      if (source, target) ∈ DiGraph.edges g then DiGraph.edges g
      else DiGraph.edges g ++ [(source, target)]
  neighbors_updateEdge (g : G) {source target : Nat}
    (hsource : source < (DiGraph.weights g).length) (htarget : target < (DiGraph.weights g).length)
    (node : Nat) (direction : EdgeDirection) :
    DiGraph.neighbors (DiGraph.updateEdge g source target) node direction =
      if (source, target) ∉ DiGraph.edges g ∧ direction.near (source, target) = node then
        direction.far (source, target) :: DiGraph.neighbors g node direction
      else DiGraph.neighbors g node direction

-- A graph by its names and edges, in the order in which they were added.
structure EdgeList where
  weights : List String
  edges : List (Nat × Nat)
deriving Repr, DecidableEq, Inhabited

namespace EdgeList

instance : DiGraph EdgeList where
  empty := { weights := [], edges := [] }
  addNode g name := (g.weights.length, { g with weights := g.weights ++ [name] })
  updateEdge g source target := { g with edges := CallGraph.adjoin g.edges (source, target) }
  weights g := g.weights
  edges g := g.edges
  neighbors g node direction :=
    ((g.edges.filter (direction.near · == node)).map direction.far).reverse

instance : LawfulDiGraph EdgeList where
  weights_empty := rfl
  edges_empty := rfl
  neighbors_empty _ _ := rfl
  addNode_fst _ _ := rfl
  weights_addNode _ _ := rfl
  edges_addNode _ _ := rfl
  neighbors_addNode _ _ _ _ := rfl
  weights_updateEdge _ _ _ _ _ := rfl
  edges_updateEdge g source target _ _ := by
    simp [DiGraph.updateEdge, DiGraph.edges, CallGraph.adjoin]
  neighbors_updateEdge g source target _ _ node direction := by
    simp only [DiGraph.neighbors, DiGraph.updateEdge, DiGraph.edges, CallGraph.adjoin,
      List.contains_iff_mem]
    by_cases hmem : (source, target) ∈ g.edges
    · simp [hmem]
    · by_cases hnode : direction.near (source, target) = node
      · simp [hmem, hnode, List.filter_append]
      · simp [hmem, hnode, List.filter_append]

end EdgeList

end TestFocus
