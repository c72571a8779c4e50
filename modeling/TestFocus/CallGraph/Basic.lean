import TestFocus.CallGraph.DiGraph
import TestFocus.Table

namespace TestFocus

-- Which function calls which. A function is one node however often it is mentioned, and a pair of
-- functions is joined by one edge however often the one calls the other. `index` gives the node of
-- each name.
structure CallGraph (G : Type := EdgeList) where
  graph : G
  index : Table Nat
  tests : List String
  starts : List String
deriving Repr, DecidableEq, Inhabited

namespace CallGraph

variable {G : Type} [DiGraph G]

def empty : CallGraph G :=
  { graph := DiGraph.empty, index := ∅, tests := [], starts := [] }

-- The node of a function, which is added when the function is new.
def node (g : CallGraph G) (name : String) : Nat × CallGraph G :=
  match g.index.get? name with
  | some node => (node, g)
  | none =>
    let (node, graph) := DiGraph.addNode g.graph name
    (node, { g with graph, index := g.index.insert name node })

def addFunction (g : CallGraph G) (name : String) : CallGraph G :=
  (g.node name).2

def addCall (g : CallGraph G) (caller callee : String) : CallGraph G :=
  let (source, g) := g.node caller
  let (target, g) := g.node callee
  { g with graph := DiGraph.updateEdge g.graph source target }

def markTest (g : CallGraph G) (name : String) : CallGraph G :=
  let g := g.addFunction name
  { g with tests := adjoin g.tests name }

-- Marks a function at which the program starts.
def markStart (g : CallGraph G) (name : String) : CallGraph G :=
  let g := g.addFunction name
  { g with starts := adjoin g.starts name }

def functions (g : CallGraph G) : List String :=
  DiGraph.weights g.graph

def name? (g : CallGraph G) (node : Nat) : Option String :=
  g.functions[node]?

def call? (g : CallGraph G) (edge : Nat × Nat) : Option (String × String) := do
  return (← g.name? edge.1, ← g.name? edge.2)

-- Each call once, in the order of the first occurrence.
def calls (g : CallGraph G) : List (String × String) :=
  (DiGraph.edges g.graph).filterMap g.call?

def indexOf? (g : CallGraph G) (name : String) : Option Nat :=
  g.index.get? name

def contains (g : CallGraph G) (name : String) : Bool :=
  g.index.contains name

def isTest (g : CallGraph G) (name : String) : Bool :=
  g.tests.contains name

def isStart (g : CallGraph G) (name : String) : Bool :=
  g.starts.contains name

-- The library has the newest neighbour first, a call graph the oldest.
def neighbors (g : CallGraph G) (name : String) (direction : EdgeDirection) : List String :=
  match g.index.get? name with
  | none => []
  | some node => ((DiGraph.neighbors g.graph node direction).filterMap g.name?).reverse

def callees (g : CallGraph G) (name : String) : List String :=
  g.neighbors name .outgoing

def callers (g : CallGraph G) (name : String) : List String :=
  g.neighbors name .incoming

-- Nodes that are waiting, each with its distance, and the distances found so far.
structure Search where
  queue : List (Nat × Nat)
  distances : Table Nat

-- A function that has no distance yet gets one and waits at the end of the queue.
def visit (g : CallGraph G) (distance : Nat) (s : Search) (next : Nat) : Search :=
  match g.name? next with
  | none => s
  | some name =>
    if s.distances.contains name then s
    else
      { queue := s.queue ++ [(next, distance + 1)]
        distances := s.distances.insert name (distance + 1) }

def visitCallees (g : CallGraph G) (s : Search) (node distance : Nat) : Search :=
  (DiGraph.neighbors g.graph node .outgoing).foldl (g.visit distance) s

-- The functions that have no distance yet.
def unvisited (g : CallGraph G) (s : Search) : List String :=
  g.functions.filter fun name => !s.distances.contains name

-- A function that enters the queue is unvisited no longer.
theorem length_unvisited_visit (g : CallGraph G) (distance : Nat) (s : Search) (next : Nat) :
    (g.unvisited (g.visit distance s next)).length + (g.visit distance s next).queue.length ≤
      (g.unvisited s).length + s.queue.length := by
  unfold visit
  split
  · exact Nat.le_refl _
  · next name hname =>
    split
    · exact Nat.le_refl _
    · next hnew =>
      have hrest : g.unvisited
          { queue := s.queue ++ [(next, distance + 1)]
            distances := s.distances.insert name (distance + 1) } =
          (g.unvisited s).filter (· != name) := by
        simp [unvisited, Table.contains_insert, List.filter_filter, bne]
      have hmem : name ∈ g.unvisited s :=
        List.mem_filter.mpr ⟨List.mem_of_getElem? hname, by simpa using hnew⟩
      have hlt : ((g.unvisited s).filter (· != name)).length < (g.unvisited s).length :=
        List.length_filter_lt_length_iff_exists.mpr ⟨name, hmem, by simp⟩
      rw [hrest, List.length_append, List.length_singleton]
      omega

theorem length_unvisited_visitCallees (g : CallGraph G) (s : Search) (node distance : Nat) :
    (g.unvisited (g.visitCallees s node distance)).length +
        (g.visitCallees s node distance).queue.length ≤
      (g.unvisited s).length + s.queue.length := by
  unfold visitCallees
  induction DiGraph.neighbors g.graph node .outgoing generalizing s with
  | nil => exact Nat.le_refl _
  | cons next rest ih => exact Nat.le_trans (ih _) (g.length_unvisited_visit distance s next)

-- Every round takes an entry from the front of the queue, and a function enters it only once.
def search (g : CallGraph G) (s : Search) : Table Nat :=
  match s with
  | { queue := [], distances } => distances
  | { queue := (node, distance) :: queue, distances } =>
    g.search (g.visitCallees { queue, distances } node distance)
termination_by (g.unvisited s).length + s.queue.length
decreasing_by
  have hle := g.length_unvisited_visitCallees { queue, distances } node distance
  rw [List.length_cons]
  exact Nat.lt_succ_of_le hle

-- The number of calls from `root` to each function that it reaches.
def distances (g : CallGraph G) (root : String) : List (String × Nat) :=
  match g.index.get? root with
  | none => []
  | some start =>
    (g.search { queue := [(start, 0)], distances := Table.insert ∅ root 0 }).entries

end CallGraph

-- What a report needs to know of calls. A source that knows its functions only has no callers.
structure CallProvider where
  functions : List String
  callees : String → List String := fun _ => []
  callers : String → List String := fun _ => []
  contains : String → Bool := fun name => functions.contains name
  count : Nat := functions.length

def CallGraph.provider {G : Type} [DiGraph G] (g : CallGraph G) : CallProvider :=
  { functions := g.functions
    callees := g.callees
    callers := g.callers
    contains := g.contains
    count := g.functions.length }

end TestFocus
