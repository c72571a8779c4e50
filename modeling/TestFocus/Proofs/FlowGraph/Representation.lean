import TestFocus.FlowGraph.Basic
import TestFocus.Proofs.Trace.Collection

namespace TestFocus.FlowGraph

-- The numbers in the list are, each once, those of the edges with a property.
structure Lists (g : FlowGraph) (ids : List Nat) (property : FlowEdge → Prop) : Prop where
  nodup : ids.Nodup
  mem_iff : ∀ id, id ∈ ids ↔ ∃ edge, g.edge? id = some edge ∧ property edge

structure WellFormed (g : FlowGraph) : Prop where
  id : ∀ i n, g.node? i = some n → n.id = i
  ends : ∀ e edge, g.edge? e = some edge → edge.source < g.size ∧ edge.target < g.size
  unique : ∀ e e' edge, g.edge? e = some edge → g.edge? e' = some edge → e = e'
  index : ∀ edge e, g.edgeIndex.lookup edge = some e ↔ g.edge? e = some edge
  outs : ∀ i n, g.node? i = some n → g.Lists n.outs (·.source = i)
  incs : ∀ i n, g.node? i = some n → g.Lists n.incs (·.target = i)
  labels : g.blocks.keys.Nodup
  block : ∀ label i, g.block? label = some i →
    ∃ n, g.node? i = some n ∧ n.statement = none ∧ n.name = label

variable {g : FlowGraph}

theorem lt_size_of_node? {i : Nat} {n : FlowNode} (h : g.node? i = some n) : i < g.size :=
  (Array.getElem?_eq_some_iff.mp h).1

theorem exists_node?_of_lt {i : Nat} (h : i < g.size) : ∃ n, g.node? i = some n :=
  ⟨g.nodes[i], Array.getElem?_eq_getElem h⟩

-- The lists only look at the edges.
theorem Lists.congr {g' : FlowGraph} {ids : List Nat} {property : FlowEdge → Prop}
    (h : g.Lists ids property) (hedges : g'.edges = g.edges) : g'.Lists ids property := by
  refine ⟨h.nodup, fun id => ?_⟩
  rw [h.mem_iff, edge?, edge?, hedges]

theorem edge?_lt {e : Nat} {edge : FlowEdge} (h : g.edge? e = some edge) : e < g.edges.size :=
  (Array.getElem?_eq_some_iff.mp h).1

theorem mem_edges_iff {edge : FlowEdge} : edge ∈ g.edges ↔ ∃ e, g.edge? e = some edge :=
  Array.mem_iff_getElem?

theorem WellFormed.mem_predecessors (h : g.WellFormed) {i source : Nat} :
    source ∈ g.predecessors i ↔ ∃ edge ∈ g.edges, edge.source = source ∧ edge.target = i := by
  constructor
  · intro hsource
    rw [predecessors] at hsource
    split at hsource
    · next n hn =>
      obtain ⟨edge, hedge, rfl⟩ := List.mem_map.mp hsource
      obtain ⟨e, he, hedge⟩ := List.mem_filterMap.mp hedge
      obtain ⟨edge', hedge', htarget⟩ := ((h.incs i n hn).mem_iff e).mp he
      rw [hedge] at hedge'
      cases hedge'
      exact ⟨edge, mem_edges_iff.mpr ⟨e, hedge⟩, rfl, htarget⟩
    · cases hsource
  · rintro ⟨edge, hmem, rfl, rfl⟩
    obtain ⟨e, he⟩ := mem_edges_iff.mp hmem
    obtain ⟨n, hn⟩ := exists_node?_of_lt (h.ends e edge he).2
    have hinc : e ∈ n.incs := ((h.incs _ n hn).mem_iff e).mpr ⟨edge, he, rfl⟩
    rw [predecessors, hn]
    exact List.mem_map.mpr ⟨edge, List.mem_filterMap.mpr ⟨e, hinc, he⟩, rfl⟩

theorem WellFormed.mem_successors (h : g.WellFormed) {i target : Nat} :
    target ∈ g.successors i ↔ ∃ edge ∈ g.edges, edge.source = i ∧ edge.target = target := by
  constructor
  · intro htarget
    rw [successors] at htarget
    split at htarget
    · next n hn =>
      obtain ⟨edge, hedge, rfl⟩ := List.mem_map.mp htarget
      obtain ⟨e, he, hedge⟩ := List.mem_filterMap.mp hedge
      obtain ⟨edge', hedge', hsource⟩ := ((h.outs i n hn).mem_iff e).mp he
      rw [hedge] at hedge'
      cases hedge'
      exact ⟨edge, mem_edges_iff.mpr ⟨e, hedge⟩, hsource, rfl⟩
    · cases htarget
  · rintro ⟨edge, hmem, rfl, rfl⟩
    obtain ⟨e, he⟩ := mem_edges_iff.mp hmem
    obtain ⟨n, hn⟩ := exists_node?_of_lt (h.ends e edge he).1
    have hout : e ∈ n.outs := ((h.outs _ n hn).mem_iff e).mpr ⟨edge, he, rfl⟩
    rw [successors, hn]
    exact List.mem_map.mpr ⟨edge, List.mem_filterMap.mpr ⟨e, hout, he⟩, rfl⟩

-- Where all edges that enter a node are the same, at most one enters it.
theorem WellFormed.length_predecessors_le_one (h : g.WellFormed) {i : Nat}
    (hsame : ∀ edge ∈ g.edges, ∀ edge' ∈ g.edges, edge.target = i → edge'.target = i →
      edge = edge') : (g.predecessors i).length ≤ 1 := by
  rw [predecessors]
  split
  · next n hn =>
    have hlists := h.incs i n hn
    have hone : n.incs.length ≤ 1 := by
      cases hincs : n.incs with
      | nil => simp
      | cons e rest =>
        cases rest with
        | nil => simp
        | cons e' rest =>
          have hnodup := hincs ▸ hlists.nodup
          obtain ⟨edge, hedge, htarget⟩ := (hlists.mem_iff e).mp (by simp [hincs])
          obtain ⟨edge', hedge', htarget'⟩ := (hlists.mem_iff e').mp (by simp [hincs])
          have heq := hsame edge (mem_edges_iff.mpr ⟨e, hedge⟩) edge'
            (mem_edges_iff.mpr ⟨e', hedge'⟩) htarget htarget'
          rw [← heq] at hedge'
          simp [h.unique e e' edge hedge hedge'] at hnodup
    rw [List.length_map]
    exact (List.length_filterMap_le _ _).trans hone
  · simp

theorem WellFormed.nodup_edges (h : g.WellFormed) : g.edges.toList.Nodup := by
  rw [List.nodup_iff_pairwise_ne, List.pairwise_iff_getElem]
  intro e e' he he' hlt heq
  have hedge : g.edge? e = some g.edges.toList[e] := by simp [edge?]
  have hedge' : g.edge? e' = some g.edges.toList[e'] := by simp [edge?]
  rw [← heq] at hedge'
  exact hlt.ne (h.unique e e' _ hedge hedge')

-- The graph with one more node, which has no edges yet.
def withNode (g : FlowGraph) (node : FlowNode) : FlowGraph :=
  { g with nodes := g.nodes.push node }

theorem node?_withNode (g : FlowGraph) (node : FlowNode) (i : Nat) :
    (g.withNode node).node? i = if i = g.size then some node else g.node? i :=
  Array.getElem?_push

theorem size_withNode (g : FlowGraph) (node : FlowNode) : (g.withNode node).size = g.size + 1 :=
  Array.size_push node

theorem WellFormed.withNode (h : g.WellFormed) {node : FlowNode} (hid : node.id = g.size)
    (houts : node.outs = []) (hincs : node.incs = []) : (g.withNode node).WellFormed where
  id i n hn := by
    rw [node?_withNode] at hn
    split at hn
    · next hi =>
      cases hn
      exact hid.trans hi.symm
    · exact h.id i n hn
  ends e edge he := by
    have hends := h.ends e edge he
    rw [size_withNode]
    omega
  unique := h.unique
  index := h.index
  outs i n hn := by
    rw [node?_withNode] at hn
    split at hn
    · next hi =>
      cases hn
      -- no edge starts at a node that was not there
      refine ⟨by simp [houts], fun e => ?_⟩
      simp only [houts, List.not_mem_nil, false_iff, not_exists, not_and]
      intro edge he hsource
      have hlt := (h.ends e edge he).1
      omega
    · exact (h.outs i n hn).congr rfl
  incs i n hn := by
    rw [node?_withNode] at hn
    split at hn
    · next hi =>
      cases hn
      refine ⟨by simp [hincs], fun e => ?_⟩
      simp only [hincs, List.not_mem_nil, false_iff, not_exists, not_and]
      intro edge he htarget
      have hlt := (h.ends e edge he).2
      omega
    · exact (h.incs i n hn).congr rfl
  labels := h.labels
  block label i hi := by
    obtain ⟨n, hn, hblock⟩ := h.block label i hi
    refine ⟨n, ?_, hblock⟩
    rw [node?_withNode, if_neg (lt_size_of_node? hn).ne, hn]

-- The graph with one more edge.
def withEdge (g : FlowGraph) (edge : FlowEdge) : FlowGraph :=
  let g' := { g with
    edges := g.edges.push edge
    edgeIndex := (edge, g.edges.size) :: g.edgeIndex }
  let g' := g'.modifyNode edge.source fun n => { n with outs := n.outs ++ [g.edges.size] }
  g'.modifyNode edge.target fun n => { n with incs := n.incs ++ [g.edges.size] }

theorem addEdge_eq (g : FlowGraph) (source target : Nat) (label : Option String) :
    (g.addEdge source target label).2 =
      if (g.edgeIndex.lookup ⟨source, target, label⟩).isSome then g
      else g.withEdge ⟨source, target, label⟩ := by
  simp only [addEdge, withEdge]
  cases g.edgeIndex.lookup ⟨source, target, label⟩ <;> rfl

theorem edge?_withEdge (g : FlowGraph) (edge : FlowEdge) (e : Nat) :
    (g.withEdge edge).edge? e = if e = g.edges.size then some edge else g.edge? e :=
  Array.getElem?_push

theorem size_withEdge (g : FlowGraph) (edge : FlowEdge) : (g.withEdge edge).size = g.size := by
  simp only [size, withEdge, modifyNode, Array.size_modify]

theorem node?_withEdge (g : FlowGraph) (edge : FlowEdge) (i : Nat) :
    (g.withEdge edge).node? i = (g.node? i).map fun n =>
      { n with
        outs := if edge.source = i then n.outs ++ [g.edges.size] else n.outs
        incs := if edge.target = i then n.incs ++ [g.edges.size] else n.incs } := by
  simp only [node?, withEdge, modifyNode, Array.getElem?_modify]
  by_cases hs : edge.source = i
  · by_cases ht : edge.target = i
    · simp [hs, ht, Function.comp_def]
    · simp [hs, ht]
  · by_cases ht : edge.target = i
    · simp [hs, ht]
    · simp [hs, ht]

-- The new number is listed exactly where the new edge has the property.
theorem Lists.withEdge {ids : List Nat} {property : FlowEdge → Prop} [DecidablePred property]
    (h : g.Lists ids property) (edge : FlowEdge) :
    (g.withEdge edge).Lists (if property edge then ids ++ [g.edges.size] else ids) property := by
  have hfresh : g.edges.size ∉ ids := by
    intro hmem
    obtain ⟨old, hold, -⟩ := (h.mem_iff _).mp hmem
    exact absurd (edge?_lt hold) (lt_irrefl _)
  by_cases hedge : property edge
  · rw [if_pos hedge]
    refine ⟨h.nodup.append (List.nodup_singleton _) (by simpa using hfresh), fun id => ?_⟩
    rw [List.mem_append, h.mem_iff, List.mem_singleton, edge?_withEdge]
    by_cases hid : id = g.edges.size
    · simp [hid, hedge]
    · simp [hid]
  · rw [if_neg hedge]
    refine ⟨h.nodup, fun id => ?_⟩
    rw [h.mem_iff, edge?_withEdge]
    by_cases hid : id = g.edges.size
    · have hnone : g.edge? g.edges.size = none := Array.getElem?_eq_none (le_refl _)
      simp [hid, hedge, hnone]
    · simp [hid]

theorem lookup_withEdge (g : FlowGraph) (edge other : FlowEdge) :
    (g.withEdge edge).edgeIndex.lookup other =
      if other = edge then some g.edges.size else g.edgeIndex.lookup other := by
  by_cases hother : other = edge
  · simp [FlowGraph.withEdge, modifyNode, hother]
  · have hne : (other == edge) = false := beq_false_of_ne hother
    simp [FlowGraph.withEdge, modifyNode, List.lookup_cons, hother, hne]

theorem WellFormed.edge?_ne (h : g.WellFormed) {edge : FlowEdge}
    (hnew : g.edgeIndex.lookup edge = none) (e : Nat) : g.edge? e ≠ some edge := by
  intro he
  rw [(h.index edge e).mpr he] at hnew
  cases hnew

theorem WellFormed.withEdge (h : g.WellFormed) {edge : FlowEdge}
    (hnew : g.edgeIndex.lookup edge = none) (hsource : edge.source < g.size)
    (htarget : edge.target < g.size) : (g.withEdge edge).WellFormed where
  id i n hn := by
    rw [node?_withEdge] at hn
    obtain ⟨old, hold, rfl⟩ := Option.map_eq_some_iff.mp hn
    exact h.id i old hold
  ends e other he := by
    rw [edge?_withEdge] at he
    rw [size_withEdge]
    split at he
    · cases he
      exact ⟨hsource, htarget⟩
    · exact h.ends e other he
  unique e e' other he he' := by
    rw [edge?_withEdge] at he he'
    split at he
    · next hlast =>
      cases he
      split at he'
      · next hlast' => exact hlast.trans hlast'.symm
      · exact absurd he' (h.edge?_ne hnew e')
    · split at he'
      · cases he'
        exact absurd he (h.edge?_ne hnew e)
      · exact h.unique e e' other he he'
  index other e := by
    rw [lookup_withEdge, edge?_withEdge]
    by_cases hother : other = edge
    · subst hother
      rw [if_pos rfl, Option.some.injEq]
      by_cases he : e = g.edges.size
      · simp [he]
      · simp [he, Ne.symm he, h.edge?_ne hnew e]
    · rw [if_neg hother, h.index]
      by_cases he : e = g.edges.size
      · have hnone : g.edge? g.edges.size = none := Array.getElem?_eq_none (le_refl _)
        simp [he, hnone, Ne.symm hother]
      · rw [if_neg he]
  outs i n hn := by
    rw [node?_withEdge] at hn
    obtain ⟨old, hold, rfl⟩ := Option.map_eq_some_iff.mp hn
    exact (h.outs i old hold).withEdge edge
  incs i n hn := by
    rw [node?_withEdge] at hn
    obtain ⟨old, hold, rfl⟩ := Option.map_eq_some_iff.mp hn
    exact (h.incs i old hold).withEdge edge
  labels := h.labels
  block label i hi := by
    obtain ⟨old, hold, hstatement, hname⟩ := h.block label i hi
    rw [node?_withEdge, hold]
    exact ⟨_, rfl, hstatement, hname⟩

theorem WellFormed.addEdge (h : g.WellFormed) {source target : Nat} (label : Option String)
    (hsource : source < g.size) (htarget : target < g.size) :
    (g.addEdge source target label).2.WellFormed := by
  rw [addEdge_eq]
  split
  · exact h
  · next hnew => exact h.withEdge (Option.not_isSome_iff_eq_none.mp hnew) hsource htarget

theorem WellFormed.insertBlock (h : g.WellFormed) {label : String} {i : Nat} {n : FlowNode}
    (hn : g.node? i = some n) (hstatement : n.statement = none) (hname : n.name = label) :
    WellFormed { g with blocks := g.blocks.insert label i } where
  id := h.id
  ends := h.ends
  unique := h.unique
  index := h.index
  outs i n hn := (h.outs i n hn).congr rfl
  incs i n hn := (h.incs i n hn).congr rfl
  labels := Table.nodup_keys_insert h.labels label i
  block other j hj := by
    rw [block?, Table.get?_insert] at hj
    split at hj
    · next hother =>
      cases hj
      exact ⟨n, hn, hstatement, hname.trans hother.symm⟩
    · exact h.block other j hj

theorem WellFormed.addNode (h : g.WellFormed) (name : String) : (g.addNode name).2.WellFormed :=
  h.withNode rfl rfl rfl

theorem WellFormed.addStatement (h : g.WellFormed) (name : String) (statement : Statement)
    (assignee : Option String) (line : Nat) :
    (g.addStatement name statement assignee line).2.WellFormed :=
  h.withNode rfl rfl rfl

theorem WellFormed.blockNode (h : g.WellFormed) (label : String) :
    (g.blockNode label).2.WellFormed := by
  simp only [FlowGraph.blockNode]
  split
  · exact h
  · exact (h.addNode label).insertBlock
      (n := { id := g.nodes.size, name := label })
      (by rw [node?]; exact Array.getElem?_push_size) rfl rfl

theorem WellFormed.defineBlock (h : g.WellFormed) (label : String) :
    (g.defineBlock label).2.WellFormed := by
  apply WellFormed.blockNode
  exact { h with
    outs := fun i n hn => (h.outs i n hn).congr rfl
    incs := fun i n hn => (h.incs i n hn).congr rfl }

-- Distinct labels have distinct nodes.
theorem WellFormed.block_injective (h : g.WellFormed) {label label' : String} {i : Nat}
    (hi : g.block? label = some i) (hi' : g.block? label' = some i) : label = label' := by
  obtain ⟨n, hn, -, rfl⟩ := h.block label i hi
  obtain ⟨n', hn', -, rfl⟩ := h.block label' i hi'
  rw [hn] at hn'
  cases hn'
  rfl

theorem wellFormed_empty (name : String) : (empty name).WellFormed where
  id := by simp [empty, node?]
  ends := by simp [empty, edge?]
  unique := by simp [empty, edge?]
  index := by simp [empty, edge?]
  outs := by simp [empty, node?]
  incs := by simp [empty, node?]
  labels := List.nodup_nil
  block label i hi := by cases hi

theorem mem_keys_blockNode {label other : String} :
    other ∈ (g.blockNode label).2.blocks.keys ↔ other ∈ g.blocks.keys ∨ other = label := by
  simp only [blockNode]
  split
  · next i hi =>
    have hlabel : label ∈ g.blocks.keys :=
      Table.mem_keys_iff.mpr (Table.contains_iff.mpr ⟨i, hi⟩)
    constructor
    · exact Or.inl
    · rintro (hother | rfl)
      · exact hother
      · exact hlabel
  · simp only [addNode, Table.mem_keys_iff, Table.contains_insert, Bool.or_eq_true, beq_iff_eq]
    exact Or.comm

theorem definedBlocks_blockNode (label : String) :
    (g.blockNode label).2.definedBlocks = g.definedBlocks := by
  simp only [blockNode]
  split <;> rfl

theorem mem_keys_defineBlock {label other : String} :
    other ∈ (g.defineBlock label).2.blocks.keys ↔ other ∈ g.blocks.keys ∨ other = label :=
  mem_keys_blockNode

theorem mem_definedBlocks_defineBlock {label other : String} :
    other ∈ (g.defineBlock label).2.definedBlocks ↔ other ∈ g.definedBlocks ∨ other = label := by
  rw [defineBlock, definedBlocks_blockNode]
  split
  · next hlabel =>
    have hmem : label ∈ g.definedBlocks := List.contains_iff_mem.mp hlabel
    constructor
    · exact Or.inl
    · rintro (hother | rfl)
      · exact hother
      · exact hmem
  · rw [List.mem_append, List.mem_singleton]

theorem blocks_addEdge (source target : Nat) (label : Option String) :
    (g.addEdge source target label).2.blocks = g.blocks := by
  rw [addEdge_eq]
  split <;> rfl

theorem definedBlocks_addEdge (source target : Nat) (label : Option String) :
    (g.addEdge source target label).2.definedBlocks = g.definedBlocks := by
  rw [addEdge_eq]
  split <;> rfl

theorem mem_undefinedBlocks {label : String} :
    label ∈ g.undefinedBlocks ↔ label ∈ g.blocks.keys ∧ label ∉ g.definedBlocks := by
  simp [undefinedBlocks]

-- With every label once, the undefined ones come in strictly ascending order.
theorem pairwise_undefinedBlocks (h : g.blocks.keys.Nodup) :
    g.undefinedBlocks.Pairwise (· < ·) :=
  pairwise_mergeSort_of_nodup (h.filter _)

theorem mem_keys_iff_block? {label : String} :
    label ∈ g.blocks.keys ↔ ∃ i, g.block? label = some i := by
  rw [Table.mem_keys_iff, Table.contains_iff, block?]

-- The ways in which a graph grows.
inductive Operation where
  | addNode (name : String)
  | addStatement (name : String) (statement : Statement) (assignee : Option String) (line : Nat)
  | addEdge (source target : Nat) (label : Option String)
  | blockNode (label : String)
  | defineBlock (label : String)
deriving DecidableEq

namespace Operation

def apply (g : FlowGraph) : Operation → FlowGraph
  | addNode name => (g.addNode name).2
  | addStatement name statement assignee line => (g.addStatement name statement assignee line).2
  | addEdge source target label => (g.addEdge source target label).2
  | blockNode label => (g.blockNode label).2
  | defineBlock label => (g.defineBlock label).2

-- An edge is added between nodes that are there.
def Allowed (g : FlowGraph) : Operation → Prop
  | addEdge source target _ => source < g.size ∧ target < g.size
  | _ => True

instance (g : FlowGraph) : (op : Operation) → Decidable (op.Allowed g)
  | addEdge source target _ => inferInstanceAs (Decidable (source < g.size ∧ target < g.size))
  | addNode _ | addStatement .. | blockNode _ | defineBlock _ => inferInstanceAs (Decidable True)

theorem Allowed.wellFormed {op : Operation} (hop : op.Allowed g) (h : g.WellFormed) :
    (op.apply g).WellFormed := by
  cases op with
  | addNode name => exact h.addNode name
  | addStatement name statement assignee line => exact h.addStatement name statement assignee line
  | addEdge source target label => exact h.addEdge label hop.1 hop.2
  | blockNode label => exact h.blockNode label
  | defineBlock label => exact h.defineBlock label

theorem mem_keys_apply {op : Operation} {label : String} :
    label ∈ (op.apply g).blocks.keys ↔
      label ∈ g.blocks.keys ∨ op = .blockNode label ∨ op = .defineBlock label := by
  cases op with
  | addNode name => simp [apply, FlowGraph.addNode]
  | addStatement name statement assignee line => simp [apply, FlowGraph.addStatement]
  | addEdge source target label => simp [apply, blocks_addEdge]
  | blockNode other => simp [apply, mem_keys_blockNode, eq_comm]
  | defineBlock other => simp [apply, mem_keys_defineBlock, eq_comm]

theorem mem_definedBlocks_apply {op : Operation} {label : String} :
    label ∈ (op.apply g).definedBlocks ↔
      label ∈ g.definedBlocks ∨ op = .defineBlock label := by
  cases op with
  | addNode name => simp [apply, FlowGraph.addNode]
  | addStatement name statement assignee line => simp [apply, FlowGraph.addStatement]
  | addEdge source target label => simp [apply, definedBlocks_addEdge]
  | blockNode other => simp [apply, definedBlocks_blockNode]
  | defineBlock other => simp [apply, mem_definedBlocks_defineBlock, eq_comm]

end Operation

-- The graph after a sequence of operations.
def applyAll (g : FlowGraph) (ops : List Operation) : FlowGraph :=
  ops.foldl Operation.apply g

-- Every operation is allowed in the graph that those before it leave.
def AllAllowed (g : FlowGraph) : List Operation → Prop
  | [] => True
  | op :: ops => op.Allowed g ∧ AllAllowed (op.apply g) ops

instance decidableAllAllowed (g : FlowGraph) : (ops : List Operation) → Decidable (g.AllAllowed ops)
  | [] => inferInstanceAs (Decidable True)
  | op :: ops =>
    have := decidableAllAllowed (op.apply g) ops
    inferInstanceAs (Decidable (op.Allowed g ∧ AllAllowed (op.apply g) ops))

theorem WellFormed.applyAll (h : g.WellFormed) {ops : List Operation} (hops : g.AllAllowed ops) :
    (g.applyAll ops).WellFormed := by
  induction ops generalizing g with
  | nil => exact h
  | cons op ops ih => exact ih (hops.1.wellFormed h) hops.2

theorem mem_keys_applyAll {ops : List Operation} {label : String} :
    label ∈ (g.applyAll ops).blocks.keys ↔
      label ∈ g.blocks.keys ∨ .blockNode label ∈ ops ∨ .defineBlock label ∈ ops := by
  induction ops generalizing g with
  | nil => simp [applyAll]
  | cons op ops ih =>
    have hrest := ih (g := op.apply g)
    rw [Operation.mem_keys_apply] at hrest
    rw [applyAll, List.foldl_cons, ← applyAll, hrest, List.mem_cons, List.mem_cons]
    grind

theorem mem_definedBlocks_applyAll {ops : List Operation} {label : String} :
    label ∈ (g.applyAll ops).definedBlocks ↔
      label ∈ g.definedBlocks ∨ .defineBlock label ∈ ops := by
  induction ops generalizing g with
  | nil => simp [applyAll]
  | cons op ops ih =>
    have hrest := ih (g := op.apply g)
    rw [Operation.mem_definedBlocks_apply] at hrest
    rw [applyAll, List.foldl_cons, ← applyAll, hrest, List.mem_cons]
    grind

-- However a graph is built, its parts agree; the labels that were named are, with distinct nodes,
-- its labels, and the undefined ones are those that were named and never defined.
theorem parts_agree {name : String} {ops : List Operation}
    (hops : (empty name).AllAllowed ops) :
    let g := (empty name).applyAll ops
    g.WellFormed ∧
    (∀ label, (∃ i, g.block? label = some i) ↔ .blockNode label ∈ ops ∨ .defineBlock label ∈ ops) ∧
    (∀ label label' i, g.block? label = some i → g.block? label' = some i → label = label') ∧
    g.undefinedBlocks.Pairwise (· < ·) ∧
    ∀ label, label ∈ g.undefinedBlocks ↔ .blockNode label ∈ ops ∧ .defineBlock label ∉ ops := by
  intro g
  have hg : g.WellFormed := (wellFormed_empty name).applyAll hops
  have hkeys (label : String) :
      label ∈ g.blocks.keys ↔ .blockNode label ∈ ops ∨ .defineBlock label ∈ ops := by
    have hnone : label ∉ (empty name).blocks.keys := List.not_mem_nil
    rw [mem_keys_applyAll, or_iff_right hnone]
  have hdefined (label : String) : label ∈ g.definedBlocks ↔ .defineBlock label ∈ ops := by
    have hnone : label ∉ (empty name).definedBlocks := List.not_mem_nil
    rw [mem_definedBlocks_applyAll, or_iff_right hnone]
  refine ⟨hg, fun label => ?_, fun _ _ _ => hg.block_injective, pairwise_undefinedBlocks hg.labels,
    fun label => ?_⟩
  · rw [← mem_keys_iff_block?, hkeys]
  · rw [mem_undefinedBlocks, hkeys, hdefined]
    grind

-- A label that is jumped to, from itself too, before its line is seen, an edge that is added again
-- and a label that never has a line.
def loopOperations : List Operation :=
  [.addNode "", .blockNode "%1", .addEdge 0 1 none, .addEdge 1 1 (some "again"), .defineBlock "%1",
    .addEdge 0 1 none, .addStatement "ret void" (.ret "void" none) none 3, .blockNode "%2",
    .addEdge 2 3 none]

theorem parts_agree_loopOperations :
    (empty "f").AllAllowed loopOperations ∧
    ((empty "f").applyAll loopOperations).WellFormed ∧
    "%2" ∈ ((empty "f").applyAll loopOperations).undefinedBlocks ∧
    "%1" ∉ ((empty "f").applyAll loopOperations).undefinedBlocks := by
  have hops : (empty "f").AllAllowed loopOperations := by decide
  obtain ⟨hformed, -, -, -, hundefined⟩ := parts_agree hops
  refine ⟨hops, hformed, (hundefined _).mpr (by decide), fun hmem => ?_⟩
  exact absurd ((hundefined _).mp hmem) (by decide)

end TestFocus.FlowGraph
