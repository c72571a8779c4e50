import TestFocus.Proofs.FlowGraph.Representation

namespace TestFocus

-- A node without its edges and without the mark of an assertion.
def FlowNode.outline (n : FlowNode) : FlowNode :=
  { n with outs := [], incs := [], isAssertion := false }

namespace FlowGraph

def outlines (g : FlowGraph) : List FlowNode :=
  g.nodes.toList.map FlowNode.outline

variable {g : FlowGraph}

theorem getElem?_outlines (g : FlowGraph) (i : Nat) :
    g.outlines[i]? = (g.node? i).map FlowNode.outline := by
  rw [outlines, List.getElem?_map, Array.getElem?_toList, node?]

theorem length_outlines (g : FlowGraph) : g.outlines.length = g.size := by
  rw [outlines, List.length_map, Array.length_toList, size]

theorem outlines_eq_of_node? {g' : FlowGraph}
    (h : ∀ i, (g'.node? i).map FlowNode.outline = (g.node? i).map FlowNode.outline) :
    g'.outlines = g.outlines := by
  ext1 i
  rw [getElem?_outlines, getElem?_outlines, h]

theorem outlines_withNode (g : FlowGraph) (node : FlowNode) :
    (g.withNode node).outlines = g.outlines ++ [node.outline] := by
  simp [outlines, withNode]

theorem outlines_addEdge (g : FlowGraph) (source target : Nat) (label : Option String) :
    (g.addEdge source target label).2.outlines = g.outlines := by
  rw [addEdge_eq]
  split
  · rfl
  · apply outlines_eq_of_node?
    intro i
    rw [node?_withEdge, Option.map_map]
    rfl

theorem outlines_modifyNode (g : FlowGraph) (id : Nat) {f : FlowNode → FlowNode}
    (hf : ∀ n, (f n).outline = n.outline) : (g.modifyNode id f).outlines = g.outlines := by
  apply outlines_eq_of_node?
  intro i
  simp only [node?, modifyNode, Array.getElem?_modify]
  split
  · rw [Option.map_map]
    congr 1
    exact funext hf
  · rfl

theorem outlines_addStatement (g : FlowGraph) (name : String) (statement : Statement)
    (assignee : Option String) (line : Nat) :
    (g.addStatement name statement assignee line).2.outlines = g.outlines ++
      [{ id := g.size, name, statement := some statement, assignee, line,
         isFinal := statement.isFinal }] :=
  outlines_withNode g _

-- A label that is new gets a node, behind those that are there.
theorem outlines_blockNode (g : FlowGraph) (label : String) :
    (g.blockNode label).2.outlines = g.outlines ++
      if g.block? label = none then [{ id := g.size, name := label }] else [] := by
  cases hlabel : g.block? label with
  | some i =>
    have hget : g.blocks.get? label = some i := hlabel
    simp only [blockNode, hget, reduceCtorEq, if_false, List.append_nil]
  | none =>
    have hget : g.blocks.get? label = none := hlabel
    simp only [blockNode, hget, if_true]
    exact outlines_withNode g _

theorem outlines_defineBlock (g : FlowGraph) (label : String) :
    (g.defineBlock label).2.outlines = g.outlines ++
      if g.block? label = none then [{ id := g.size, name := label }] else [] :=
  outlines_blockNode _ label

-- The statements are read from the outlines.
theorem statements_eq (g : FlowGraph) :
    g.statements = g.outlines.filterMap fun n => n.statement.map fun s => (n.id, s) := by
  rw [statements, outlines, List.filterMap_map]
  rfl

theorem block?_blockNode (g : FlowGraph) (label other : String) :
    (g.blockNode label).2.block? other =
      if other = label then some (g.blockNode label).1 else g.block? other := by
  simp only [blockNode, block?]
  split
  · next i hi =>
    by_cases hother : other = label
    · rw [if_pos hother, hother, hi]
    · rw [if_neg hother]
  · exact Table.get?_insert _ _ _ _

theorem block?_defineBlock (g : FlowGraph) (label other : String) :
    (g.defineBlock label).2.block? other =
      if other = label then some (g.defineBlock label).1 else g.block? other :=
  block?_blockNode _ label other

-- The node of a label that is there stays.
theorem block?_blockNode_of_some {label other : String} {i : Nat} (h : g.block? other = some i) :
    (g.blockNode label).2.block? other = some i := by
  rw [block?_blockNode]
  split
  · next hother =>
    rw [hother, block?] at h
    simp only [blockNode, h]
  · exact h

theorem fst_blockNode (g : FlowGraph) (label : String) :
    (g.blockNode label).1 = (g.block? label).getD g.size := by
  simp only [blockNode, block?]
  cases g.blocks.get? label <;> rfl

theorem block?_addEdge (source target : Nat) (label : Option String) (other : String) :
    (g.addEdge source target label).2.block? other = g.block? other := by
  rw [block?, block?, blocks_addEdge]

theorem edges_blockNode (g : FlowGraph) (label : String) :
    (g.blockNode label).2.edges = g.edges := by
  simp only [blockNode]
  split <;> rfl

theorem edges_defineBlock (g : FlowGraph) (label : String) :
    (g.defineBlock label).2.edges = g.edges :=
  edges_blockNode _ label

theorem WellFormed.mem_edges_addEdge (h : g.WellFormed) {source target : Nat}
    {label : Option String} {edge : FlowEdge} :
    edge ∈ (g.addEdge source target label).2.edges ↔
      edge ∈ g.edges ∨ edge = ⟨source, target, label⟩ := by
  rw [addEdge_eq]
  split
  · next hthere =>
    obtain ⟨e, he⟩ := Option.isSome_iff_exists.mp hthere
    have hmem : ⟨source, target, label⟩ ∈ g.edges := mem_edges_iff.mpr ⟨e, (h.index _ e).mp he⟩
    constructor
    · exact Or.inl
    · rintro (hedge | rfl)
      · exact hedge
      · exact hmem
  · exact Array.mem_push

theorem size_addEdge (g : FlowGraph) (source target : Nat) (label : Option String) :
    (g.addEdge source target label).2.size = g.size := by
  rw [← length_outlines, outlines_addEdge, length_outlines]

theorem size_le_blockNode (g : FlowGraph) (label : String) :
    g.size ≤ (g.blockNode label).2.size := by
  rw [← length_outlines, ← length_outlines, outlines_blockNode, List.length_append]
  exact Nat.le_add_right _ _

theorem WellFormed.block_lt (h : g.WellFormed) {label : String} {i : Nat}
    (hi : g.block? label = some i) : i < g.size := by
  obtain ⟨n, hn, -⟩ := h.block label i hi
  exact lt_size_of_node? hn

-- Nothing that the parts of a graph have to agree on changes.
theorem WellFormed.modifyNode (h : g.WellFormed) (id : Nat) {f : FlowNode → FlowNode}
    (hf : ∀ n, (f n).id = n.id ∧ (f n).name = n.name ∧ (f n).statement = n.statement ∧
      (f n).outs = n.outs ∧ (f n).incs = n.incs) : (g.modifyNode id f).WellFormed := by
  have hnode (i : Nat) : (g.modifyNode id f).node? i =
      (g.node? i).map fun n => if id = i then f n else n := by
    simp only [node?, FlowGraph.modifyNode, Array.getElem?_modify]
    split
    · rfl
    · simp
  have hkept (i : Nat) (n : FlowNode) (hn : (g.modifyNode id f).node? i = some n) :
      ∃ old, g.node? i = some old ∧ n.id = old.id ∧ n.outs = old.outs ∧ n.incs = old.incs := by
    rw [hnode] at hn
    obtain ⟨old, hold, rfl⟩ := Option.map_eq_some_iff.mp hn
    obtain ⟨hid, -, -, houts, hincs⟩ := hf old
    refine ⟨old, hold, ?_⟩
    split
    · exact ⟨hid, houts, hincs⟩
    · exact ⟨rfl, rfl, rfl⟩
  have hsize : (g.modifyNode id f).size = g.size := Array.size_modify
  constructor
  case id =>
    intro i n hn
    obtain ⟨old, hold, heq, -⟩ := hkept i n hn
    exact heq.trans (h.id i old hold)
  case ends =>
    intro e edge he
    rw [hsize]
    exact h.ends e edge he
  case unique => exact h.unique
  case index => exact h.index
  case outs =>
    intro i n hn
    obtain ⟨old, hold, -, heq, -⟩ := hkept i n hn
    rw [heq]
    exact (h.outs i old hold).congr rfl
  case incs =>
    intro i n hn
    obtain ⟨old, hold, -, -, heq⟩ := hkept i n hn
    rw [heq]
    exact (h.incs i old hold).congr rfl
  case labels => exact h.labels
  case block =>
    intro label i hi
    obtain ⟨old, hold, hblock⟩ := h.block label i hi
    obtain ⟨-, hname, hstatement, -⟩ := hf old
    rw [hnode, hold]
    refine ⟨_, rfl, ?_⟩
    split
    · exact ⟨hstatement.trans hblock.1, hname.trans hblock.2⟩
    · exact hblock

-- The statements stand in the order of their nodes.
theorem WellFormed.pairwise_statements (h : g.WellFormed) :
    g.statements.Pairwise (·.1 < ·.1) := by
  have hid (i : Nat) (hi : i < g.outlines.length) : g.outlines[i].id = i := by
    have hnode := List.getElem?_eq_getElem hi
    rw [getElem?_outlines] at hnode
    obtain ⟨n, hn, hn'⟩ := Option.map_eq_some_iff.mp hnode
    rw [← hn']
    exact h.id i n hn
  have houtlines : g.outlines.Pairwise (·.id < ·.id) := by
    rw [List.pairwise_iff_getElem]
    intro i j hi hj hlt
    rw [hid i hi, hid j hj]
    exact hlt
  rw [statements_eq, List.pairwise_filterMap]
  refine houtlines.imp fun {n n'} hlt => ?_
  rintro _ hs _ hs'
  obtain ⟨s, -, rfl⟩ := Option.map_eq_some_iff.mp hs
  obtain ⟨s', -, rfl⟩ := Option.map_eq_some_iff.mp hs'
  exact hlt

variable {g' : FlowGraph} {entry : Nat}

-- One node is marked as the start; it has no statement and no label, and all other nodes have one
-- of the two.
structure Rooted (g : FlowGraph) (entry : Nat) : Prop extends g.WellFormed where
  root : ∃ n ∈ g.outlines, n.id = entry ∧ n.statement = none
  start : ∀ n ∈ g.outlines, n.isStart = true ↔ n.id = entry
  placeholder : ∀ n ∈ g.outlines, n.statement = none →
    n.id = entry ∨ ∃ label, g.block? label = some n.id
  apart : ∀ label, g.block? label ≠ some entry

-- The nodes and the labels that are there stay as they are.
structure Extends (g g' : FlowGraph) : Prop where
  outlines : g.outlines <+: g'.outlines
  block : ∀ label i, g.block? label = some i → g'.block? label = some i

theorem Extends.trans {g'' : FlowGraph} (h : g.Extends g') (h' : g'.Extends g'') :
    g.Extends g'' where
  outlines := h.outlines.trans h'.outlines
  block label i hi := h'.block label i (h.block label i hi)

theorem extends_of_eq (houtlines : g'.outlines = g.outlines)
    (hblock : ∀ label, g'.block? label = g.block? label) : g.Extends g' where
  outlines := houtlines ▸ List.prefix_refl _
  block label i hi := by rw [hblock, hi]

theorem WellFormed.id_lt (h : g.WellFormed) {n : FlowNode} (hn : n ∈ g.outlines) :
    n.id < g.size := by
  obtain ⟨i, hi⟩ := List.mem_iff_getElem?.mp hn
  rw [getElem?_outlines] at hi
  obtain ⟨node, hnode, rfl⟩ := Option.map_eq_some_iff.mp hi
  have hid : node.outline.id = i := h.id i node hnode
  rw [hid]
  exact lt_size_of_node? hnode

theorem Rooted.entry_lt (h : g.Rooted entry) : entry < g.size := by
  obtain ⟨n, hn, rfl, -⟩ := h.root
  exact h.id_lt hn

theorem Rooted.congr (h : g.Rooted entry) (hg : g'.WellFormed)
    (houtlines : g'.outlines = g.outlines) (hblock : ∀ label, g'.block? label = g.block? label) :
    g'.Rooted entry where
  toWellFormed := hg
  root := houtlines ▸ h.root
  start := houtlines ▸ h.start
  placeholder := by
    rw [houtlines]
    simp only [hblock]
    exact h.placeholder
  apart label := by
    rw [hblock]
    exact h.apart label

-- A node that is added is a statement, or the node of a label.
theorem Rooted.snoc (h : g.Rooted entry) (hg : g'.WellFormed) {node : FlowNode}
    (houtlines : g'.outlines = g.outlines ++ [node]) (hid : node.id = g.size)
    (hstart : node.isStart = false)
    (hnode : node.statement = none → ∃ label, g'.block? label = some node.id)
    (hblock : ∀ label i, g'.block? label = some i → g.block? label = some i ∨ i = g.size)
    (hkept : ∀ label i, g.block? label = some i → g'.block? label = some i) :
    g'.Rooted entry := by
  have hne : g.size ≠ entry := h.entry_lt.ne'
  constructor
  case toWellFormed => exact hg
  case root =>
    obtain ⟨n, hn, hroot⟩ := h.root
    exact ⟨n, by simp [houtlines, hn], hroot⟩
  case start =>
    intro n hn
    rw [houtlines, List.mem_append, List.mem_singleton] at hn
    rcases hn with hn | rfl
    · exact h.start n hn
    · simp [hstart, hid, hne]
  case placeholder =>
    intro n hn hstatement
    rw [houtlines, List.mem_append, List.mem_singleton] at hn
    rcases hn with hn | rfl
    · rcases h.placeholder n hn hstatement with hentry | ⟨label, hlabel⟩
      · exact .inl hentry
      · exact .inr ⟨label, hkept label _ hlabel⟩
    · exact .inr (hnode hstatement)
  case apart =>
    intro label hlabel
    rcases hblock label entry hlabel with hold | hnew
    · exact h.apart label hold
    · exact hne hnew.symm

theorem Rooted.addEdge (h : g.Rooted entry) {source target : Nat} (label : Option String)
    (hsource : source < g.size) (htarget : target < g.size) :
    (g.addEdge source target label).2.Rooted entry :=
  h.congr (h.toWellFormed.addEdge label hsource htarget) (outlines_addEdge g _ _ _)
    (block?_addEdge _ _ _)

theorem extends_addEdge (g : FlowGraph) (source target : Nat) (label : Option String) :
    g.Extends (g.addEdge source target label).2 :=
  extends_of_eq (outlines_addEdge g _ _ _) (block?_addEdge _ _ _)

theorem extends_blockNode (g : FlowGraph) (label : String) :
    g.Extends (g.blockNode label).2 where
  outlines := by
    rw [outlines_blockNode]
    exact List.prefix_append _ _
  block _ _ := block?_blockNode_of_some

theorem Rooted.blockNode (h : g.Rooted entry) (label : String) :
    (g.blockNode label).2.Rooted entry := by
  have hg := h.toWellFormed.blockNode label
  have houtlines := outlines_blockNode g label
  have hblock := block?_blockNode g label
  have hkept := (extends_blockNode g label).block
  cases hlabel : g.block? label with
  | some i =>
    rw [hlabel, if_neg (by simp), List.append_nil] at houtlines
    refine h.congr hg houtlines fun other => ?_
    rw [hblock]
    split
    · next hother => rw [hother, hlabel, fst_blockNode, hlabel, Option.getD_some]
    · rfl
  | none =>
    rw [hlabel, if_pos rfl] at houtlines
    have hnode : (g.blockNode label).1 = g.size := by
      rw [fst_blockNode, hlabel, Option.getD_none]
    refine h.snoc hg houtlines rfl rfl (fun _ => ⟨label, ?_⟩) (fun other i hi => ?_) hkept
    · rw [hblock, if_pos rfl, hnode]
    · rw [hblock] at hi
      split at hi
      · cases hi
        exact .inr hnode
      · exact .inl hi

-- That the line of a label was seen is no part of what is asked of the nodes.
theorem Rooted.withDefined (h : g.Rooted entry) (definedBlocks : List String) :
    Rooted { g with definedBlocks } entry := by
  have hg : WellFormed { g with definedBlocks } := { h.toWellFormed with
    outs := fun i n hn => (h.outs i n hn).congr rfl
    incs := fun i n hn => (h.incs i n hn).congr rfl }
  exact h.congr hg rfl fun _ => rfl

theorem Rooted.defineBlock (h : g.Rooted entry) (label : String) :
    (g.defineBlock label).2.Rooted entry :=
  (h.withDefined _).blockNode label

theorem extends_defineBlock (g : FlowGraph) (label : String) :
    g.Extends (g.defineBlock label).2 := by
  have h := extends_blockNode { g with
    definedBlocks :=
      if g.definedBlocks.contains label then g.definedBlocks else g.definedBlocks ++ [label] } label
  exact ⟨h.outlines, h.block⟩

theorem Rooted.addStatement (h : g.Rooted entry) (name : String) (statement : Statement)
    (assignee : Option String) (line : Nat) :
    (g.addStatement name statement assignee line).2.Rooted entry := by
  have hblock (label : String) :
      (g.addStatement name statement assignee line).2.block? label = g.block? label := rfl
  refine h.snoc (h.toWellFormed.addStatement name statement assignee line)
    (outlines_addStatement g name statement assignee line) rfl rfl ?_ ?_ ?_
  · intro hnone
    cases hnone
  · intro label i hi
    exact .inl hi
  · intro label i hi
    exact hi

end FlowGraph

end TestFocus
