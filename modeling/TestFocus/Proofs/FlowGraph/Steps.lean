import TestFocus.Module.Line
import TestFocus.Proofs.FlowGraph.Growth

namespace TestFocus

namespace FlowGraph

variable {g : FlowGraph} {entry node : Nat}

-- The edge along which control falls through into a node.
def fall (g : FlowGraph) (previous : Option Nat) (node : Nat) : FlowGraph :=
  match previous with
  | some previous => (g.addEdge previous node none).2
  | none => g

def addJumps (g : FlowGraph) (node : Nat) (jumps : List (String × Option String)) : FlowGraph :=
  jumps.foldl (fun g jump =>
    ((g.blockNode jump.1).2.addEdge node (g.blockNode jump.1).1 jump.2).2) g

theorem extends_refl (g : FlowGraph) : g.Extends g :=
  extends_of_eq rfl fun _ => rfl

theorem extends_fall (g : FlowGraph) (previous : Option Nat) (node : Nat) :
    g.Extends (g.fall previous node) := by
  cases previous with
  | none => exact extends_refl g
  | some previous => exact extends_addEdge g previous node none

theorem outlines_fall (g : FlowGraph) (previous : Option Nat) (node : Nat) :
    (g.fall previous node).outlines = g.outlines := by
  cases previous with
  | none => rfl
  | some previous => exact outlines_addEdge g previous node none

theorem blocks_fall (g : FlowGraph) (previous : Option Nat) (node : Nat) :
    (g.fall previous node).blocks = g.blocks := by
  cases previous with
  | none => rfl
  | some previous => exact blocks_addEdge previous node none

theorem definedBlocks_fall (g : FlowGraph) (previous : Option Nat) (node : Nat) :
    (g.fall previous node).definedBlocks = g.definedBlocks := by
  cases previous with
  | none => rfl
  | some previous => exact definedBlocks_addEdge previous node none

theorem Rooted.fall (h : g.Rooted entry) {previous : Option Nat}
    (hprevious : ∀ before, previous = some before → before < g.size) (hnode : node < g.size) :
    (g.fall previous node).Rooted entry := by
  cases previous with
  | none => exact h
  | some before => exact h.addEdge none (hprevious before rfl) hnode

theorem WellFormed.mem_edges_fall (h : g.WellFormed) {previous : Option Nat} {edge : FlowEdge} :
    edge ∈ (g.fall previous node).edges ↔
      edge ∈ g.edges ∨ ∃ before, previous = some before ∧ edge = ⟨before, node, none⟩ := by
  cases previous with
  | none => simp [FlowGraph.fall]
  | some before => simp [FlowGraph.fall, h.mem_edges_addEdge]

theorem statements_blockNode (g : FlowGraph) (label : String) :
    (g.blockNode label).2.statements = g.statements := by
  rw [statements_eq, statements_eq, outlines_blockNode, List.filterMap_append]
  split <;> simp

theorem statements_addEdge (g : FlowGraph) (source target : Nat) (label : Option String) :
    (g.addEdge source target label).2.statements = g.statements := by
  rw [statements_eq, statements_eq, outlines_addEdge]

section AddJumps

variable {jump : String × Option String} {jumps : List (String × Option String)}

theorem addJumps_cons (g : FlowGraph) (node : Nat) (jump : String × Option String)
    (jumps : List (String × Option String)) :
    g.addJumps node (jump :: jumps) =
      ((g.blockNode jump.1).2.addEdge node (g.blockNode jump.1).1 jump.2).2.addJumps node jumps :=
  rfl

theorem extends_addJumps (g : FlowGraph) (node : Nat) (jumps : List (String × Option String)) :
    g.Extends (g.addJumps node jumps) := by
  induction jumps generalizing g with
  | nil => exact extends_refl g
  | cons jump jumps ih =>
    have hjump := (extends_blockNode g jump.1).trans
      (extends_addEdge _ node (g.blockNode jump.1).1 jump.2)
    exact hjump.trans (ih _)

theorem statements_addJumps (g : FlowGraph) (node : Nat) (jumps : List (String × Option String)) :
    (g.addJumps node jumps).statements = g.statements := by
  induction jumps generalizing g with
  | nil => rfl
  | cons jump jumps ih => rw [addJumps_cons, ih, statements_addEdge, statements_blockNode]

theorem definedBlocks_addJumps (g : FlowGraph) (node : Nat)
    (jumps : List (String × Option String)) :
    (g.addJumps node jumps).definedBlocks = g.definedBlocks := by
  induction jumps generalizing g with
  | nil => rfl
  | cons jump jumps ih => rw [addJumps_cons, ih, definedBlocks_addEdge, definedBlocks_blockNode]

theorem mem_keys_addJumps {label : String} :
    label ∈ (g.addJumps node jumps).blocks.keys ↔
      label ∈ g.blocks.keys ∨ ∃ jump ∈ jumps, jump.1 = label := by
  induction jumps generalizing g with
  | nil => simp [addJumps]
  | cons jump jumps ih =>
    rw [addJumps_cons, ih, blocks_addEdge, mem_keys_blockNode, List.exists_mem_cons_iff, or_assoc,
      eq_comm]

-- One jump: the node of the label is there, or is added, and the edge leads to it.
theorem Rooted.addJump (h : g.Rooted entry) (hnode : node < g.size)
    (jump : String × Option String) :
    ((g.blockNode jump.1).2.addEdge node (g.blockNode jump.1).1 jump.2).2.Rooted entry := by
  have hblock := h.blockNode jump.1
  have htarget : (g.blockNode jump.1).2.block? jump.1 = some (g.blockNode jump.1).1 := by
    rw [block?_blockNode, if_pos rfl]
  exact hblock.addEdge jump.2 (hnode.trans_le (size_le_blockNode g jump.1))
    (hblock.toWellFormed.block_lt htarget)

theorem lt_size_addJump (hnode : node < g.size) (jump : String × Option String) :
    node < ((g.blockNode jump.1).2.addEdge node (g.blockNode jump.1).1 jump.2).2.size := by
  rw [size_addEdge]
  exact hnode.trans_le (size_le_blockNode g jump.1)

theorem Rooted.addJumps (h : g.Rooted entry) (hnode : node < g.size)
    (jumps : List (String × Option String)) : (g.addJumps node jumps).Rooted entry := by
  induction jumps generalizing g with
  | nil => exact h
  | cons jump jumps ih => exact ih (h.addJump hnode jump) (lt_size_addJump hnode jump)

theorem Rooted.mem_edges_addJumps (h : g.Rooted entry) (hnode : node < g.size) {edge : FlowEdge} :
    edge ∈ (g.addJumps node jumps).edges ↔ edge ∈ g.edges ∨ ∃ jump ∈ jumps,
      edge.source = node ∧ (g.addJumps node jumps).block? jump.1 = some edge.target ∧
        edge.label = jump.2 := by
  induction jumps generalizing g with
  | nil => simp [FlowGraph.addJumps]
  | cons jump jumps ih =>
    have hblock := h.toWellFormed.blockNode jump.1
    -- the jumps behind this one leave the node of its label where it is
    have htarget : (g.addJumps node (jump :: jumps)).block? jump.1 =
        some (g.blockNode jump.1).1 := by
      rw [addJumps_cons]
      apply (extends_addJumps _ node jumps).block
      rw [block?_addEdge, block?_blockNode, if_pos rfl]
    have hrest := ih (h.addJump hnode jump) (lt_size_addJump hnode jump)
    rw [← addJumps_cons] at hrest
    rw [hrest, hblock.mem_edges_addEdge, edges_blockNode, List.exists_mem_cons_iff, htarget,
      or_assoc]
    refine or_congr_right (or_congr_left ?_)
    obtain ⟨source, target, label⟩ := edge
    simp only [FlowEdge.mk.injEq, Option.some.injEq, eq_comm (a := target)]

end AddJumps

-- The mark of an assertion changes neither the outlines nor anything around the nodes.
def markAssertion (g : FlowGraph) (node : Nat) (assertion : Bool) : FlowGraph :=
  if assertion then g.modifyNode node fun n => { n with isAssertion := true } else g

theorem outlines_markAssertion (g : FlowGraph) (node : Nat) (assertion : Bool) :
    (g.markAssertion node assertion).outlines = g.outlines := by
  cases assertion with
  | false => rfl
  | true => exact outlines_modifyNode g node fun _ => rfl

theorem markAssertion_frame (g : FlowGraph) (node : Nat) (assertion : Bool) :
    (g.markAssertion node assertion).edges = g.edges ∧
    (g.markAssertion node assertion).blocks = g.blocks ∧
    (g.markAssertion node assertion).definedBlocks = g.definedBlocks := by
  cases assertion with
  | false => exact ⟨rfl, rfl, rfl⟩
  | true => exact ⟨rfl, rfl, rfl⟩

theorem Rooted.markAssertion (h : g.Rooted entry) (node : Nat) (assertion : Bool) :
    (g.markAssertion node assertion).Rooted entry := by
  cases assertion with
  | false => exact h
  | true =>
    have hmark := h.toWellFormed.modifyNode node (f := fun n => { n with isAssertion := true })
      fun _ => ⟨rfl, rfl, rfl, rfl, rfl⟩
    exact h.congr hmark (outlines_modifyNode g node fun _ => rfl) fun _ => rfl

section Visit

variable {previous : Option Nat} {line : SourceLine} {assignee : Option String} {s : Statement}
  {assertion : Bool}

-- A node for the statement, with the edge that falls through into it.
def visit (g : FlowGraph) (previous : Option Nat) (line : SourceLine) (assignee : Option String)
    (s : Statement) (assertion : Bool) : FlowGraph :=
  ((g.addStatement line.text s assignee line.number).2.fall previous g.size).markAssertion g.size
    assertion

theorem outlines_visit : (g.visit previous line assignee s assertion).outlines = g.outlines ++
    [{ id := g.size, name := line.text, statement := some s, assignee, line := line.number,
       isFinal := s.isFinal }] := by
  rw [visit, outlines_markAssertion, outlines_fall, outlines_addStatement]

theorem size_visit : (g.visit previous line assignee s assertion).size = g.size + 1 := by
  rw [← length_outlines, outlines_visit, List.length_append, length_outlines, List.length_singleton]

theorem blocks_visit : (g.visit previous line assignee s assertion).blocks = g.blocks := by
  rw [visit, (markAssertion_frame _ _ _).2.1, blocks_fall]
  rfl

theorem definedBlocks_visit :
    (g.visit previous line assignee s assertion).definedBlocks = g.definedBlocks := by
  rw [visit, (markAssertion_frame _ _ _).2.2, definedBlocks_fall]
  rfl

theorem extends_visit : g.Extends (g.visit previous line assignee s assertion) where
  outlines := outlines_visit ▸ List.prefix_append _ _
  block label i hi := by
    rw [block?, blocks_visit]
    exact hi

theorem Rooted.visit (h : g.Rooted entry)
    (hprevious : ∀ before, previous = some before → before < g.size) :
    (g.visit previous line assignee s assertion).Rooted entry := by
  have hsize : (g.addStatement line.text s assignee line.number).2.size = g.size + 1 :=
    size_withNode g _
  have hadded := h.addStatement line.text s assignee line.number
  refine (hadded.fall (fun before hbefore => ?_) ?_).markAssertion g.size assertion
  · have hlt := hprevious before hbefore
    omega
  · omega

theorem WellFormed.mem_edges_visit (h : g.WellFormed) {edge : FlowEdge} :
    edge ∈ (g.visit previous line assignee s assertion).edges ↔
      edge ∈ g.edges ∨ ∃ before, previous = some before ∧ edge = ⟨before, g.size, none⟩ := by
  have hadded := h.addStatement line.text s assignee line.number
  rw [FlowGraph.visit, (markAssertion_frame _ _ _).1, hadded.mem_edges_fall]
  rfl

end Visit

end FlowGraph

end TestFocus
