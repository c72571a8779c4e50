import TestFocus.Instruction
import TestFocus.Module.Source
import TestFocus.Proofs.FlowGraph.Steps

-- Flow graphs as pictures of a body. The stops of a body are its entry, its label lines and its
-- statements; a graph depicts them when each has its node, when the other nodes are those of
-- labels that are only jumped to, and when the edges are the ways from one stop to the next and
-- along the jumps.

namespace TestFocus

-- What control comes to on its way through a body.
inductive Stop where
  | entry
  | label (label : String)
  | statement (line : SourceLine) (assignee : Option String) (statement : Statement)
deriving Repr, DecidableEq

namespace Stop

-- A line that cannot be read, or that holds no statement, is passed over.
def ofLine? : LogicalLine → Option Stop
  | .label name => some (.label name)
  | .instruction line =>
    match Instruction.parse line.text with
    | .ok { assignee, statement := some s, .. } => some (.statement line assignee s)
    | _ => none

def statement? : Stop → Option Statement
  | statement _ _ s => some s
  | _ => none

def isTerminator (stop : Stop) : Bool :=
  stop.statement?.any (·.isTerminator)

-- The labels jumped to, each with the label of the edge.
def jumps (stop : Stop) : List (String × Option String) :=
  stop.statement?.toList.flatMap fun s =>
    s.successors.map fun jump => (Operand.labelRegister jump.1, jump.2)

theorem ofLine?_ne_entry {line : LogicalLine} {stop : Stop} (h : ofLine? line = some stop) :
    stop ≠ entry := by
  cases line with
  | label name =>
    cases h
    simp
  | instruction line =>
    simp only [ofLine?] at h
    split at h
    · cases h
      simp
    · cases h

end Stop

-- The entry and the lines of a body that have nodes.
def stops (source : FunctionSource) : List Stop :=
  .entry :: (logicalLines source.body).filterMap Stop.ofLine?

abbrev Places :=
  List (Nat × Stop)

namespace Places

def Defines (places : Places) (label : String) : Prop :=
  ∃ id, (id, Stop.label label) ∈ places

def JumpsTo (places : Places) (label : String) : Prop :=
  ∃ place ∈ places, ∃ jump ∈ place.2.jumps, jump.1 = label

-- The edge leads from one place to the next, and the first one is no terminator.
def FallsThrough (places : Places) (edge : FlowEdge) : Prop :=
  ∃ k before after, places[k]? = some before ∧ places[k + 1]? = some after ∧
    before.2.isTerminator = false ∧ edge = ⟨before.1, after.1, none⟩

-- The edge leads from a place to a label that it jumps to.
def Jumps (places : Places) (g : FlowGraph) (edge : FlowEdge) : Prop :=
  ∃ place ∈ places, ∃ jump ∈ place.2.jumps,
    edge.source = place.1 ∧ g.block? jump.1 = some edge.target ∧ edge.label = jump.2

-- The node from which control falls through to what follows.
def exit? (places : Places) : Option Nat :=
  places.getLast?.bind fun place => if place.2.isTerminator then none else some place.1

variable {places : Places} {place : Nat × Stop}

theorem defines_snoc {label : String} : Defines (places ++ [place]) label ↔
    places.Defines label ∨ place.2 = .label label := by
  simp only [Defines, List.mem_append, List.mem_singleton, exists_or]
  refine or_congr_right ⟨?_, fun h => ⟨place.1, by rw [← h]⟩⟩
  rintro ⟨id, rfl⟩
  rfl

theorem jumpsTo_snoc {label : String} : JumpsTo (places ++ [place]) label ↔
    places.JumpsTo label ∨ ∃ jump ∈ place.2.jumps, jump.1 = label := by
  simp only [JumpsTo, List.mem_append, List.mem_singleton, or_and_right, exists_or, exists_eq_left]

theorem jumps_snoc {g : FlowGraph} {edge : FlowEdge} : Jumps (places ++ [place]) g edge ↔
    places.Jumps g edge ∨ ∃ jump ∈ place.2.jumps,
      edge.source = place.1 ∧ g.block? jump.1 = some edge.target ∧ edge.label = jump.2 := by
  simp only [Jumps, List.mem_append, List.mem_singleton, or_and_right, exists_or, exists_eq_left]

-- What is jumped to can be looked up in any graph that has the same nodes for it.
theorem jumps_congr {g g' : FlowGraph} {edge : FlowEdge}
    (h : ∀ label, places.JumpsTo label → g'.block? label = g.block? label) :
    places.Jumps g' edge ↔ places.Jumps g edge := by
  simp only [Jumps]
  refine exists_congr fun place => and_congr_right fun hplace => exists_congr fun jump =>
    and_congr_right fun hjump => ?_
  rw [h jump.1 ⟨place, hplace, jump, hjump, rfl⟩]

theorem fallsThrough_snoc {edge : FlowEdge} : FallsThrough (places ++ [place]) edge ↔
    places.FallsThrough edge ∨
      ∃ previous, places.exit? = some previous ∧ edge = ⟨previous, place.1, none⟩ := by
  constructor
  · rintro ⟨k, before, after, hbefore, hafter, hends, rfl⟩
    have hlt : k + 1 < (places ++ [place]).length := (List.getElem?_eq_some_iff.mp hafter).1
    rw [List.length_append, List.length_singleton] at hlt
    rw [List.getElem?_append_left (by omega)] at hbefore
    by_cases hk : k + 1 < places.length
    · rw [List.getElem?_append_left hk] at hafter
      exact .inl ⟨k, before, after, hbefore, hafter, hends, rfl⟩
    · have hk : k + 1 = places.length := by omega
      have hlast : places.getLast? = some before := by
        rw [List.getLast?_eq_getElem?, ← hk]
        exact hbefore
      rw [hk, List.getElem?_concat_length] at hafter
      cases hafter
      exact .inr ⟨before.1, by simp [exit?, hlast, hends], rfl⟩
  · rintro (⟨k, before, after, hbefore, hafter, hends, rfl⟩ | ⟨previous, hexit, rfl⟩)
    · have hlt : k + 1 < places.length := (List.getElem?_eq_some_iff.mp hafter).1
      refine ⟨k, before, after, ?_, ?_, hends, rfl⟩
      · rw [List.getElem?_append_left (by omega), hbefore]
      · rw [List.getElem?_append_left hlt, hafter]
    · obtain ⟨before, hlast, hbefore⟩ := Option.bind_eq_some_iff.mp hexit
      split at hbefore
      · cases hbefore
      · next hends =>
        cases hbefore
        have hpos : 0 < places.length := by
          cases places with
          | nil => cases hlast
          | cons => simp
        rw [List.getLast?_eq_getElem?] at hlast
        refine ⟨places.length - 1, before, place, ?_, ?_, by simpa using hends, rfl⟩
        · rw [List.getElem?_append_left (by omega), hlast]
        · rw [Nat.sub_add_cancel hpos, List.getElem?_concat_length]

theorem exit?_snoc (places : Places) (place : Nat × Stop) :
    exit? (places ++ [place]) = if place.2.isTerminator then none else some place.1 := by
  rw [exit?, List.getLast?_concat, Option.bind_some]

end Places
theorem FlowGraph.Extends.node? {g g' : FlowGraph} (h : g.Extends g') {i : Nat} {n : FlowNode}
    (hn : g.node? i = some n) : ∃ n', g'.node? i = some n' ∧ n'.outline = n.outline := by
  obtain ⟨more, hmore⟩ := h.outlines
  have hi : i < g.outlines.length := by
    rw [length_outlines]
    exact lt_size_of_node? hn
  have hn' : g'.outlines[i]? = some n.outline := by
    rw [← hmore, List.getElem?_append_left hi, getElem?_outlines, hn, Option.map_some]
  rw [getElem?_outlines] at hn'
  exact Option.map_eq_some_iff.mp hn'

namespace Stop

-- The node is the one of the stop; that of a label may have been added by a jump.
def StandsAt (g : FlowGraph) (id : Nat) : Stop → Prop
  | .entry => ∃ n, g.node? id = some n ∧ n.isStart = true ∧ n.statement = none
  | .label name => g.block? name = some id
  | .statement line assignee s => ∃ n, g.node? id = some n ∧ n.outline =
      { id, name := line.text, statement := some s, assignee, line := line.number,
        isFinal := s.isFinal }

variable {g g' : FlowGraph} {stop : Stop} {id : Nat}

theorem StandsAt.mono (h : stop.StandsAt g id) (hext : g.Extends g') : stop.StandsAt g' id := by
  cases stop with
  | entry =>
    obtain ⟨n, hn, hstart, hstatement⟩ := h
    obtain ⟨n', hn', houtline⟩ := hext.node? hn
    have hstart' : n'.isStart = n.isStart := congrArg (·.isStart) houtline
    have hstatement' : n'.statement = n.statement := congrArg (·.statement) houtline
    exact ⟨n', hn', hstart'.trans hstart, hstatement'.trans hstatement⟩
  | label name => exact hext.block name id h
  | statement line assignee s =>
    obtain ⟨n, hn, hline⟩ := h
    obtain ⟨n', hn', houtline⟩ := hext.node? hn
    exact ⟨n', hn', houtline.trans hline⟩

theorem StandsAt.lt (h : stop.StandsAt g id) (hg : g.WellFormed) : id < g.size := by
  cases stop with
  | entry =>
    obtain ⟨n, hn, -⟩ := h
    exact FlowGraph.lt_size_of_node? hn
  | label name => exact hg.block_lt h
  | statement line assignee s =>
    obtain ⟨n, hn, -⟩ := h
    exact FlowGraph.lt_size_of_node? hn

-- The node of a stop holds the statement of the stop, if it is one.
theorem StandsAt.statement?_eq (h : stop.StandsAt g id) (hg : g.WellFormed) :
    g.statement? id = stop.statement? := by
  rw [FlowGraph.statement?]
  cases stop with
  | entry =>
    obtain ⟨n, hn, -, hstatement⟩ := h
    rw [hn]
    exact hstatement
  | label name =>
    obtain ⟨n, hn, hstatement, -⟩ := hg.block name id h
    rw [hn]
    exact hstatement
  | statement line assignee s =>
    obtain ⟨n, hn, hline⟩ := h
    rw [hn]
    exact congrArg FlowNode.statement hline

end Stop

namespace FlowGraph

structure Depicts (g : FlowGraph) (entry : Nat) (places : Places) : Prop
    extends g.Rooted entry where
  stands : ∀ place ∈ places, place.2.StandsAt g place.1
  statements : g.statements =
    places.filterMap fun place => place.2.statement?.map fun s => (place.1, s)
  names : ∀ label, label ∈ g.blocks.keys ↔ places.Defines label ∨ places.JumpsTo label
  defined : ∀ label, label ∈ g.definedBlocks ↔ places.Defines label
  edges : ∀ edge, edge ∈ g.edges ↔ places.FallsThrough edge ∨ places.Jumps g edge

-- What one more place adds to a graph.
structure Adds (g g' : FlowGraph) (previous : Option Nat) (place : Nat × Stop) : Prop where
  stands : place.2.StandsAt g' place.1
  statements : g'.statements =
    g.statements ++ (place.2.statement?.map fun s => (place.1, s)).toList
  labels : ∀ label, label ∈ g'.blocks.keys ↔ label ∈ g.blocks.keys ∨ place.2 = .label label ∨
    ∃ jump ∈ place.2.jumps, jump.1 = label
  defined : ∀ label, label ∈ g'.definedBlocks ↔ label ∈ g.definedBlocks ∨ place.2 = .label label
  edges : ∀ edge, edge ∈ g'.edges ↔ edge ∈ g.edges ∨
    (∃ before, previous = some before ∧ edge = ⟨before, place.1, none⟩) ∨
    ∃ jump ∈ place.2.jumps,
      edge.source = place.1 ∧ g'.block? jump.1 = some edge.target ∧ edge.label = jump.2

variable {g g' : FlowGraph} {entry : Nat} {places : Places} {place : Nat × Stop}

theorem Depicts.exit_lt (h : g.Depicts entry places) {before : Nat}
    (hexit : places.exit? = some before) : before < g.size := by
  obtain ⟨place, hlast, hplace⟩ := Option.bind_eq_some_iff.mp hexit
  split at hplace
  · cases hplace
  · cases hplace
    exact (h.stands place (List.mem_of_getLast? hlast)).lt h.toWellFormed

theorem Depicts.snoc (h : g.Depicts entry places) (hrooted : g'.Rooted entry)
    (hext : g.Extends g') (hadds : g.Adds g' places.exit? place) :
    g'.Depicts entry (places ++ [place]) := by
  constructor
  case toRooted => exact hrooted
  case stands =>
    intro other hother
    rcases List.mem_append.mp hother with hother | hother
    · exact (h.stands other hother).mono hext
    · rw [List.mem_singleton.mp hother]
      exact hadds.stands
  case statements =>
    rw [hadds.statements, h.statements, List.filterMap_append]
    cases hstatement : place.2.statement? <;> simp [hstatement]
  case names =>
    intro label
    rw [hadds.labels, h.names, Places.defines_snoc, Places.jumpsTo_snoc]
    exact or_or_or_comm
  case defined =>
    intro label
    rw [hadds.defined, h.defined, Places.defines_snoc]
  case edges =>
    intro edge
    -- the labels that are jumped to have their nodes already
    have hold : places.Jumps g' edge ↔ places.Jumps g edge := by
      apply Places.jumps_congr
      intro label hlabel
      obtain ⟨i, hi⟩ := mem_keys_iff_block?.mp ((h.names label).mpr (.inr hlabel))
      rw [hi, hext.block label i hi]
    rw [hadds.edges, h.edges, Places.fallsThrough_snoc, Places.jumps_snoc, hold]
    exact or_or_or_comm

-- A label line: its node is there, or is added, and control may fall through into it.
theorem Depicts.defineBlock (h : g.Depicts entry places) (label : String) :
    ((g.defineBlock label).2.fall places.exit? (g.defineBlock label).1).Depicts entry
      (places ++ [((g.defineBlock label).1, .label label)]) := by
  have hrooted := h.toRooted.defineBlock label
  have hext := extends_defineBlock g label
  have hlabel : (g.defineBlock label).2.block? label = some (g.defineBlock label).1 := by
    rw [block?_defineBlock, if_pos rfl]
  have hsize : g.size ≤ (g.defineBlock label).2.size := by
    rw [← length_outlines, ← length_outlines]
    exact hext.outlines.length_le
  have hexit (before : Nat) (hbefore : places.exit? = some before) :
      before < (g.defineBlock label).2.size := (h.exit_lt hbefore).trans_le hsize
  have hfall := hrooted.fall hexit (hrooted.toWellFormed.block_lt hlabel)
  have hextends := hext.trans (extends_fall _ places.exit? (g.defineBlock label).1)
  refine h.snoc hfall hextends ?_
  constructor
  case stands => exact (extends_fall _ _ _).block label _ hlabel
  case statements =>
    rw [statements_eq, statements_eq, outlines_fall, outlines_defineBlock, List.filterMap_append]
    split <;> simp [Stop.statement?]
  case labels =>
    intro other
    rw [blocks_fall, mem_keys_defineBlock]
    simp [Stop.jumps, Stop.statement?, eq_comm]
  case defined =>
    intro other
    rw [definedBlocks_fall, mem_definedBlocks_defineBlock]
    simp [eq_comm]
  case edges =>
    intro edge
    rw [hrooted.toWellFormed.mem_edges_fall, edges_defineBlock]
    simp [Stop.jumps, Stop.statement?]

section Visit

variable {previous : Option Nat} {line : SourceLine} {assignee : Option String} {s : Statement}
  {assertion : Bool}

theorem standsAt_visit :
    (Stop.statement line assignee s).StandsAt (g.visit previous line assignee s assertion)
      g.size := by
  have hnode : (g.visit previous line assignee s assertion).outlines[g.size]? = some
      { id := g.size, name := line.text, statement := some s, assignee, line := line.number,
        isFinal := s.isFinal } := by
    rw [outlines_visit, ← length_outlines, List.getElem?_concat_length]
  rw [getElem?_outlines] at hnode
  obtain ⟨n, hn, hline⟩ := Option.map_eq_some_iff.mp hnode
  exact ⟨n, hn, hline⟩

-- A statement: its node is new, control may fall through into it, and it may jump.
theorem Depicts.addStatement (h : g.Depicts entry places) (line : SourceLine)
    (assignee : Option String) (s : Statement) (assertion : Bool) :
    ((g.visit places.exit? line assignee s assertion).addJumps g.size
      (Stop.statement line assignee s).jumps).Depicts entry
        (places ++ [(g.size, .statement line assignee s)]) := by
  have hvisit : (g.visit places.exit? line assignee s assertion).Rooted entry :=
    h.toRooted.visit fun _ => h.exit_lt
  have hlt : g.size < (g.visit places.exit? line assignee s assertion).size := by
    rw [size_visit]
    exact Nat.lt_succ_self _
  have hjumps := extends_addJumps (g.visit places.exit? line assignee s assertion) g.size
    (Stop.statement line assignee s).jumps
  refine h.snoc (hvisit.addJumps hlt _) (extends_visit.trans hjumps) ?_
  constructor
  case stands => exact standsAt_visit.mono hjumps
  case statements =>
    rw [statements_addJumps, statements_eq, outlines_visit, List.filterMap_append, ← statements_eq]
    rfl
  case labels =>
    intro label
    rw [mem_keys_addJumps, blocks_visit]
    simp
  case defined =>
    intro label
    rw [definedBlocks_addJumps, definedBlocks_visit]
    simp
  case edges =>
    intro edge
    rw [hvisit.mem_edges_addJumps hlt, h.toWellFormed.mem_edges_visit, or_assoc]

end Visit

section Consequences

variable {g : FlowGraph} {entry : Nat} {places : Places}

theorem Depicts.statement?_eq (h : g.Depicts entry places) {place : Nat × Stop}
    (hplace : place ∈ places) : g.statement? place.1 = place.2.statement? :=
  (h.stands place hplace).statement?_eq h.toWellFormed

theorem Depicts.statement?_block (h : g.Depicts entry places) {label : String} {i : Nat}
    (hi : g.block? label = some i) : g.statement? i = none := by
  obtain ⟨n, hn, hstatement, -⟩ := h.block label i hi
  rw [statement?, hn]
  exact hstatement

-- A statement has its place once.
theorem Depicts.index_unique (h : g.Depicts entry places) {k k' : Nat} {place place' : Nat × Stop}
    (hk : places[k]? = some place) (hk' : places[k']? = some place') {s : Statement}
    (hs : g.statement? place.1 = some s) (hid : place.1 = place'.1) : k = k' := by
  have hpairwise := h.toWellFormed.pairwise_statements
  rw [h.statements, List.pairwise_filterMap, List.pairwise_iff_getElem] at hpairwise
  have hplace := h.statement?_eq (List.mem_of_getElem? hk)
  have hplace' := h.statement?_eq (List.mem_of_getElem? hk')
  rw [hs] at hplace
  rw [← hid, hs] at hplace'
  obtain ⟨hlt, rfl⟩ := List.getElem?_eq_some_iff.mp hk
  obtain ⟨hlt', rfl⟩ := List.getElem?_eq_some_iff.mp hk'
  rcases Nat.lt_trichotomy k k' with hkk | hkk | hkk
  · have hids := hpairwise k k' hlt hlt' hkk (places[k].1, s) (by rw [← hplace]; rfl)
      (places[k'].1, s) (by rw [← hplace']; rfl)
    exact absurd hid hids.ne
  · exact hkk
  · have hids := hpairwise k' k hlt' hlt hkk (places[k'].1, s) (by rw [← hplace']; rfl)
      (places[k].1, s) (by rw [← hplace]; rfl)
    exact absurd hid.symm hids.ne

-- Into a statement control only falls through, and only from the place before it.
theorem Depicts.length_predecessors_le (h : g.Depicts entry places) {i : Nat} {s : Statement}
    (hs : g.statement? i = some s) : (g.predecessors i).length ≤ 1 := by
  have hfalls (edge : FlowEdge) (hedge : edge ∈ g.edges) (htarget : edge.target = i) :
      places.FallsThrough edge := by
    rcases (h.edges edge).mp hedge with hfall | ⟨place, -, jump, -, -, hblock, -⟩
    · exact hfall
    · rw [htarget] at hblock
      rw [h.statement?_block hblock] at hs
      cases hs
  apply h.toWellFormed.length_predecessors_le_one
  intro edge hedge edge' hedge' htarget htarget'
  obtain ⟨k, before, after, hbefore, hafter, -, rfl⟩ := hfalls edge hedge htarget
  obtain ⟨k', before', after', hbefore', hafter', -, rfl⟩ := hfalls edge' hedge' htarget'
  have htargets : after.1 = after'.1 := htarget.trans htarget'.symm
  have hindex : k + 1 = k' + 1 := h.index_unique hafter hafter' (htarget ▸ hs) htargets
  have hk : k = k' := by omega
  rw [hk, hbefore'] at hbefore
  cases hbefore
  rw [htargets]

theorem Depicts.predecessors_entry (h : g.Depicts entry places)
    (hhead : (entry, Stop.entry) ∈ places) (htail : ∀ place ∈ places.tail, place.2 ≠ .entry) :
    g.predecessors entry = [] := by
  rw [List.eq_nil_iff_forall_not_mem]
  intro source hsource
  obtain ⟨edge, hedge, -, htarget⟩ := h.toWellFormed.mem_predecessors.mp hsource
  rcases (h.edges edge).mp hedge with ⟨k, before, after, -, hafter, -, rfl⟩ |
      ⟨place, -, jump, -, -, hblock, -⟩
  · have hmem := List.mem_of_getElem? hafter
    have hstatement := (h.statement?_eq hhead).symm
    have hstands := h.stands after hmem
    have hother : after ∈ places.tail := by
      rw [← List.drop_one]
      exact List.mem_of_getElem? (i := k) (by rw [List.getElem?_drop, Nat.add_comm, hafter])
    have hne := htail after hother
    have hid : after.1 = entry := htarget
    rw [hid] at hstands
    -- the place is no statement, since the entry is none, and the node of a label is another one
    cases hstop : after.2 with
    | entry => exact hne hstop
    | label name =>
      rw [hstop] at hstands
      exact h.apart name hstands
    | statement line assignee s =>
      rw [hstop] at hstands
      rw [hstands.statement?_eq h.toWellFormed] at hstatement
      cases hstatement
  · rw [htarget] at hblock
    exact h.apart _ hblock

-- From a terminator control only jumps.
theorem Depicts.successors_terminator (h : g.Depicts entry places) {i target : Nat} {s : Statement}
    (hs : g.statement? i = some s) (hends : s.isTerminator = true)
    (htarget : target ∈ g.successors i) : ∃ label, g.block? label = some target := by
  obtain ⟨edge, hedge, hsource, rfl⟩ := h.toWellFormed.mem_successors.mp htarget
  rcases (h.edges edge).mp hedge with ⟨k, before, after, hbefore, -, hgoes, rfl⟩ |
      ⟨place, -, jump, -, -, hblock, -⟩
  · have hplace := h.statement?_eq (List.mem_of_getElem? hbefore)
    have hid : before.1 = i := hsource
    rw [hid, hs] at hplace
    rw [Stop.isTerminator, ← hplace, Option.any_some, hends] at hgoes
    cases hgoes
  · exact ⟨jump.1, hblock⟩

theorem Depicts.mem_undefinedBlocks_iff (h : g.Depicts entry places) {label : String} :
    label ∈ g.undefinedBlocks ↔ places.JumpsTo label ∧ ¬ places.Defines label := by
  rw [mem_undefinedBlocks, h.names, h.defined, or_and_right, and_not_self_iff, false_or]

end Consequences

end FlowGraph

end TestFocus
