import Mathlib.Data.List.Induction
import Mathlib.Data.List.Nodup
import TestFocus.CallGraph.Basic
import TestFocus.Proofs.Table

namespace TestFocus.CallGraph

section Members

variable {α : Type} [BEq α] [LawfulBEq α] {members : List α} {a b : α}

theorem mem_adjoin : b ∈ adjoin members a ↔ b ∈ members ∨ b = a := by
  unfold adjoin
  split
  · next h =>
    have ha : a ∈ members := by simpa using h
    constructor
    · exact .inl
    · rintro (hb | rfl)
      · exact hb
      · exact ha
  · simp

theorem adjoin_eraseDups (members : List α) (a : α) :
    adjoin members.eraseDups a = (members ++ [a]).eraseDups := by
  have hsingle : [a].eraseDups = [a] := by simp [List.eraseDups_cons]
  rw [List.eraseDups_append]
  unfold adjoin
  by_cases ha : a ∈ members
  · simp [ha, List.removeAll]
  · simp [ha, List.removeAll, hsingle]

theorem foldl_adjoin_eraseDups (members names : List α) :
    names.foldl adjoin members.eraseDups = (members ++ names).eraseDups := by
  induction names generalizing members with
  | nil => simp
  | cons name names ih =>
    rw [List.foldl_cons, adjoin_eraseDups, ih, List.append_assoc, List.singleton_append]

-- Members that are told apart by a part of them may be listed by that part.
theorem map_filter_eraseDups {β : Type} [BEq β] [LawfulBEq β] {p : α → Bool} {part : α → β}
    (hpart : ∀ a b, p a = true → p b = true → part a = part b → a = b) (members : List α) :
    (members.eraseDups.filter p).map part = ((members.filter p).map part).eraseDups := by
  induction members using List.reverseRecOn with
  | nil => rfl
  | append_singleton members a ih =>
    rw [← adjoin_eraseDups]
    cases ha : p a with
    | false =>
      have hsame : (adjoin members.eraseDups a).filter p = members.eraseDups.filter p := by
        unfold adjoin
        split
        · rfl
        · simp [List.filter_append, ha]
      simp [hsame, ih, List.filter_append, ha]
    | true =>
      have hmem : part a ∈ (members.filter p).map part ↔ a ∈ members := by
        rw [List.mem_map]
        constructor
        · rintro ⟨b, hb, hpart'⟩
          rw [List.mem_filter] at hb
          rw [← hpart b a hb.2 ha hpart']
          exact hb.1
        · intro hmem
          exact ⟨a, List.mem_filter.mpr ⟨hmem, ha⟩, rfl⟩
      have hadjoin : ((adjoin members.eraseDups a).filter p).map part =
          adjoin ((members.eraseDups.filter p).map part) (part a) := by
        rw [ih]
        unfold adjoin
        by_cases ha' : a ∈ members
        · simp [ha', hmem.mpr ha', ih]
        · simp [ha', mt hmem.mp ha', ih, ha]
      rw [hadjoin, ih, adjoin_eraseDups]
      simp [List.filter_append, ha]

end Members

section Representation

variable {G : Type} [DiGraph G] {g : CallGraph G} {name : String}

-- The index has the names of the nodes and no others, edges join nodes, and the neighbours of a
-- node are the far ends of its edges, the newest first.
structure WellFormed (g : CallGraph G) : Prop where
  index : ∀ name node, g.index.get? name = some node ↔ g.name? node = some name
  bounds : ∀ edge ∈ DiGraph.edges g.graph,
    edge.1 < g.functions.length ∧ edge.2 < g.functions.length
  neighbors : ∀ node direction, DiGraph.neighbors g.graph node direction =
    (((DiGraph.edges g.graph).filter (direction.near · == node)).map direction.far).reverse

theorem name?_lt {node : Nat} (h : g.name? node = some name) : node < g.functions.length :=
  (List.getElem?_eq_some_iff.mp h).1

theorem exists_name? {node : Nat} (h : node < g.functions.length) :
    ∃ name, g.name? node = some name :=
  ⟨_, List.getElem?_eq_getElem h⟩

theorem call?_eq_some_iff {edge : Nat × Nat} {call : String × String} :
    g.call? edge = some call ↔ g.name? edge.1 = some call.1 ∧ g.name? edge.2 = some call.2 := by
  obtain ⟨caller, callee⟩ := call
  simp [call?, Option.bind_eq_some_iff]

theorem mem_calls {call : String × String} :
    call ∈ g.calls ↔ ∃ edge ∈ DiGraph.edges g.graph,
      g.name? edge.1 = some call.1 ∧ g.name? edge.2 = some call.2 := by
  simp only [calls, List.mem_filterMap, call?_eq_some_iff]

namespace WellFormed

theorem contains_iff (h : g.WellFormed) : g.index.contains name = true ↔ name ∈ g.functions := by
  rw [Table.contains_iff, List.mem_iff_getElem?]
  exact exists_congr (h.index name)

-- An edge stands for one call only, and a call for one edge.
theorem mem_calls_iff (h : g.WellFormed) {source target : Nat} {caller callee : String}
    (hcaller : g.name? source = some caller) (hcallee : g.name? target = some callee) :
    (caller, callee) ∈ g.calls ↔ (source, target) ∈ DiGraph.edges g.graph := by
  rw [mem_calls]
  constructor
  · rintro ⟨⟨source', target'⟩, hedge, hcaller', hcallee'⟩
    have hsource : source' = source := Option.some_inj.mp
      (((h.index _ _).mpr hcaller').symm.trans ((h.index _ _).mpr hcaller))
    have htarget : target' = target := Option.some_inj.mp
      (((h.index _ _).mpr hcallee').symm.trans ((h.index _ _).mpr hcallee))
    rwa [← hsource, ← htarget]
  · exact fun hedge => ⟨(source, target), hedge, hcaller, hcallee⟩

-- The neighbours of a function in the order of the calls.
theorem neighbors_eq (h : g.WellFormed) (name : String) (direction : EdgeDirection) :
    g.neighbors name direction =
      (g.calls.filter (direction.near · == name)).map direction.far := by
  have hcall (edge : Nat × Nat) (hedge : edge ∈ DiGraph.edges g.graph) :
      ∃ call, g.call? edge = some call ∧ g.index.get? (direction.near call) =
        some (direction.near edge) ∧ g.name? (direction.far edge) = some (direction.far call) := by
    obtain ⟨hsource, htarget⟩ := h.bounds edge hedge
    obtain ⟨caller, hcaller⟩ := exists_name? hsource
    obtain ⟨callee, hcallee⟩ := exists_name? htarget
    refine ⟨(caller, callee), call?_eq_some_iff.mpr ⟨hcaller, hcallee⟩, ?_⟩
    cases direction
    · exact ⟨(h.index _ _).mpr hcaller, hcallee⟩
    · exact ⟨(h.index _ _).mpr hcallee, hcaller⟩
  rw [calls, List.filter_filterMap, List.map_filterMap, CallGraph.neighbors]
  cases hname : g.index.get? name with
  | none =>
    symm
    rw [List.filterMap_eq_nil_iff]
    intro edge hedge
    obtain ⟨call, hcall, hnear, -⟩ := hcall edge hedge
    have hne : direction.near call ≠ name := by
      rintro rfl
      rw [hname] at hnear
      cases hnear
    simp [hcall, hne]
  | some node =>
    simp only
    rw [h.neighbors, List.filterMap_reverse, List.reverse_reverse, List.filterMap_map,
      List.filterMap_filter]
    refine List.filterMap_congr fun edge hedge => ?_
    obtain ⟨call, hcall, hnear, hfar⟩ := hcall edge hedge
    by_cases hnode : direction.near edge = node
    · have hsame : direction.near call = name := by
        rw [h.index, hnode] at hnear
        rw [h.index, hnear] at hname
        exact Option.some_inj.mp hname
      simp [hcall, hnode, hsame, hfar, Option.filter]
    · have hne : direction.near call ≠ name := by
        rintro rfl
        rw [hname] at hnear
        exact hnode (Option.some_inj.mp hnear).symm
      simp [hcall, hnode, hne, Option.filter]

end WellFormed

end Representation

section Steps

variable {G : Type} [DiGraph G] [LawfulDiGraph G] {g : CallGraph G} {name : String}

theorem wellFormed_empty : (empty : CallGraph G).WellFormed where
  index name node := by
    have hname : (empty : CallGraph G).name? node = none := by
      simp [name?, functions, empty, LawfulDiGraph.weights_empty]
    have hindex : (empty : CallGraph G).index.get? name = none := rfl
    rw [hname, hindex]
    simp
  bounds edge hedge := by
    rw [empty, LawfulDiGraph.edges_empty] at hedge
    cases hedge
  neighbors node direction := by
    rw [empty, LawfulDiGraph.edges_empty, LawfulDiGraph.neighbors_empty]
    rfl

-- Getting the node of a function that is there changes nothing; a new function comes last.
theorem node_cases (g : CallGraph G) (name : String) :
    (∃ node, g.index.get? name = some node ∧ g.node name = (node, g)) ∨
      g.index.get? name = none ∧ g.node name = (g.functions.length,
        { g with graph := (DiGraph.addNode g.graph name).2
                 index := g.index.insert name g.functions.length }) := by
  have hnumber : (DiGraph.addNode g.graph name).1 = g.functions.length :=
    LawfulDiGraph.addNode_fst g.graph name
  unfold node
  cases hname : g.index.get? name with
  | some node => exact .inl ⟨node, rfl, rfl⟩
  | none =>
    rw [← hnumber]
    exact .inr ⟨rfl, rfl⟩

theorem WellFormed.functions_node (h : g.WellFormed) (name : String) :
    (g.node name).2.functions = adjoin g.functions name := by
  unfold adjoin
  obtain ⟨node, hname, heq⟩ | ⟨hname, heq⟩ := node_cases g name
  · have hmem : name ∈ g.functions := h.contains_iff.mp (Table.contains_iff.mpr ⟨node, hname⟩)
    rw [heq, if_pos (List.contains_iff_mem.mpr hmem)]
  · have hnew : name ∉ g.functions := by
      rw [← h.contains_iff, Bool.not_eq_true, Table.contains_eq_false_iff]
      exact hname
    rw [heq, if_neg (mt List.contains_iff_mem.mp hnew)]
    exact LawfulDiGraph.weights_addNode g.graph name

theorem edges_node (g : CallGraph G) (name : String) :
    DiGraph.edges (g.node name).2.graph = DiGraph.edges g.graph := by
  obtain ⟨node, -, heq⟩ | ⟨-, heq⟩ := node_cases g name
  · rw [heq]
  · rw [heq]
    exact LawfulDiGraph.edges_addNode g.graph name

theorem neighbors_node (g : CallGraph G) (name : String) :
    DiGraph.neighbors (g.node name).2.graph = DiGraph.neighbors g.graph := by
  obtain ⟨node, -, heq⟩ | ⟨-, heq⟩ := node_cases g name
  · rw [heq]
  · rw [heq]
    funext node direction
    exact LawfulDiGraph.neighbors_addNode g.graph name node direction

-- The nodes that are there keep their names.
theorem WellFormed.name?_of_lt (h : g.WellFormed) (name : String) {node : Nat}
    (hnode : node < g.functions.length) : (g.node name).2.name? node = g.name? node := by
  rw [name?, h.functions_node, adjoin]
  split
  · rfl
  · exact List.getElem?_append_left hnode

theorem WellFormed.name?_node (h : g.WellFormed) (name : String) :
    (g.node name).2.name? (g.node name).1 = some name := by
  obtain ⟨node, hname, heq⟩ | ⟨-, heq⟩ := node_cases g name
  · rw [heq]
    exact (h.index name node).mp hname
  · rw [heq]
    simp [name?, functions, LawfulDiGraph.weights_addNode]

theorem WellFormed.length_le_node (h : g.WellFormed) (name : String) :
    g.functions.length ≤ (g.node name).2.functions.length := by
  rw [h.functions_node, adjoin]
  split
  · exact Nat.le_refl _
  · simp

theorem getElem?_concat_eq_some_iff {names : List String} {node : Nat} {other : String} :
    (names ++ [name])[node]? = some other ↔
      names[node]? = some other ∨ node = names.length ∧ other = name := by
  rcases Nat.lt_trichotomy node names.length with hlt | rfl | hgt
  · rw [List.getElem?_append_left hlt]
    simp [Nat.ne_of_lt hlt]
  · simp [eq_comm]
  · rw [List.getElem?_eq_none (by simp; omega), List.getElem?_eq_none (by omega)]
    simp [Nat.ne_of_gt hgt]

theorem WellFormed.node (h : g.WellFormed) (name : String) : (g.node name).2.WellFormed where
  index other node := by
    obtain ⟨_, -, heq⟩ | ⟨hname, heq⟩ := node_cases g name
    · rw [heq]
      exact h.index other node
    · have hfunctions : (g.node name).2.functions = g.functions ++ [name] := by
        rw [heq]
        exact LawfulDiGraph.weights_addNode g.graph name
      have hindex : (g.node name).2.index = g.index.insert name g.functions.length := by rw [heq]
      have hnew : g.functions[node]? ≠ some name := by
        intro hnode
        rw [(h.index name node).mpr hnode] at hname
        cases hname
      rw [name?, hfunctions, hindex, Table.get?_insert, getElem?_concat_eq_some_iff]
      split
      · next hother => simp [hother, hnew, eq_comm]
      · next hother => simp [hother, h.index, name?]
  bounds edge hedge := by
    rw [edges_node] at hedge
    obtain ⟨hsource, htarget⟩ := h.bounds edge hedge
    have hle := h.length_le_node name
    exact ⟨by omega, by omega⟩
  neighbors := by
    rw [neighbors_node, edges_node]
    exact h.neighbors

theorem WellFormed.calls_node (h : g.WellFormed) (name : String) :
    (g.node name).2.calls = g.calls := by
  rw [calls, edges_node]
  refine List.filterMap_congr fun edge hedge => ?_
  obtain ⟨hsource, htarget⟩ := h.bounds edge hedge
  rw [call?, call?, h.name?_of_lt name hsource, h.name?_of_lt name htarget]

-- An edge between two nodes.
theorem WellFormed.updateEdge (h : g.WellFormed) {source target : Nat}
    (hsource : source < g.functions.length) (htarget : target < g.functions.length) :
    WellFormed { g with graph := DiGraph.updateEdge g.graph source target } where
  index := by
    intro name node
    rw [name?, functions, LawfulDiGraph.weights_updateEdge _ hsource htarget]
    exact h.index name node
  bounds edge hedge := by
    rw [functions, LawfulDiGraph.weights_updateEdge _ hsource htarget]
    rw [LawfulDiGraph.edges_updateEdge _ hsource htarget] at hedge
    split at hedge
    · exact h.bounds edge hedge
    · rcases List.mem_append.mp hedge with hold | hnew
      · exact h.bounds edge hold
      · cases List.mem_singleton.mp hnew
        exact ⟨hsource, htarget⟩
  neighbors node direction := by
    rw [LawfulDiGraph.neighbors_updateEdge _ hsource htarget,
      LawfulDiGraph.edges_updateEdge _ hsource htarget, h.neighbors]
    by_cases hmem : (source, target) ∈ DiGraph.edges g.graph
    · simp [hmem]
    · by_cases hnode : direction.near (source, target) = node
      · simp [hmem, hnode, List.filter_append]
      · simp [hmem, hnode, List.filter_append]

theorem WellFormed.calls_updateEdge (h : g.WellFormed) {source target : Nat}
    {caller callee : String} (hcaller : g.name? source = some caller)
    (hcallee : g.name? target = some callee) :
    CallGraph.calls { g with graph := DiGraph.updateEdge g.graph source target } =
      adjoin g.calls (caller, callee) := by
  have hsource := name?_lt hcaller
  have htarget := name?_lt hcallee
  have hfunctions : DiGraph.weights (DiGraph.updateEdge g.graph source target) = g.functions :=
    LawfulDiGraph.weights_updateEdge _ hsource htarget
  have hcall : CallGraph.call? { g with graph := DiGraph.updateEdge g.graph source target } =
      g.call? := by
    funext edge
    simp only [call?, name?, functions, hfunctions]
  have hmem : (caller, callee) ∈ g.calls ↔ (source, target) ∈ DiGraph.edges g.graph :=
    h.mem_calls_iff hcaller hcallee
  rw [calls, hcall, LawfulDiGraph.edges_updateEdge _ hsource htarget, adjoin]
  by_cases hedge : (source, target) ∈ DiGraph.edges g.graph
  · rw [if_pos hedge, if_pos (List.contains_iff_mem.mpr (hmem.mpr hedge))]
    rfl
  · have hlast : g.call? (source, target) = some (caller, callee) :=
      call?_eq_some_iff.mpr ⟨hcaller, hcallee⟩
    rw [if_neg hedge, if_neg (mt List.contains_iff_mem.mp (mt hmem.mp hedge)),
      List.filterMap_append]
    simp [calls, hlast]

theorem WellFormed.markTest (h : g.WellFormed) (name : String) : (g.markTest name).WellFormed :=
  { h.node name with }

theorem WellFormed.markStart (h : g.WellFormed) (name : String) : (g.markStart name).WellFormed :=
  { h.node name with }

theorem WellFormed.calls_markTest (h : g.WellFormed) (name : String) :
    (g.markTest name).calls = g.calls :=
  h.calls_node name

-- A call adds its two functions and then the edge between them.
theorem WellFormed.addCall (h : g.WellFormed) (caller callee : String) :
    (g.addCall caller callee).WellFormed ∧
      (g.addCall caller callee).functions = adjoin (adjoin g.functions caller) callee ∧
      (g.addCall caller callee).calls = adjoin g.calls (caller, callee) := by
  have hboth := (h.node caller).node callee
  have hcaller : ((g.node caller).2.node callee).2.name? (g.node caller).1 = some caller := by
    have hname := h.name?_node caller
    rwa [(h.node caller).name?_of_lt callee (name?_lt hname)]
  have hcallee := (h.node caller).name?_node callee
  refine ⟨hboth.updateEdge (name?_lt hcaller) (name?_lt hcallee), ?_, ?_⟩
  · rw [← h.functions_node, ← (h.node caller).functions_node]
    exact LawfulDiGraph.weights_updateEdge _ (name?_lt hcaller) (name?_lt hcallee)
  · rw [← h.calls_node caller, ← (h.node caller).calls_node callee]
    exact hboth.calls_updateEdge hcaller hcallee

end Steps

-- The ways in which a call graph grows.
inductive Operation where
  | addFunction (name : String)
  | addCall (caller callee : String)
  | markTest (name : String)
  | markStart (name : String)
deriving DecidableEq

section Operations

variable {G : Type} [DiGraph G]

namespace Operation

def apply (g : CallGraph G) : Operation → CallGraph G
  | addFunction name => g.addFunction name
  | addCall caller callee => g.addCall caller callee
  | markTest name => g.markTest name
  | markStart name => g.markStart name

def mentions : Operation → List String
  | addFunction name | markTest name | markStart name => [name]
  | addCall caller callee => [caller, callee]

def call? : Operation → Option (String × String)
  | addCall caller callee => some (caller, callee)
  | _ => none

end Operation

def applyAll (g : CallGraph G) (ops : List Operation) : CallGraph G :=
  ops.foldl Operation.apply g

-- The functions that the operations mention, in order, as often as they are mentioned.
def mentionsIn (ops : List Operation) : List String :=
  ops.flatMap Operation.mentions

def callsIn (ops : List Operation) : List (String × String) :=
  ops.filterMap Operation.call?

theorem applyAll_concat (g : CallGraph G) (ops : List Operation) (op : Operation) :
    g.applyAll (ops ++ [op]) = op.apply (g.applyAll ops) := by
  simp [applyAll]

variable [LawfulDiGraph G] {g : CallGraph G}

theorem WellFormed.apply (h : g.WellFormed) (op : Operation) :
    (op.apply g).WellFormed ∧
      (op.apply g).functions = op.mentions.foldl adjoin g.functions ∧
      (op.apply g).calls = op.call?.toList.foldl adjoin g.calls := by
  cases op with
  | addCall caller callee => exact h.addCall caller callee
  | addFunction name => exact ⟨h.node name, h.functions_node name, h.calls_node name⟩
  | markTest name => exact ⟨h.markTest name, h.functions_node name, h.calls_markTest name⟩
  | markStart name => exact ⟨h.markStart name, h.functions_node name, h.calls_node name⟩

theorem wellFormed_applyAll (ops : List Operation) :
    (empty.applyAll ops : CallGraph G).WellFormed := by
  induction ops using List.reverseRecOn with
  | nil => exact wellFormed_empty
  | append_singleton ops op ih =>
    rw [applyAll_concat]
    exact (ih.apply op).1

theorem functions_applyAll (ops : List Operation) :
    (empty.applyAll ops : CallGraph G).functions = (mentionsIn ops).eraseDups := by
  induction ops using List.reverseRecOn with
  | nil => exact LawfulDiGraph.weights_empty
  | append_singleton ops op ih =>
    have hmentions : mentionsIn (ops ++ [op]) = mentionsIn ops ++ op.mentions := by
      simp [mentionsIn]
    rw [applyAll_concat, ((wellFormed_applyAll ops).apply op).2.1, ih, foldl_adjoin_eraseDups,
      hmentions]

theorem calls_applyAll (ops : List Operation) :
    (empty.applyAll ops : CallGraph G).calls = (callsIn ops).eraseDups := by
  induction ops using List.reverseRecOn with
  | nil =>
    have hnone : DiGraph.edges (DiGraph.empty : G) = [] := LawfulDiGraph.edges_empty
    simp [applyAll, calls, callsIn, empty, hnone]
  | append_singleton ops op ih =>
    have hcalls : callsIn (ops ++ [op]) = callsIn ops ++ op.call?.toList := by
      cases op <;> simp [callsIn, Operation.call?, List.filterMap]
    rw [applyAll_concat, ((wellFormed_applyAll ops).apply op).2.2, ih, foldl_adjoin_eraseDups,
      hcalls]

-- The other ends of a function's calls are told apart by their names.
theorem neighbors_applyAll (ops : List Operation) (name : String) (direction : EdgeDirection) :
    (empty.applyAll ops : CallGraph G).neighbors name direction =
      (((callsIn ops).filter (direction.near · == name)).map direction.far).eraseDups := by
  rw [(wellFormed_applyAll ops).neighbors_eq, calls_applyAll]
  apply map_filter_eraseDups
  intro call call' hnear hnear' hfar
  have hsame : direction.near call = direction.near call' :=
    (eq_of_beq hnear).trans (eq_of_beq hnear').symm
  cases direction
  · exact Prod.ext hsame hfar
  · exact Prod.ext hfar hsame

end Operations

end TestFocus.CallGraph
