import Mathlib.Data.Finset.Prod
import Mathlib.Data.Fintype.Basic
import TestFocus.Proofs.Mutation.AliasSteps
import TestFocus.Proofs.Trace.StepCases
import TestFocus.Trace.Search

namespace TestFocus

section TrackedName

theorem Operand.isRegister_globalAfterAt {cs : List Char} {name : String}
    (h : globalAfterAt cs = some name) : isRegister name = true := by
  unfold globalAfterAt at h
  split at h
  · obtain ⟨split, -, rfl⟩ := Option.map_eq_some_iff.mp h
    simp [isRegister]
  · dsimp only at h
    split at h
    · cases h
    · next hname =>
      cases h
      obtain ⟨c, rest, hrest⟩ := List.exists_cons_of_ne_nil (mt List.isEmpty_iff.mpr hname)
      simp [isRegister, hrest]

theorem Operand.isRegister_firstGlobal {inQuotes : Bool} {cs : List Char} {name : String}
    (h : firstGlobal inQuotes cs = some name) : isRegister name = true := by
  induction cs generalizing inQuotes with
  | nil => cases h
  | cons c cs ih =>
    simp only [firstGlobal] at h
    split at h
    · exact ih h
    · split at h
      · split at h
        · next hglobal =>
          cases h
          exact isRegister_globalAfterAt hglobal
        · exact ih h
      · exact ih h

-- A name that is followed is followed under itself.
theorem Operand.trackedName_of_trackedName {value name : String}
    (h : trackedName value = some name) : trackedName name = some name := by
  have hregister : isRegister name = true := by
    unfold trackedName at h
    split at h
    · next hvalue =>
      cases h
      exact hvalue
    · split at h
      · cases h
      · exact isRegister_firstGlobal h
  simp [trackedName, hregister]

end TrackedName

namespace Trace

section Counting

variable (b : Body)

-- The operands of the statements, as they are written.
def operands : List String :=
  b.graph.statements.flatMap fun (_, statement) => statement.usedValues

theorem countOperands_eq :
    countOperands b = (b.graph.statements.map fun s => s.2.usedValues.length).sum := by
  rw [countOperands, Mutation.foldl_add_eq_sum fun s : Nat × Statement => s.2.usedValues.length,
    Nat.zero_add]

theorem length_operands : (operands b).length = countOperands b := by
  rw [operands, List.length_flatMap, countOperands_eq]

theorem mem_statements {node : Nat} {statement : Statement}
    (h : b.statement? node = some statement) : ∃ id, (id, statement) ∈ b.graph.statements := by
  obtain ⟨n, hn, hstatement⟩ := Option.bind_eq_some_iff.mp h
  have hmem : n ∈ b.graph.nodes.toList := Array.mem_toList_iff.mpr (Array.mem_of_getElem? hn)
  exact ⟨n.id, List.mem_filterMap.mpr ⟨n, hmem, by simp [hstatement]⟩⟩

theorem mem_operands {node : Nat} {value : String} (h : value ∈ b.usedAt node) :
    value ∈ operands b := by
  cases hstatement : b.statement? node with
  | none => simp [Body.usedAt, hstatement] at h
  | some statement =>
    obtain ⟨id, hmem⟩ := mem_statements b hstatement
    exact List.mem_flatMap.mpr ⟨_, hmem, by simpa [Body.usedAt, hstatement] using h⟩

theorem length_usedAt_le (node : Nat) : (b.usedAt node).length ≤ countOperands b := by
  rw [countOperands_eq]
  cases hstatement : b.statement? node with
  | none => simp [Body.usedAt, hstatement]
  | some statement =>
    obtain ⟨id, hmem⟩ := mem_statements b hstatement
    have hlength : statement.usedValues.length ∈
        b.graph.statements.map fun s => s.2.usedValues.length := List.mem_map.mpr ⟨_, hmem, rfl⟩
    simpa [Body.usedAt, hstatement] using List.le_sum_of_mem hlength

theorem length_predecessors_le (node : Nat) :
    (b.graph.predecessors node).length ≤ countEntries b := by
  rw [countEntries, Mutation.foldl_add_eq_sum fun n : FlowNode => n.incs.length, Nat.zero_add]
  unfold FlowGraph.predecessors
  split
  · next n hn =>
    have hmem : n ∈ b.graph.nodes.toList := Array.mem_toList_iff.mpr (Array.mem_of_getElem? hn)
    have hlength : n.incs.length ∈ b.graph.nodes.toList.map fun n => n.incs.length :=
      List.mem_map.mpr ⟨n, hmem, rfl⟩
    rw [List.length_map]
    exact (List.length_filterMap_le _ _).trans (List.le_sum_of_mem hlength)
  · simp

theorem length_follow_le (s : TraceState) (value : String) (isReference : Bool) :
    (follow b s value isReference).length ≤ (b.graph.predecessors s.node).length := by
  unfold follow
  split <;> simp

end Counting

section Places

variable (b : Body) (register : String)

-- The names that can be followed from `register` on.
def followedNames : Finset String :=
  ((register :: operands b).filterMap Operand.trackedName).toFinset

def places : Finset (Nat × String × Bool) :=
  Finset.range b.graph.size ×ˢ followedNames b register ×ˢ Finset.univ

theorem card_places_le :
    (places b register).card ≤ 2 * b.graph.size * (countOperands b + 1) := by
  have hnames : (followedNames b register).card ≤ countOperands b + 1 := by
    calc (followedNames b register).card
        ≤ ((register :: operands b).filterMap Operand.trackedName).length :=
          List.toFinset_card_le _
      _ ≤ (register :: operands b).length := List.length_filterMap_le _ _
      _ = countOperands b + 1 := by rw [List.length_cons, length_operands]
  have hcard : (places b register).card =
      b.graph.size * ((followedNames b register).card * 2) := by
    simp [places]
  calc (places b register).card
      = 2 * b.graph.size * (followedNames b register).card := by
        rw [hcard, Nat.mul_comm 2, Nat.mul_assoc, Nat.mul_comm 2]
    _ ≤ 2 * b.graph.size * (countOperands b + 1) := Nat.mul_le_mul_left _ hnames

-- The names of what is queued are names of operands.
theorem mem_followedNames_of_mem_follow {s t : TraceState} {value : String} {isReference : Bool}
    (hvalue : value = s.register ∨ value ∈ b.usedAt s.node)
    (hs : s.register ∈ followedNames b register) (ht : t ∈ follow b s value isReference) :
    t.register ∈ followedNames b register := by
  have htracked := (mem_follow.mp ht).1
  simp only [followedNames, List.mem_toFinset, List.mem_filterMap] at hs ⊢
  rcases hvalue with rfl | hvalue
  · obtain ⟨operand, hoperand, hname⟩ := hs
    rw [Operand.trackedName_of_trackedName hname] at htracked
    exact ⟨operand, hoperand, hname.trans htracked⟩
  · exact ⟨value, List.mem_cons_of_mem _ (mem_operands b hvalue), htracked⟩

end Places

section Steps

variable {σ : Type} (p : Program) (judge : Judge σ) (b : Body) (register : String)

-- Enough steps to empty the queue, whose names are all names of operands.
structure StepsSuffice (steps : Nat) (queue : List TraceState)
    (visited : List (Nat × String × Bool)) : Prop where
  names : ∀ s ∈ queue, s.register ∈ followedNames b register
  enough : queue.length + (places b register \ visited.toFinset).card *
    ((countOperands b + 1) * countEntries b) ≤ steps

variable {b register}

theorem stepsSuffice_start (start : TraceState) (hstart : start.register = register) :
    StepsSuffice b register (walkSteps b) (stay b start) [] where
  names := by
    intro t ht
    have htracked := (mem_follow.mp ht).1
    rw [hstart] at htracked
    exact List.mem_toFinset.mpr (List.mem_filterMap.mpr ⟨register, List.mem_cons_self, htracked⟩)
  enough := by
    have hlength : (stay b start).length ≤ countEntries b :=
      (length_follow_le b start _ _).trans (length_predecessors_le b start.node)
    have hplaces := Nat.mul_le_mul_right ((countOperands b + 1) * countEntries b)
      (card_places_le b register)
    simp only [List.toFinset_nil, Finset.sdiff_empty, walkSteps]
    omega

variable {steps : Nat} {s : TraceState} {queue : List TraceState}
  {visited : List (Nat × String × Bool)}

theorem StepsSuffice.drop (h : StepsSuffice b register (steps + 1) (s :: queue) visited) :
    StepsSuffice b register steps queue visited where
  names t ht := h.names t (List.mem_cons_of_mem _ ht)
  enough := by
    have henough := h.enough
    rw [List.length_cons] at henough
    omega

theorem mem_followedNames_of_mem_next {t : TraceState} {c : Candidates} {st : σ}
    (hs : s.register ∈ followedNames b register) (ht : t ∈ ((step p judge b s c).run st).1.next) :
    t.register ∈ followedNames b register := by
  obtain ⟨moves, role, name, -, hmoves, -, hrun⟩ := step_outcome p judge b s c st
  rw [hrun] at ht
  obtain ⟨move, hmove, ht⟩ := List.mem_flatMap.mp ht
  exact mem_followedNames_of_mem_follow b register (hmoves move hmove) hs ht

theorem length_next_le (c : Candidates) (st : σ) :
    ((step p judge b s c).run st).1.next.length ≤
      (countOperands b + 1) * (b.graph.predecessors s.node).length := by
  obtain ⟨moves, role, name, hlength, -, -, hrun⟩ := step_outcome p judge b s c st
  have hused := length_usedAt_le b s.node
  have hfollow : ∀ n ∈ moves.map fun move => (follow b s move.1 move.2).length,
      n ≤ (b.graph.predecessors s.node).length := by
    intro n hn
    obtain ⟨move, -, rfl⟩ := List.mem_map.mp hn
    exact length_follow_le b s move.1 move.2
  rw [hrun, List.length_flatMap]
  calc (moves.map fun move => (follow b s move.1 move.2).length).sum
      ≤ moves.length * (b.graph.predecessors s.node).length := by
        simpa using List.sum_le_card_nsmul _ _ hfollow
    _ ≤ (countOperands b + 1) * (b.graph.predecessors s.node).length :=
        Nat.mul_le_mul_right _ (by omega)

-- A node outside of the graph has no predecessors, so nothing is queued there; any other new place
-- makes one place less to be visited.
theorem StepsSuffice.expand (h : StepsSuffice b register (steps + 1) (s :: queue) visited)
    (hnew : s.place ∉ visited) (c : Candidates) (st : σ) :
    StepsSuffice b register steps (queue ++ ((step p judge b s c).run st).1.next)
      (s.place :: visited) := by
  have hregister := h.names s List.mem_cons_self
  constructor
  case names =>
    intro t ht
    rcases List.mem_append.mp ht with ht | ht
    · exact h.names t (List.mem_cons_of_mem _ ht)
    · exact mem_followedNames_of_mem_next p judge hregister ht
  case enough =>
    have hnext := length_next_le p judge (b := b) (s := s) c st
    have henough := h.enough
    rw [List.length_cons] at henough
    rw [List.length_append, List.toFinset_cons, Finset.sdiff_insert]
    by_cases hnode : s.node < b.graph.size
    · have hplace : s.place ∈ places b register := by
        simp [places, TraceState.place, hnode, hregister]
      have hcard := Finset.card_erase_add_one
        (Finset.mem_sdiff.mpr ⟨hplace, by simpa using hnew⟩ :
          s.place ∈ places b register \ visited.toFinset)
      have hentries := Nat.mul_le_mul_left (countOperands b + 1) (length_predecessors_le b s.node)
      rw [← hcard, Nat.add_mul, Nat.one_mul] at henough
      omega
    · have hnone : b.graph.predecessors s.node = [] := by
        have hnode : b.graph.node? s.node = none :=
          Array.getElem?_eq_none (by simpa [FlowGraph.size] using hnode)
        simp [FlowGraph.predecessors, hnode]
      have hcard := Nat.mul_le_mul_right ((countOperands b + 1) * countEntries b)
        (Finset.card_erase_le : ((places b register \ visited.toFinset).erase s.place).card ≤ _)
      rw [hnone, List.length_nil, Nat.mul_zero] at hnext
      omega

end Steps

section Walk

variable {σ : Type} (p : Program) (judge : Judge σ) {b : Body}

theorem run_walk_cons (steps : Nat) (s : TraceState) (queue : List TraceState)
    (visited : List (Nat × String × Bool)) (c : Candidates) (st : σ) :
    (walk p judge b (steps + 1) (s :: queue) visited c).run st =
      if c.reaches s.depth = false ∨ s.place ∈ visited then
        (walk p judge b steps queue visited c).run st
      else
        let stepped := (step p judge b s c).run st
        (walk p judge b steps (queue ++ stepped.1.next) (s.place :: visited)
          stepped.1.candidates).run stepped.2 := by
  have hdropped : (!c.reaches s.depth || visited.contains (s.node, s.register, s.isReference)) =
      decide (c.reaches s.depth = false ∨ s.place ∈ visited) := by
    cases c.reaches s.depth <;> simp [TraceState.place]
  simp only [walk, hdropped, decide_eq_true_eq]
  split <;> rfl

-- What holds at the start, and is kept when a state is dropped and when one is left, holds when the
-- queue is empty.
theorem walk_run (Inv : List TraceState → List (Nat × String × Bool) → Candidates → Prop)
    {register : String} {steps : Nat} {queue : List TraceState}
    {visited : List (Nat × String × Bool)} {c : Candidates} (st : σ)
    (hdrop : ∀ s queue visited c, Inv (s :: queue) visited c →
      c.reaches s.depth = false ∨ s.place ∈ visited → Inv queue visited c)
    (hexpand : ∀ s queue visited c st, Inv (s :: queue) visited c →
      c.reaches s.depth = true → s.place ∉ visited →
      Inv (queue ++ ((step p judge b s c).run st).1.next) (s.place :: visited)
        ((step p judge b s c).run st).1.candidates)
    (hsteps : StepsSuffice b register steps queue visited) (hinv : Inv queue visited c) :
    ∃ visited', Inv [] visited' ((walk p judge b steps queue visited c).run st).1 := by
  induction steps generalizing queue visited c st with
  | zero =>
    have hqueue : queue = [] := by
      have henough := hsteps.enough
      exact List.length_eq_zero_iff.mp (by omega)
    subst hqueue
    exact ⟨visited, hinv⟩
  | succ steps ih =>
    cases queue with
    | nil => exact ⟨visited, hinv⟩
    | cons s queue =>
      rw [run_walk_cons]
      by_cases hdropped : c.reaches s.depth = false ∨ s.place ∈ visited
      · rw [if_pos hdropped]
        exact ih st hsteps.drop (hdrop s queue visited c hinv hdropped)
      · rw [if_neg hdropped]
        have hreaches : c.reaches s.depth = true := by simpa using mt Or.inl hdropped
        have hnew : s.place ∉ visited := mt Or.inr hdropped
        exact ih _ (hsteps.expand p judge hnew c st)
          (hexpand s queue visited c st hinv hreaches hnew)

end Walk

end Trace

end TestFocus
