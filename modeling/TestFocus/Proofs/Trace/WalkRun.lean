import TestFocus.Proofs.Trace.WalkBound

namespace TestFocus.Trace

variable {σ : Type} {p : Program} {judge : Judge σ} {b : Body}

-- The loop from a queue and the places visited before it: the states that it takes off the queue,
-- in order, those of them that it leaves by a step, and what it ends with.
inductive Walks (p : Program) (judge : Judge σ) (b : Body) : List TraceState →
    List (Nat × String × Bool) → Candidates → σ → (taken stepped : List TraceState) →
    Candidates → σ → Prop
  | finished {visited : List (Nat × String × Bool)} {c : Candidates} {st : σ} :
      Walks p judge b [] visited c st [] [] c st
  | dropped {s : TraceState} {queue taken stepped : List TraceState}
      {visited : List (Nat × String × Bool)} {c c' : Candidates} {st st' : σ}
      (superfluous : c.reaches s.depth = false ∨ s.place ∈ visited)
      (rest : Walks p judge b queue visited c st taken stepped c' st') :
      Walks p judge b (s :: queue) visited c st (s :: taken) stepped c' st'
  | left {s : TraceState} {queue taken stepped : List TraceState}
      {visited : List (Nat × String × Bool)} {c c' : Candidates} {st st' : σ}
      (reaches : c.reaches s.depth = true) (new : s.place ∉ visited)
      (rest : Walks p judge b (queue ++ ((step p judge b s c).run st).1.next) (s.place :: visited)
        ((step p judge b s c).run st).1.candidates ((step p judge b s c).run st).2
        taken stepped c' st') :
      Walks p judge b (s :: queue) visited c st (s :: taken) (s :: stepped) c' st'

namespace Walks

variable {queue taken stepped : List TraceState} {visited : List (Nat × String × Bool)}
  {c c' : Candidates} {st st' : σ}

-- The loop has one course only.
theorem unique (h : Walks p judge b queue visited c st taken stepped c' st')
    {taken' stepped' : List TraceState} {c'' : Candidates} {st'' : σ}
    (h' : Walks p judge b queue visited c st taken' stepped' c'' st'') :
    taken' = taken ∧ stepped' = stepped ∧ c'' = c' ∧ st'' = st' := by
  induction h generalizing taken' stepped' c'' st'' with
  | finished =>
    cases h'
    exact ⟨rfl, rfl, rfl, rfl⟩
  | dropped hsuperfluous _ ih =>
    cases h' with
    | dropped _ hrest =>
      obtain ⟨rfl, rfl, rfl, rfl⟩ := ih hrest
      exact ⟨rfl, rfl, rfl, rfl⟩
    | left hreaches hnew _ => simp [hreaches, hnew] at hsuperfluous
  | left hreaches hnew _ ih =>
    cases h' with
    | dropped hsuperfluous _ => simp [hreaches, hnew] at hsuperfluous
    | left _ _ hrest =>
      obtain ⟨rfl, rfl, rfl, rfl⟩ := ih hrest
      exact ⟨rfl, rfl, rfl, rfl⟩

-- No place is left twice.
theorem places (h : Walks p judge b queue visited c st taken stepped c' st') :
    (stepped.map TraceState.place).Nodup ∧ ∀ s ∈ stepped, s.place ∉ visited := by
  induction h with
  | finished => exact ⟨List.nodup_nil, fun s hs => by cases hs⟩
  | dropped _ _ ih => exact ih
  | @left s _ _ _ _ _ _ _ _ _ hnew _ ih =>
    obtain ⟨hnodup, houtside⟩ := ih
    constructor
    · refine List.nodup_cons.mpr ⟨?_, hnodup⟩
      intro hagain
      obtain ⟨t, ht, hplace⟩ := List.mem_map.mp hagain
      exact houtside t ht (hplace ▸ List.mem_cons_self)
    · intro t ht
      rcases List.mem_cons.mp ht with rfl | ht
      · exact hnew
      · exact mt (List.mem_cons_of_mem _) (houtside t ht)

-- What it leaves was taken.
theorem sublist (h : Walks p judge b queue visited c st taken stepped c' st') :
    stepped.Sublist taken := by
  induction h with
  | finished => exact List.Sublist.slnil
  | dropped _ _ ih => exact ih.cons _
  | left _ _ _ ih => exact ih.cons_cons _

-- Only names of operands come up.
theorem names {register : String}
    (h : Walks p judge b queue visited c st taken stepped c' st')
    (hqueue : ∀ s ∈ queue, s.register ∈ followedNames b register) :
    ∀ s ∈ taken, s.register ∈ followedNames b register := by
  induction h with
  | finished => exact fun s hs => by cases hs
  | dropped _ _ ih =>
    obtain ⟨hhead, htail⟩ := List.forall_mem_cons.mp hqueue
    exact List.forall_mem_cons.mpr ⟨hhead, ih htail⟩
  | left _ _ _ ih =>
    obtain ⟨hhead, htail⟩ := List.forall_mem_cons.mp hqueue
    refine List.forall_mem_cons.mpr ⟨hhead, ih ?_⟩
    intro t ht
    rcases List.mem_append.mp ht with ht | ht
    · exact htail t ht
    · exact mem_followedNames_of_mem_next p judge hhead ht

end Walks

-- The queue is in the order of depth, and no depth in it is more than one beyond `depth`.
structure InOrder (depth : Nat) (queue : List TraceState) : Prop where
  ascending : queue.Pairwise fun s t => s.depth ≤ t.depth
  within : ∀ s ∈ queue, depth ≤ s.depth ∧ s.depth ≤ depth + 1

theorem depth_of_mem_next {s t : TraceState} {c : Candidates} {st : σ}
    (ht : t ∈ ((step p judge b s c).run st).1.next) : t.depth = s.depth + 1 := by
  obtain ⟨moves, role, name, -, -, -, hrun⟩ := step_outcome p judge b s c st
  rw [hrun] at ht
  obtain ⟨move, -, ht⟩ := List.mem_flatMap.mp ht
  exact (mem_follow.mp ht).2.2.2

namespace InOrder

variable {depth : Nat} {s : TraceState} {queue next : List TraceState}

theorem tail (h : InOrder depth (s :: queue)) : InOrder s.depth queue where
  ascending := h.ascending.of_cons
  within t ht := by
    have hlater := List.rel_of_pairwise_cons h.ascending ht
    have hhead := h.within s List.mem_cons_self
    have htail := h.within t (List.mem_cons_of_mem _ ht)
    omega

-- What a step queues is one deeper than the state that it leaves.
theorem append (h : InOrder depth queue) (hnext : ∀ t ∈ next, t.depth = depth + 1) :
    InOrder depth (queue ++ next) where
  ascending := by
    refine List.pairwise_append.mpr ⟨h.ascending, ?_, ?_⟩
    · apply List.pairwise_of_forall_mem_list
      intro t ht u hu
      rw [hnext t ht, hnext u hu]
    · intro t ht u hu
      rw [hnext u hu]
      exact (h.within t ht).2
  within t ht := by
    rcases List.mem_append.mp ht with ht | ht
    · exact h.within t ht
    · have := hnext t ht
      omega

theorem start (b : Body) (s : TraceState) : InOrder s.depth (stay b s) := by
  have hempty : InOrder s.depth [] := ⟨List.Pairwise.nil, fun t ht => by cases ht⟩
  have hstay : ∀ t ∈ stay b s, t.depth = s.depth + 1 := fun t ht => (mem_follow.mp ht).2.2.2
  exact hempty.append hstay

end InOrder

-- The states come off the queue in the order of their depths.
theorem Walks.depths {queue taken stepped : List TraceState}
    {visited : List (Nat × String × Bool)} {c c' : Candidates} {st st' : σ} {depth : Nat}
    (h : Walks p judge b queue visited c st taken stepped c' st') (hqueue : InOrder depth queue) :
    (taken.Pairwise fun s t => s.depth ≤ t.depth) ∧ ∀ s ∈ taken, depth ≤ s.depth := by
  have hcons {depth : Nat} {s : TraceState} {queue taken : List TraceState}
      (hqueue : InOrder depth (s :: queue))
      (hrest : (taken.Pairwise fun s t => s.depth ≤ t.depth) ∧ ∀ t ∈ taken, s.depth ≤ t.depth) :
      ((s :: taken).Pairwise fun s t => s.depth ≤ t.depth) ∧ ∀ t ∈ s :: taken, depth ≤ t.depth := by
    have hhead := (hqueue.within s List.mem_cons_self).1
    refine ⟨List.pairwise_cons.mpr ⟨hrest.2, hrest.1⟩, ?_⟩
    exact List.forall_mem_cons.mpr ⟨hhead, fun t ht => hhead.trans (hrest.2 t ht)⟩
  induction h generalizing depth with
  | finished => exact ⟨List.Pairwise.nil, fun s hs => by cases hs⟩
  | dropped _ _ ih => exact hcons hqueue (ih hqueue.tail)
  | left _ _ _ ih =>
    exact hcons hqueue (ih (hqueue.tail.append fun t ht => depth_of_mem_next ht))

variable (p judge) in
-- The loop comes to its end within the steps that suffice, and the program does what it does.
theorem exists_walks {register : String} {steps : Nat} {queue : List TraceState}
    {visited : List (Nat × String × Bool)} (c : Candidates) (st : σ)
    (hsteps : StepsSuffice b register steps queue visited) :
    ∃ taken stepped c' st', Walks p judge b queue visited c st taken stepped c' st' ∧
      (walk p judge b steps queue visited c).run st = (c', st') ∧ taken.length ≤ steps := by
  induction steps generalizing queue visited c st with
  | zero =>
    have hqueue : queue = [] := by
      have henough := hsteps.enough
      exact List.length_eq_zero_iff.mp (by omega)
    subst hqueue
    exact ⟨[], [], c, st, .finished, rfl, Nat.zero_le 0⟩
  | succ steps ih =>
    cases queue with
    | nil => exact ⟨[], [], c, st, .finished, rfl, Nat.zero_le _⟩
    | cons s queue =>
      rw [run_walk_cons]
      by_cases hsuperfluous : c.reaches s.depth = false ∨ s.place ∈ visited
      · rw [if_pos hsuperfluous]
        obtain ⟨taken, stepped, c', st', hrest, hrun, hlength⟩ := ih c st hsteps.drop
        exact ⟨s :: taken, stepped, c', st', .dropped hsuperfluous hrest, hrun,
          Nat.succ_le_succ hlength⟩
      · rw [if_neg hsuperfluous]
        have hreaches : c.reaches s.depth = true := by simpa using mt Or.inl hsuperfluous
        have hnew : s.place ∉ visited := mt Or.inr hsuperfluous
        obtain ⟨taken, stepped, c', st', hrest, hrun, hlength⟩ :=
          ih _ _ (hsteps.expand p judge hnew c st)
        exact ⟨s :: taken, s :: stepped, c', st', .left hreaches hnew hrest, hrun,
          Nat.succ_le_succ hlength⟩

-- The names that are followed: the name at the start, or the one it is followed under if it is no
-- register, and the names of operands.
theorem mem_followedNames_iff {register name : String} : name ∈ followedNames b register ↔
    name = register ∧ Operand.isRegister register = true ∨
    Operand.isRegister register = false ∧ Operand.trackedName register = some name ∨
    ∃ value ∈ operands b, Operand.trackedName value = some name := by
  have hstart : Operand.trackedName register = some name ↔
      name = register ∧ Operand.isRegister register = true ∨
        Operand.isRegister register = false ∧ Operand.trackedName register = some name := by
    cases hregister : Operand.isRegister register with
    | true => simp [Operand.trackedName, hregister, eq_comm]
    | false => simp
  have hmem : name ∈ followedNames b register ↔ Operand.trackedName register = some name ∨
      ∃ value ∈ operands b, Operand.trackedName value = some name := by
    simp only [followedNames, List.mem_toFinset, List.mem_filterMap, List.exists_mem_cons_iff]
  exact hmem.trans ((or_congr_left hstart).trans or_assoc)

-- The walk back ends. It leaves each node at most once with one name and one flag, the names are
-- that at the start and those of operands, and the states are taken in the order of their depths.
theorem focalMethods_walks (p : Program) (judge : Judge σ) (b : Body) (register : String)
    (isReference : Bool) (node : Nat) (st : σ) :
    ∃ taken stepped c st',
      Walks p judge b (stay b { register, node, isReference, depth := 0 }) [] .empty st
        taken stepped c st' ∧
      (focalMethods p judge b register isReference node).run st = (c.focalMethods, st') ∧
      stepped.Sublist taken ∧ (stepped.map TraceState.place).Nodup ∧
      (∀ s ∈ taken, s.register = register ∧ Operand.isRegister register = true ∨
        Operand.isRegister register = false ∧ Operand.trackedName register = some s.register ∨
        ∃ value ∈ operands b, Operand.trackedName value = some s.register) ∧
      (taken.Pairwise fun s t => s.depth ≤ t.depth) ∧ taken.length ≤ walkSteps b := by
  have hsteps := stepsSuffice_start (b := b) { register, node, isReference, depth := 0 } rfl
  obtain ⟨taken, stepped, c, st', hwalks, hrun, hlength⟩ :=
    exists_walks p judge .empty st hsteps
  refine ⟨taken, stepped, c, st', hwalks, ?_, hwalks.sublist, hwalks.places.1, ?_, ?_, hlength⟩
  · exact congrArg (fun result => (Candidates.focalMethods result.1, result.2)) hrun
  · exact fun s hs => mem_followedNames_iff.mp (hwalks.names hsteps.names s hs)
  · exact (hwalks.depths (InOrder.start b _)).1

end TestFocus.Trace
