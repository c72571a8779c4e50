import TestFocus.Proofs.Trace.Operands
import TestFocus.Proofs.Trace.WalkBound

namespace TestFocus.Trace

variable {b : Body} {register : String}

-- The node stores a value without a name to the very address, and defines nothing.
def Overwrites (b : Body) (register : String) (node : Nat) : Prop :=
  b.assignee? node = none ∧ ∃ isVolatile isAtomic type value addressType,
    b.statement? node = some (.store isVolatile isAtomic type value addressType register) ∧
      Operand.trackedName value = none

-- The nodes in front of `start`, back to the nearest stores that overwrite the name on each path.
inductive Exposed (b : Body) (register : String) (start : Nat) : Nat → Prop where
  | entering {node : Nat} (h : node ∈ b.graph.predecessors start) : Exposed b register start node
  | back {node before : Nat} (h : Exposed b register start node)
    (hkept : ¬Overwrites b register node) (hbefore : before ∈ b.graph.predecessors node) :
    Exposed b register start before

-- The node neither defines the name nor hands it, or an address derived from it, to a call, and it
-- writes to no such address.
structure LeavesAlone (b : Body) (register : String) (node : Nat) : Prop where
  assignee : b.assignee? node ≠ some register
  call : ∀ call, b.call? node = some call → ∀ argument ∈ call.arguments,
    names argument.value register = false ∧ derivesFrom b argument.value register = false
  write : ∀ statement, b.statement? node = some statement →
    ∀ type value address, written? statement = some (type, value, address) →
      address ≠ register ∧ derivesFrom b address register = false

section Step

variable {σ : Type} (p : Program) (judge : Judge σ) {s : TraceState}

-- A state at such a store leads nowhere.
theorem step_of_overwrites (hreference : s.isReference = true)
    (h : Overwrites b s.register s.node) (c : Candidates) :
    step p judge b s c = pure { next := [], candidates := c } := by
  obtain ⟨hassignee, isVolatile, isAtomic, type, value, addressType, hstore, hvalue⟩ := h
  obtain ⟨node, hnode, hstatement⟩ := Option.bind_eq_some_iff.mp hstore
  have hdefines : defines b s = false := by simp [defines, hassignee]
  rw [step_of_not_call p b s judge hnode hstatement rfl]
  simp [hdefines, passWrite, hreference, written?, isStore, follow, hvalue]

theorem receivingPositions_eq_nil {call : Call}
    (h : ∀ argument ∈ call.arguments, names argument.value s.register = false ∧
      derivesFrom b argument.value s.register = false) : receivingPositions b s call = [] := by
  rw [receivingPositions, List.map_eq_nil_iff, List.filter_eq_nil_iff]
  rintro ⟨argument, index⟩ hmem
  obtain ⟨hnamed, hderived⟩ := h argument (List.fst_mem_of_mem_zipIdx hmem)
  simp [hnamed, hderived]

theorem passWrite_eq_stay {statement : Statement}
    (h : ∀ type value address, written? statement = some (type, value, address) →
      address ≠ s.register ∧ derivesFrom b address s.register = false) :
    passWrite b s statement = stay b s := by
  unfold passWrite
  split
  · rfl
  · next type value address hwritten =>
    have hwritten : written? statement = some (type, value, address) := by
      split at hwritten
      · exact hwritten
      · cases hwritten
    obtain ⟨hne, hderived⟩ := h type value address hwritten
    simp [hne, hderived]

-- A node that leaves the name alone is passed, with the name as it is.
theorem step_of_leavesAlone (h : LeavesAlone b s.register s.node) (c : Candidates) :
    step p judge b s c = pure { next := stay b s, candidates := c } := by
  have hdefines : defines b s = false := by
    simpa [defines] using h.assignee
  cases hnode : b.graph.node? s.node with
  | none =>
    have hstay : stay b s = [] := by
      rw [stay, follow, FlowGraph.predecessors, hnode]
      split <;> rfl
    simp only [step, hnode, hstay]
  | some node =>
    cases hstatement : node.statement with
    | none => simp only [step, hnode, hstatement]
    | some statement =>
      have hfound : b.statement? s.node = some statement := by
        simp [Body.statement?, FlowGraph.statement?, hnode, hstatement]
      cases hcall : statement.call? with
      | none =>
        have hwrite := passWrite_eq_stay (h.write statement hfound)
        rw [step_of_not_call p b s judge hnode hstatement hcall, hdefines]
        simp [hwrite]
      | some call =>
        have hpositions := receivingPositions_eq_nil
          (h.call call (by simp [Body.call?, hfound, hcall]))
        have hassignee : (node.assignee == some s.register) = false := by
          simpa [defines, Body.assignee?, hnode] using hdefines
        simp only [step, hnode, hstatement, hcall, hassignee, stepCall, hpositions,
          List.isEmpty_nil, Bool.not_false, Bool.and_self, if_true]

end Step

section Walk

variable {σ : Type} (p : Program) (judge : Judge σ) {start : Nat}

theorem mem_stay {s t : TraceState} (hregister : Operand.isRegister s.register = true)
    (ht : t ∈ stay b s) : t.register = s.register ∧ t.node ∈ b.graph.predecessors s.node ∧
      t.isReference = s.isReference := by
  obtain ⟨htracked, hbefore, hflag, -⟩ := mem_follow.mp ht
  rw [Operand.trackedName, if_pos hregister, Option.some.injEq] at htracked
  exact ⟨htracked.symm, hbefore, hflag⟩

-- Every state that waits is at an exposed node, and nothing has been found.
structure Unmet (b : Body) (register : String) (start : Nat) (queue : List TraceState)
    (c : Candidates) : Prop where
  state : ∀ s ∈ queue, s.register = register ∧ s.isReference = true ∧
    Exposed b register start s.node
  none : c = .empty

theorem Unmet.drop {s : TraceState} {queue : List TraceState} {c : Candidates}
    (h : Unmet b register start (s :: queue) c) : Unmet b register start queue c where
  state t ht := h.state t (List.mem_cons_of_mem _ ht)
  none := h.none

theorem Unmet.expand {s : TraceState} {queue : List TraceState} {c : Candidates}
    (hregister : Operand.isRegister register = true)
    (hnodes : ∀ node, Exposed b register start node → ¬Overwrites b register node →
      LeavesAlone b register node)
    (h : Unmet b register start (s :: queue) c) (st : σ) :
    Unmet b register start (queue ++ ((step p judge b s c).run st).1.next)
      ((step p judge b s c).run st).1.candidates := by
  obtain ⟨rfl, hreference, hexposed⟩ := h.state s List.mem_cons_self
  by_cases hover : Overwrites b s.register s.node
  · rw [step_of_overwrites p judge hreference hover]
    show Unmet b s.register start (queue ++ []) c
    rw [List.append_nil]
    exact h.drop
  · rw [step_of_leavesAlone p judge (hnodes s.node hexposed hover)]
    show Unmet b s.register start (queue ++ stay b s) c
    refine ⟨?_, h.none⟩
    intro t ht
    rcases List.mem_append.mp ht with ht | ht
    · exact h.drop.state t ht
    · obtain ⟨hsame, hbefore, hflag⟩ := mem_stay hregister ht
      exact ⟨hsame, hflag.trans hreference, .back hexposed hover hbefore⟩

-- Nothing is found for a name that is overwritten on every way back before anything defines it,
-- takes it or writes to it.
theorem focalMethods_of_overwritten (hregister : Operand.isRegister register = true)
    (hnodes : ∀ node, Exposed b register start node → ¬Overwrites b register node →
      LeavesAlone b register node) (st : σ) :
    ((focalMethods p judge b register true start).run st).1 = [] := by
  have hstart : Unmet b register start (stay b ⟨register, start, true, 0⟩) .empty := by
    refine ⟨?_, rfl⟩
    intro t ht
    obtain ⟨hsame, hbefore, hflag⟩ := mem_stay hregister ht
    exact ⟨hsame, hflag, .entering hbefore⟩
  obtain ⟨-, hend⟩ := walk_run p judge (fun queue _ c => Unmet b register start queue c) st
    (fun _ _ _ _ h _ => h.drop) (fun _ _ _ _ st h _ _ => h.expand p judge hregister hnodes st)
    (stepsSuffice_start ⟨register, start, true, 0⟩ rfl) hstart
  have hfound : ((focalMethods p judge b register true start).run st).1 =
      ((walk p judge b (walkSteps b) (stay b ⟨register, start, true, 0⟩) [] .empty).run
        st).1.focalMethods := rfl
  rw [hfound, hend.none, Candidates.focalMethods_empty]

end Walk

-- A call that receives `%1`, a store of zero to `%1`, a loop with a call of its own, and the
-- assertion behind the loop.
def zeroed : Body :=
  let calling (callee argument : String) : Statement :=
    .call { (default : Call) with
      callee, arguments := [{ type := "ptr", attributes := [], value := argument }] }
  { (default : Body) with
    graph := { FlowGraph.empty "@t" with
      nodes := #[
        { id := 0, name := "call @init", statement := some (calling "@init" "%1") },
        { id := 1, name := "store", statement := some (.store false false "i32" "0" "ptr" "%1")
          incs := [0] },
        { id := 2, name := "%loop", incs := [1, 3] },
        { id := 3, name := "call @next", statement := some (calling "@next" "%2"), incs := [2] },
        { id := 4, name := "call @check", statement := some (calling "@check" "%1")
          incs := [4] }]
      edges := #[{ source := 0, target := 1, label := none },
        { source := 1, target := 2, label := none }, { source := 2, target := 3, label := none },
        { source := 3, target := 2, label := none },
        { source := 3, target := 4, label := none }] } }

theorem overwrites_zeroed : Overwrites zeroed "%1" 1 :=
  ⟨rfl, false, false, "i32", "0", "ptr", rfl, by decide⟩

theorem exposed_zeroed {node : Nat} (h : Exposed zeroed "%1" 4 node) :
    node = 1 ∨ node = 2 ∨ node = 3 := by
  have hbefore : ∀ n ∈ [2, 3, 4], ∀ m ∈ zeroed.graph.predecessors n,
      m = 1 ∨ m = 2 ∨ m = 3 := by
    decide
  induction h with
  | entering h => exact hbefore 4 (by decide) _ h
  | back _ hkept h ih =>
    rcases ih with rfl | rfl | rfl
    · exact absurd overwrites_zeroed hkept
    · exact hbefore 2 (by decide) _ h
    · exact hbefore 3 (by decide) _ h

theorem leavesAlone_zeroed {node : Nat} (h : Exposed zeroed "%1" 4 node)
    (hkept : ¬Overwrites zeroed "%1" node) : LeavesAlone zeroed "%1" node := by
  rcases exposed_zeroed h with rfl | rfl | rfl
  · exact absurd overwrites_zeroed hkept
  · exact ⟨by decide, nofun, nofun⟩
  · refine ⟨by decide, ?_, ?_⟩
    · rintro call ⟨⟩ argument hargument
      rw [List.mem_singleton] at hargument
      subst hargument
      decide
    · rintro statement ⟨⟩ type value address hwritten
      cases hwritten

-- The call in front of the store is found from the store on, and not from the assertion.
theorem focalMethods_of_overwritten_zeroed :
    ((focalMethods unknown unknown.judge zeroed "%1" true 4).run .empty).1 = [] ∧
      ((focalMethods unknown unknown.judge zeroed "%1" true 1).run .empty).1 = ["@init"] :=
  ⟨focalMethods_of_overwritten unknown unknown.judge (by decide)
    (fun _ => leavesAlone_zeroed) .empty, by decide +kernel⟩

end TestFocus.Trace
