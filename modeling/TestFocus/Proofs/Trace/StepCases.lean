import TestFocus.Proofs.Trace.Collection
import TestFocus.Trace.Step

-- What one step of the way back can do, whatever the judge says. It passes on, or it meets a
-- call whose function may be a candidate. Either way the states that it queues follow operands
-- of the statement, or the name itself, to the predecessors of the node, and which operands
-- these are depends on the place only, not on the depth or on the order of edges.

namespace TestFocus

-- What tells whether a state was visited before.
def TraceState.place (s : TraceState) : Nat × String × Bool :=
  (s.node, s.register, s.isReference)

def TraceState.atDepth (s : TraceState) (depth : Nat) : TraceState :=
  { s with depth }

theorem TraceState.eq_atDepth {s t : TraceState} (h : t.place = s.place) :
    t = s.atDepth t.depth := by
  obtain ⟨register, node, isReference, depth⟩ := s
  obtain ⟨register', node', isReference', depth'⟩ := t
  simp only [place, Prod.mk.injEq] at h
  obtain ⟨rfl, rfl, rfl⟩ := h
  rfl

-- The two bodies differ at most in the order of edges, and in how often they are repeated.
structure Body.SameFlow (b b' : Body) : Prop where
  dataflow : b.dataflow = b'.dataflow
  node : ∀ id, (b.graph.node? id).map (fun n => (n.statement, n.assignee)) =
    (b'.graph.node? id).map fun n => (n.statement, n.assignee)
  predecessors : ∀ id n, n ∈ b.graph.predecessors id ↔ n ∈ b'.graph.predecessors id

-- The values that the statement at a node reads.
def Body.usedAt (b : Body) (node : Nat) : List String :=
  ((b.statement? node).map (·.usedValues)).getD []

theorem Body.SameFlow.node?_eq_none {b b' : Body} (h : Body.SameFlow b b') {id : Nat}
    (hid : b.graph.node? id = none) : b'.graph.node? id = none := by
  have hnode := h.node id
  rw [hid] at hnode
  exact Option.map_eq_none_iff.mp hnode.symm

theorem Body.SameFlow.node?_eq_some {b b' : Body} (h : Body.SameFlow b b') {id : Nat}
    {n : FlowNode} (hid : b.graph.node? id = some n) :
    ∃ n', b'.graph.node? id = some n' ∧ n'.statement = n.statement ∧ n'.assignee = n.assignee := by
  have hnode := h.node id
  rw [hid, Option.map_some] at hnode
  obtain ⟨n', hn', heq⟩ := Option.map_eq_some_iff.mp hnode.symm
  exact ⟨n', hn', congrArg Prod.fst heq, congrArg Prod.snd heq⟩

theorem Body.SameFlow.refl (b : Body) : Body.SameFlow b b where
  dataflow := rfl
  node _ := rfl
  predecessors _ _ := Iff.rfl

theorem Body.SameFlow.symm {b b' : Body} (h : Body.SameFlow b b') : Body.SameFlow b' b where
  dataflow := h.dataflow.symm
  node id := (h.node id).symm
  predecessors id n := (h.predecessors id n).symm

theorem Body.SameFlow.call?_eq {b b' : Body} (h : Body.SameFlow b b') (node : Nat) :
    b'.call? node = b.call? node := by
  have hstatement : b'.statement? node = b.statement? node := by
    simpa [Body.statement?, FlowGraph.statement?, Function.comp_def, Option.bind_map] using
      congrArg (fun x => x.bind Prod.fst) (h.node node).symm
  rw [Body.call?, Body.call?, hstatement]

theorem Body.SameFlow.assignee?_eq {b b' : Body} (h : Body.SameFlow b b') (node : Nat) :
    b'.assignee? node = b.assignee? node := by
  simpa [Body.assignee?, Function.comp_def, Option.bind_map] using
    congrArg (fun x => x.bind Prod.snd) (h.node node).symm

namespace Trace

section Following

-- From any depth, and in any body with the same data flow, the states follow the same operands.
def FollowsOperands (used : List String) (b : Body) (s : TraceState)
    (next : Body → TraceState → List TraceState) : Prop :=
  ∃ moves : List (String × Bool), moves.length ≤ used.length + 1 ∧
    (∀ move ∈ moves, move.1 = s.register ∨ move.1 ∈ used) ∧
    ∀ b' depth, b.dataflow = b'.dataflow → next b' (s.atDepth depth) =
      moves.flatMap fun move => follow b' (s.atDepth depth) move.1 move.2

variable (b : Body) (s : TraceState)

theorem FollowsOperands.congr {b : Body} {s : TraceState} {used : List String}
    {next next' : Body → TraceState → List TraceState} (h : FollowsOperands used b s next)
    (heq : ∀ b' depth, b.dataflow = b'.dataflow →
      next' b' (s.atDepth depth) = next b' (s.atDepth depth)) : FollowsOperands used b s next' := by
  obtain ⟨moves, hlength, hmoves, hnext⟩ := h
  exact ⟨moves, hlength, hmoves,
    fun b' depth hflow => (heq b' depth hflow).trans (hnext b' depth hflow)⟩

theorem followsOperands_nil (used : List String) : FollowsOperands used b s fun _ _ => [] :=
  ⟨[], by simp, by simp, by simp⟩

theorem followsOperands_stay (used : List String) : FollowsOperands used b s stay :=
  ⟨[(s.register, s.isReference)], by simp, by simp, fun _ _ _ => by simp [stay, TraceState.atDepth]⟩

-- A single operand is followed.
theorem followsOperands_follow {used : List String} {value : String} (h : value ∈ used)
    (isReference : Bool) :
    FollowsOperands used b s fun b s => follow b s value isReference :=
  ⟨[(value, isReference)], by simp, by simp [h], by simp⟩

-- So is one beside the name itself.
theorem followsOperands_follow_stay {used : List String} {value : String} (h : value ∈ used)
    (isReference : Bool) :
    FollowsOperands used b s fun b s => follow b s value isReference ++ stay b s := by
  refine ⟨[(value, isReference), (s.register, s.isReference)], ?_, ?_, ?_⟩
  · have := List.length_pos_of_mem h
    simp only [List.length_cons, List.length_nil]
    omega
  · simp [h]
  · intro b' depth _
    simp [stay, TraceState.atDepth]

def argumentMoves (s : TraceState) (call : Call) : List (String × Bool) :=
  (call.arguments.filter fun argument => !names argument.value s.register).map fun argument =>
    (argument.value, argument.isReference)

theorem followArguments_eq (depth : Nat) (call : Call) :
    followArguments b (s.atDepth depth) call =
      (argumentMoves s call).flatMap fun move => follow b (s.atDepth depth) move.1 move.2 := by
  simp only [followArguments, argumentMoves, TraceState.atDepth]
  induction call.arguments with
  | nil => rfl
  | cons argument rest ih =>
    by_cases h : names argument.value s.register
    · simp [h, ih]
    · simp [h, ih]

theorem length_argumentMoves_le (call : Call) :
    (argumentMoves s call).length ≤ (call.arguments.map (·.value)).length := by
  simpa [argumentMoves] using List.length_filter_le _ call.arguments

theorem mem_of_mem_argumentMoves {call : Call} {move : String × Bool}
    (h : move ∈ argumentMoves s call) : move.1 ∈ call.arguments.map (·.value) := by
  obtain ⟨argument, hargument, rfl⟩ := List.mem_map.mp h
  exact List.mem_map_of_mem (List.mem_of_mem_filter hargument)

theorem followsOperands_followArguments (call : Call) :
    FollowsOperands (call.arguments.map (·.value)) b s fun b s => followArguments b s call := by
  refine ⟨argumentMoves s call, ?_, ?_, fun b' depth _ => followArguments_eq b' s depth call⟩
  · have := length_argumentMoves_le s call
    omega
  · exact fun move hmove => .inr (mem_of_mem_argumentMoves s hmove)

theorem followsOperands_followArguments_stay (call : Call) :
    FollowsOperands (call.arguments.map (·.value)) b s fun b s =>
      followArguments b s call ++ stay b s := by
  refine ⟨argumentMoves s call ++ [(s.register, s.isReference)], ?_, ?_, ?_⟩
  · have := length_argumentMoves_le s call
    simp only [List.length_append, List.length_singleton]
    omega
  · intro move hmove
    rcases List.mem_append.mp hmove with hmove | hmove
    · exact .inr (mem_of_mem_argumentMoves s hmove)
    · exact .inl (by simp [List.mem_singleton.mp hmove])
  · intro b' depth _
    simp only [followArguments_eq b' s depth call, List.flatMap_append]
    simp [stay, TraceState.atDepth]

theorem followsOperands_passCall (call : Call) (defines : Bool) :
    FollowsOperands (call.arguments.map (·.value)) b s fun b s => passCall b s call defines := by
  cases defines with
  | true => exact followsOperands_followArguments b s call
  | false => exact followsOperands_stay b s _

theorem followsOperands_passDefinition (statement : Statement) :
    FollowsOperands statement.usedValues b s fun b s => passDefinition b s statement := by
  have hother : FollowsOperands statement.usedValues b s fun b s =>
      statement.usedRegisters.flatMap fun used =>
        follow b s used (s.isReference && !statement.isComputation) := by
    refine ⟨statement.usedRegisters.map fun used =>
      (used, s.isReference && !statement.isComputation), ?_, ?_, ?_⟩
    · have := List.length_filter_le Operand.isRegister statement.usedValues
      simp only [List.length_map, Statement.usedRegisters]
      omega
    · intro move hmove
      obtain ⟨used, hused, rfl⟩ := List.mem_map.mp hmove
      exact .inr (List.mem_of_mem_filter hused)
    · intro b' depth _
      simp [List.flatMap_map, TraceState.atDepth]
  cases statement with
  | load _ _ _ _ address => exact followsOperands_follow b s (by simp [Statement.usedValues]) true
  | compareExchange _ _ address _ _ _ =>
    exact followsOperands_follow b s (by simp [Statement.usedValues]) true
  | readModifyWrite _ _ address _ _ =>
    exact followsOperands_follow b s (by simp [Statement.usedValues]) true
  | elementPointer _ _ _ base _ =>
    exact followsOperands_follow b s (by simp [Statement.usedValues]) true
  | conversion _ _ value _ =>
    exact followsOperands_follow b s (by simp [Statement.usedValues]) s.isReference
  | _ => exact hother

theorem written?_mem {statement : Statement} {type value address : String}
    (h : written? statement = some (type, value, address)) : value ∈ statement.usedValues := by
  cases statement with
  | store | compareExchange | readModifyWrite =>
    cases h
    simp [Statement.usedValues]
  | _ => cases h

theorem derivesFrom_congr {b b' : Body} (h : b.dataflow = b'.dataflow) (address base : String) :
    derivesFrom b' address base = derivesFrom b address base := by
  rw [derivesFrom, derivesFrom, h]

theorem followsOperands_passWrite (statement : Statement) :
    FollowsOperands statement.usedValues b s fun b s => passWrite b s statement := by
  cases hwritten : if s.isReference then written? statement else none with
  | none =>
    refine (followsOperands_stay b s _).congr fun b' depth _ => ?_
    have hpass : (if (s.atDepth depth).isReference then written? statement else none) = none :=
      hwritten
    simp only [passWrite, hpass]
  | some written =>
    obtain ⟨type, value, address⟩ := written
    have hstatement : written? statement = some (type, value, address) := by
      cases hreference : s.isReference with
      | true => simpa [hreference] using hwritten
      | false => simp [hreference] at hwritten
    have hvalue := written?_mem hstatement
    have hpass (b' : Body) (depth : Nat) (hflow : b.dataflow = b'.dataflow) :
        passWrite b' (s.atDepth depth) statement =
          if address = s.register then
            if isStore statement then
              follow b' (s.atDepth depth) value (Operand.isPointerType type)
            else follow b' (s.atDepth depth) value (Operand.isPointerType type) ++
              stay b' (s.atDepth depth)
          else if derivesFrom b address s.register then
            follow b' (s.atDepth depth) value (Operand.isPointerType type) ++
              stay b' (s.atDepth depth)
          else stay b' (s.atDepth depth) := by
      have hsome : (if (s.atDepth depth).isReference then written? statement else none) =
          some (type, value, address) := hwritten
      simp only [passWrite, hsome, ← derivesFrom_congr hflow]
      rfl
    have hstored := followsOperands_follow b s hvalue (Operand.isPointerType type)
    have hboth := followsOperands_follow_stay b s hvalue (Operand.isPointerType type)
    by_cases haddress : address = s.register
    · by_cases hstore : isStore statement
      · exact hstored.congr fun b' depth hflow => by
          rw [hpass b' depth hflow, if_pos haddress, if_pos hstore]
      · exact hboth.congr fun b' depth hflow => by
          rw [hpass b' depth hflow, if_pos haddress, if_neg hstore]
    · by_cases hderives : derivesFrom b address s.register
      · exact hboth.congr fun b' depth hflow => by
          rw [hpass b' depth hflow, if_neg haddress, if_pos hderives]
      · exact (followsOperands_stay b s _).congr fun b' depth hflow => by
          rw [hpass b' depth hflow, if_neg haddress, if_neg hderives]

theorem followsOperands_passMemoryIntrinsic (call : Call) (positions : List Nat) :
    FollowsOperands (call.arguments.map (·.value)) b s fun b s =>
      passMemoryIntrinsic b s call positions := by
  by_cases hhit : s.isReference && positions.contains 0
  · have hdepth (depth : Nat) : ((s.atDepth depth).isReference && positions.contains 0) = true :=
      hhit
    have hregister (depth : Nat) : (s.atDepth depth).register = s.register := rfl
    cases hsource : call.arguments[1]? with
    | none =>
      by_cases hwhole : call.arguments.head?.any fun target => names target.value s.register
      · refine (followsOperands_nil b s _).congr fun b' depth _ => ?_
        simp only [passMemoryIntrinsic, hdepth, hregister, hsource, hwhole, if_true]
      · refine (followsOperands_stay b s _).congr fun b' depth _ => ?_
        simp only [passMemoryIntrinsic, hdepth, hregister, hsource, if_true, if_neg hwhole,
          List.nil_append]
    | some source =>
      have hvalue : source.value ∈ call.arguments.map (·.value) :=
        List.mem_map_of_mem (List.mem_of_getElem? hsource)
      by_cases hwhole : call.arguments.head?.any fun target => names target.value s.register
      · refine (followsOperands_follow b s hvalue source.isReference).congr fun b' depth _ => ?_
        simp only [passMemoryIntrinsic, hdepth, hregister, hsource, hwhole, if_true]
      · refine (followsOperands_follow_stay b s hvalue source.isReference).congr
          fun b' depth _ => ?_
        simp only [passMemoryIntrinsic, hdepth, hregister, hsource, if_true, if_neg hwhole]
  · refine (followsOperands_stay b s _).congr fun b' depth _ => ?_
    have hdepth : ¬((s.atDepth depth).isReference && positions.contains 0) = true := hhit
    simp only [passMemoryIntrinsic, if_neg hdepth]

end Following

section Meeting

variable (p : Program) (b : Body) (s : TraceState)

-- The node defines the name.
def defines (b : Body) (s : TraceState) : Bool :=
  b.assignee? s.node == some s.register

-- A call that defines the name or receives it, by the name of a function that is not off limits.
structure Meets (call : Call) : Prop where
  found : b.call? s.node = some call
  concerned : defines b s = true ∨ receivingPositions b s call ≠ []
  allowed : p.isOffLimits (p.registry.resolve call.callee) = false
  direct : call.isDirect = true

theorem isOffLimits_of_isMemoryIntrinsic {callee : String} (h : isMemoryIntrinsic callee = true) :
    p.isOffLimits callee = true := by
  have hllvm : Text.startsWith callee "@llvm." = true := by
    simp only [isMemoryIntrinsic, List.any_cons, List.any_nil, Bool.or_false, Bool.or_eq_true,
      Text.startsWith, List.isPrefixOf_iff_prefix] at h ⊢
    rcases h with h | h | h
    · exact List.IsPrefix.trans (by decide) h
    · exact List.IsPrefix.trans (by decide) h
    · exact List.IsPrefix.trans (by decide) h
  simp [Program.isOffLimits, hllvm]

theorem receivingPositions_congr {b b' : Body} (h : b.dataflow = b'.dataflow) (s : TraceState)
    (depth : Nat) (call : Call) :
    receivingPositions b' (s.atDepth depth) call = receivingPositions b s call := by
  simp only [receivingPositions, derivesFrom_congr h]
  rfl

-- What a step does at a statement that is no call.
theorem step_of_not_call {σ : Type} (judge : Judge σ) {node : FlowNode} {statement : Statement}
    (hnode : b.graph.node? s.node = some node) (hstatement : node.statement = some statement)
    (hcall : statement.call? = none) (c : Candidates) :
    step p judge b s c =
      pure { next := if defines b s then passDefinition b s statement else passWrite b s statement
             candidates := c } := by
  have hdefines : defines b s = (node.assignee == some s.register) := by
    simp [defines, Body.assignee?, hnode]
  simp only [step, hnode, hstatement, hcall, hdefines]

-- What a step does at a call that it meets.
def meet {σ : Type} (judge : Judge σ) (b : Body) (s : TraceState) (call : Call) (isDefined : Bool)
    (positions : List Nat) (c : Candidates) : StateM σ TraceStep :=
  if (p.body? (p.registry.resolve call.callee)).isNone then
    pure { next := passCall b s call isDefined
           candidates := c.addUnscanned (p.registry.resolve call.callee) s.depth }
  else
    stepScannedCall judge b s call (p.registry.resolve call.callee) isDefined positions c

theorem stepCall_cases {call : Call} (hcall : b.call? s.node = some call) :
    (∃ next, FollowsOperands (call.arguments.map (·.value)) b s next ∧
      (∀ other, ¬Meets p b s other) ∧
      ∀ {σ : Type} (judge : Judge σ) b' depth c, b.dataflow = b'.dataflow →
        stepCall p judge b' (s.atDepth depth) call (defines b s) c =
          pure { next := next b' (s.atDepth depth), candidates := c }) ∨
    Meets p b s call ∧ ∀ {σ : Type} (judge : Judge σ) b' depth c, b.dataflow = b'.dataflow →
      stepCall p judge b' (s.atDepth depth) call (defines b s) c =
        meet p judge b' (s.atDepth depth) call (defines b s) (receivingPositions b s call) c := by
  have hother {other : Call} (h : Meets p b s other) : other = call :=
    Option.some.inj (h.found.symm.trans hcall)
  by_cases hidle : !defines b s && (receivingPositions b s call).isEmpty
  · refine .inl ⟨stay, followsOperands_stay b s _, ?_, ?_⟩
    · intro other h
      cases hother h
      have hconcerned := h.concerned
      simp_all
    · intro _ judge b' depth c hflow
      simp only [stepCall, receivingPositions_congr hflow, hidle, if_true]
  have hconcerned : defines b s = true ∨ receivingPositions b s call ≠ [] := by
    cases hdefines : defines b s with
    | true => exact .inl rfl
    | false => exact .inr (by simpa [hdefines] using hidle)
  by_cases hmemory : isMemoryIntrinsic (p.registry.resolve call.callee)
  · refine .inl ⟨fun b' s' => passMemoryIntrinsic b' s' call (receivingPositions b s call),
      followsOperands_passMemoryIntrinsic b s call _, ?_, ?_⟩
    · intro other h
      cases hother h
      have hallowed := h.allowed
      simp [isOffLimits_of_isMemoryIntrinsic p hmemory] at hallowed
    · intro _ judge b' depth c hflow
      simp only [stepCall, receivingPositions_congr hflow, if_neg hidle, hmemory, if_true]
  by_cases hlimits : p.isOffLimits (p.registry.resolve call.callee)
  · refine .inl ⟨fun b' s' => passCall b' s' call (defines b s),
      followsOperands_passCall b s call _, ?_, ?_⟩
    · intro other h
      cases hother h
      have hallowed := h.allowed
      simp [hlimits] at hallowed
    · intro _ judge b' depth c hflow
      simp only [stepCall, receivingPositions_congr hflow, if_neg hidle, if_neg hmemory, hlimits,
        if_true]
  by_cases hdirect : call.isDirect
  · refine .inr ⟨⟨hcall, hconcerned, by simpa using hlimits, hdirect⟩, ?_⟩
    intro _ judge b' depth c hflow
    simp only [stepCall, receivingPositions_congr hflow, if_neg hidle, if_neg hmemory,
      if_neg hlimits, hdirect, Bool.not_true, Bool.false_eq_true, if_false, meet]
  · refine .inl ⟨fun b' s' => passCall b' s' call (defines b s),
      followsOperands_passCall b s call _, ?_, ?_⟩
    · intro other h
      cases hother h
      exact hdirect h.direct
    · intro _ judge b' depth c hflow
      simp only [stepCall, receivingPositions_congr hflow, if_neg hidle, if_neg hmemory,
        if_neg hlimits, hdirect, Bool.not_false, if_true]

theorem usedValues_of_call? {statement : Statement} {call : Call}
    (h : statement.call? = some call) : statement.usedValues = call.arguments.map (·.value) := by
  cases statement with
  | call | invoke | callBranch =>
    cases h
    rfl
  | _ => cases h

theorem step_cases :
    (∃ next, FollowsOperands (b.usedAt s.node) b s next ∧ (∀ call, ¬Meets p b s call) ∧
      ∀ {σ : Type} (judge : Judge σ) b' depth c, Body.SameFlow b b' →
        step p judge b' (s.atDepth depth) c =
          pure { next := next b' (s.atDepth depth), candidates := c }) ∨
    ∃ call, Meets p b s call ∧
      ∀ {σ : Type} (judge : Judge σ) b' depth c, Body.SameFlow b b' →
      step p judge b' (s.atDepth depth) c =
        meet p judge b' (s.atDepth depth) call (defines b s) (receivingPositions b s call) c := by
  have hnowhere (hnone : b.call? s.node = none) (call : Call) : ¬Meets p b s call := by
    intro h
    rw [h.found] at hnone
    cases hnone
  cases hnode : b.graph.node? s.node with
  | none =>
    refine .inl ⟨fun _ _ => [], followsOperands_nil b s _, hnowhere ?_, ?_⟩
    · simp [Body.call?, Body.statement?, FlowGraph.statement?, hnode]
    · intro _ judge b' depth c hflow
      have hnode' : b'.graph.node? (s.atDepth depth).node = none := hflow.node?_eq_none hnode
      simp only [step, hnode']
  | some n =>
    have hdefines : (n.assignee == some s.register) = defines b s := by
      simp [defines, Body.assignee?, hnode]
    cases hstatement : n.statement with
    | none =>
      refine .inl ⟨stay, followsOperands_stay b s _, hnowhere ?_, ?_⟩
      · simp [Body.call?, Body.statement?, FlowGraph.statement?, hnode, hstatement]
      · intro _ judge b' depth c hflow
        obtain ⟨n', hn', hsame, -⟩ := hflow.node?_eq_some hnode
        have hnode' : b'.graph.node? (s.atDepth depth).node = some n' := hn'
        simp only [step, hnode', hsame, hstatement]
    | some statement =>
      have hused : b.usedAt s.node = statement.usedValues := by
        simp [Body.usedAt, Body.statement?, FlowGraph.statement?, hnode, hstatement]
      have hsame {b' : Body} (hflow : Body.SameFlow b b') (depth : Nat) :
          ∃ n', b'.graph.node? (s.atDepth depth).node = some n' ∧ n'.statement = some statement ∧
            (n'.assignee == some (s.atDepth depth).register) = defines b s := by
        obtain ⟨n', hn', hsame, hassignee⟩ := hflow.node?_eq_some hnode
        refine ⟨n', hn', hsame.trans hstatement, ?_⟩
        rw [hassignee]
        exact hdefines
      cases hcall : statement.call? with
      | none =>
        rw [hused]
        have hnone : b.call? s.node = none := by
          simp [Body.call?, Body.statement?, FlowGraph.statement?, hnode, hstatement, hcall]
        cases hd : defines b s with
        | true =>
          refine .inl ⟨_, followsOperands_passDefinition b s statement, hnowhere hnone, ?_⟩
          intro _ judge b' depth c hflow
          obtain ⟨n', hn', hstatement', hdefines'⟩ := hsame hflow depth
          simp only [step, hn', hstatement', hcall, hdefines', hd, if_true]
        | false =>
          refine .inl ⟨_, followsOperands_passWrite b s statement, hnowhere hnone, ?_⟩
          intro _ judge b' depth c hflow
          obtain ⟨n', hn', hstatement', hdefines'⟩ := hsame hflow depth
          simp only [step, hn', hstatement', hcall, hdefines', hd, Bool.false_eq_true, if_false]
      | some call =>
        rw [hused, usedValues_of_call? hcall]
        have hsome : b.call? s.node = some call := by
          simp [Body.call?, Body.statement?, FlowGraph.statement?, hnode, hstatement, hcall]
        have hstep {σ : Type} (judge : Judge σ) (b' : Body) (depth : Nat) (c : Candidates)
            (hflow : Body.SameFlow b b') : step p judge b' (s.atDepth depth) c =
              stepCall p judge b' (s.atDepth depth) call (defines b s) c := by
          obtain ⟨n', hn', hstatement', hdefines'⟩ := hsame hflow depth
          simp only [step, hn', hstatement', hcall, hdefines']
        rcases stepCall_cases p b s hsome with ⟨next, hnext, hnone, heq⟩ | ⟨hmeets, heq⟩
        · exact .inl ⟨next, hnext, hnone, fun judge b' depth c hflow =>
            (hstep judge b' depth c hflow).trans (heq judge b' depth c hflow.dataflow)⟩
        · exact .inr ⟨call, hmeets, fun judge b' depth c hflow =>
            (hstep judge b' depth c hflow).trans (heq judge b' depth c hflow.dataflow)⟩

end Meeting

section Outcome

variable {σ : Type} (p : Program) (judge : Judge σ) (b : Body) (s : TraceState)

-- The states that are queued at a call with a verdict of this kind.
def nextAfter (b : Body) (s : TraceState) (call : Call) (isDefined : Bool) :
    MutationKind → List TraceState
  | .mutator => []
  | .uncertain => followArguments b s call ++ if isDefined then [] else stay b s
  | .inspector => passCall b s call isDefined

-- The role in which a function with a verdict of this kind is a candidate.
def roleOf? : MutationKind → Option Role
  | .mutator => some .mutator
  | .uncertain => some .provisional
  | .inspector => none

theorem followsOperands_nextAfter (call : Call) (isDefined : Bool) (kind : MutationKind) :
    FollowsOperands (call.arguments.map (·.value)) b s fun b s =>
      nextAfter b s call isDefined kind := by
  cases kind with
  | mutator => exact followsOperands_nil b s _
  | uncertain =>
    cases isDefined with
    | true =>
      refine (followsOperands_followArguments b s call).congr fun b' depth _ => ?_
      simp only [nextAfter, if_true, List.append_nil]
    | false => exact followsOperands_followArguments_stay b s call
  | inspector => exact followsOperands_passCall b s call isDefined

-- A function with a body is seen as its verdict says.
theorem run_stepScannedCall (call : Call) (callee : String) (isDefined : Bool)
    (positions : List Nat) (c : Candidates) (st : σ) :
    (stepScannedCall judge b s call callee isDefined positions c).run st =
      let judged := (judgeCall judge s call callee isDefined positions).run st
      ({ next := nextAfter b s call isDefined judged.1.kind
         candidates := c.note (roleOf? judged.1.kind) callee s.depth }, judged.2) := by
  simp only [stepScannedCall, StateT.run_bind]
  generalize (judgeCall judge s call callee isDefined positions).run st = judged
  obtain ⟨⟨kind, isReturned⟩, st'⟩ := judged
  cases kind with
  | mutator => rfl
  | uncertain => rfl
  | inspector => rfl

theorem run_meet (call : Call) (isDefined : Bool) (positions : List Nat) (c : Candidates)
    (st : σ) :
    ∃ kind role, ((meet p judge b s call isDefined positions c).run st).1 =
      { next := nextAfter b s call isDefined kind
        candidates := c.note role (p.registry.resolve call.callee) s.depth } := by
  unfold meet
  split
  · exact ⟨.inspector, some .unscanned, rfl⟩
  · rw [run_stepScannedCall]
    exact ⟨_, _, rfl⟩

theorem usedAt_of_call? {b : Body} {node : Nat} {call : Call} (h : b.call? node = some call) :
    b.usedAt node = call.arguments.map (·.value) := by
  obtain ⟨statement, hstatement, hcall⟩ := Option.bind_eq_some_iff.mp h
  simp [Body.usedAt, hstatement, usedValues_of_call? hcall]

-- A step follows operands, and notes at most the function of a call that it meets.
theorem step_outcome (c : Candidates) (st : σ) :
    ∃ (moves : List (String × Bool)) (role : Option Role) (name : String),
      moves.length ≤ (b.usedAt s.node).length + 1 ∧
      (∀ move ∈ moves, move.1 = s.register ∨ move.1 ∈ b.usedAt s.node) ∧
      (role.isSome → ∃ call, Meets p b s call ∧ p.registry.resolve call.callee = name) ∧
      ((step p judge b s c).run st).1 =
        { next := moves.flatMap fun move => follow b s move.1 move.2
          candidates := c.note role name s.depth } := by
  have hflow := Body.SameFlow.refl b
  rcases step_cases p b s with ⟨next, hnext, -, hstep⟩ | ⟨call, hmeets, hstep⟩
  · obtain ⟨moves, hlength, hmoves, heq⟩ := hnext
    have hrun := congrArg (fun x => (x.run st).1) (hstep judge b s.depth c hflow)
    simp only [heq b s.depth rfl] at hrun
    exact ⟨moves, none, "", hlength, hmoves, by simp, hrun⟩
  · have hrun := congrArg (fun x => (x.run st).1) (hstep judge b s.depth c hflow)
    obtain ⟨kind, role, hmeet⟩ := run_meet p judge b (s.atDepth s.depth) call (defines b s)
      (receivingPositions b s call) c st
    obtain ⟨moves, hlength, hmoves, heq⟩ := followsOperands_nextAfter b s call (defines b s) kind
    rw [← usedAt_of_call? hmeets.found] at hlength hmoves
    have hnext := heq b s.depth rfl
    simp only at hnext
    rw [hnext] at hmeet
    exact ⟨moves, role, _, hlength, hmoves, fun _ => ⟨call, hmeets, rfl⟩, hrun.trans hmeet⟩

theorem mem_follow {b : Body} {s t : TraceState} {value : String} {isReference : Bool} :
    t ∈ follow b s value isReference ↔
      Operand.trackedName value = some t.register ∧ t.node ∈ b.graph.predecessors s.node ∧
        t.isReference = isReference ∧ t.depth = s.depth + 1 := by
  obtain ⟨register, node, reference, depth⟩ := t
  unfold follow
  split
  · next hnone => simp [hnone]
  · next name hname =>
    simp only [List.mem_map, TraceState.mk.injEq, hname, Option.some.injEq]
    constructor
    · rintro ⟨n, hn, rfl, rfl, rfl, rfl⟩
      exact ⟨rfl, hn, rfl, rfl⟩
    · rintro ⟨rfl, hn, rfl, rfl⟩
      exact ⟨node, hn, rfl, rfl, rfl, rfl⟩

end Outcome

end Trace

end TestFocus
