import TestFocus.Proofs.Trace.WalkBound

-- The walk back against the trace graph, for verdicts that are fixed beforehand. The vertices
-- are a node, the name followed there and whether it stands for memory; the edges are what a
-- step queues. The walk finds the mutators at the least distance, the functions without a body
-- up to that distance, and the uncertain ones if no mutator can be reached. So the order of
-- edges makes no difference.

namespace TestFocus

-- Verdicts that are fixed beforehand.
structure Verdicts where
  result : String → Verdict
  argument : Call → Nat → Verdict

def Verdicts.judge {σ : Type} (v : Verdicts) : Judge σ where
  result callee := pure (v.result callee)
  argument call index := pure (v.argument call index)

namespace Trace

section Sees

variable (p : Program) (v : Verdicts) (b : Body) (s : TraceState)

-- The verdicts on a call: on its result if the call defines the name, and on the arguments that
-- receive the name if it stands for memory.
def kindsOn (call : Call) : List MutationKind :=
  (if defines b s then [(v.result (p.registry.resolve call.callee)).kind] else []) ++
    if s.isReference then
      (receivingPositions b s call).map fun position => (v.argument call position).kind
    else []

-- A function as it is seen at a place.
inductive Sees : Role → String → Prop
  | mutator {call : Call} (meets : Meets p b s call)
      (scanned : (p.body? (p.registry.resolve call.callee)).isSome)
      (judged : .mutator ∈ kindsOn p v b s call) :
      Sees .mutator (p.registry.resolve call.callee)
  | unscanned {call : Call} (meets : Meets p b s call)
      (unknown : (p.body? (p.registry.resolve call.callee)).isNone) :
      Sees .unscanned (p.registry.resolve call.callee)
  | provisional {call : Call} (meets : Meets p b s call)
      (scanned : (p.body? (p.registry.resolve call.callee)).isSome)
      (innocent : .mutator ∉ kindsOn p v b s call)
      (judged : .uncertain ∈ kindsOn p v b s call) :
      Sees .provisional (p.registry.resolve call.callee)

def strongest (kinds : List MutationKind) : MutationKind :=
  if .mutator ∈ kinds then .mutator
  else if .uncertain ∈ kinds then .uncertain
  else .inspector

theorem strongest_merge_cons (kind other : MutationKind) (kinds : List MutationKind) :
    strongest (kind.merge other :: kinds) = strongest (kind :: other :: kinds) := by
  unfold strongest
  cases kind <;> cases other <;> simp [MutationKind.merge]

theorem run_judgeArguments {σ : Type} (call : Call) (positions : List Nat) (verdict : Verdict)
    (st : σ) :
    ((judgeArguments v.judge call positions verdict).run st).1.kind =
      strongest (verdict.kind ::
        positions.map fun position => (v.argument call position).kind) := by
  induction positions generalizing verdict with
  | nil =>
    have hrun : (judgeArguments v.judge call [] verdict).run st = (verdict, st) := rfl
    rw [hrun]
    cases hkind : verdict.kind <;> simp [strongest]
  | cons position rest ih =>
    have hrun : (judgeArguments v.judge call (position :: rest) verdict).run st =
        (judgeArguments v.judge call rest (verdict.merge (v.argument call position))).run st := rfl
    rw [hrun, ih, List.map_cons]
    exact strongest_merge_cons verdict.kind _ _

theorem run_judgeCall {σ : Type} (depth : Nat) (call : Call) (st : σ) :
    ((judgeCall v.judge (s.atDepth depth) call (p.registry.resolve call.callee) (defines b s)
      (receivingPositions b s call)).run st).1.kind = strongest (kindsOn p v b s call) := by
  have hrun (verdict : Verdict) :
      ((if s.isReference then judgeArguments v.judge call (receivingPositions b s call) verdict
        else pure verdict : StateM σ Verdict).run st).1.kind =
      strongest (verdict.kind :: if s.isReference then
        (receivingPositions b s call).map fun position => (v.argument call position).kind
        else []) := by
    cases s.isReference with
    | true => exact run_judgeArguments v call _ verdict st
    | false => exact run_judgeArguments v call [] verdict st
  have hinspector (kinds : List MutationKind) :
      strongest (.inspector :: kinds) = strongest kinds := by simp [strongest]
  unfold judgeCall kindsOn
  cases defines b s with
  | true => exact hrun (v.result (p.registry.resolve call.callee))
  | false => exact (hrun .inspector).trans (hinspector _)

-- The role in which the function of a call is seen.
def roleAt? (call : Call) : Option Role :=
  if (p.body? (p.registry.resolve call.callee)).isNone then some .unscanned
  else roleOf? (strongest (kindsOn p v b s call))

theorem Meets.sees_iff {call : Call} (h : Meets p b s call) (role : Role) (name : String) :
    Sees p v b s role name ↔
      roleAt? p v b s call = some role ∧ name = p.registry.resolve call.callee := by
  have hother {other : Call} (hmeets : Meets p b s other) : other = call :=
    Option.some.inj (hmeets.found.symm.trans h.found)
  constructor
  · rintro (⟨hmeets, hscanned, hjudged⟩ | ⟨hmeets, hunknown⟩ |
      ⟨hmeets, hscanned, hinnocent, hjudged⟩)
    · cases hother hmeets
      simp [roleAt?, Option.isSome_iff_ne_none.mp hscanned, strongest, hjudged, roleOf?]
    · cases hother hmeets
      simp [roleAt?, hunknown]
    · cases hother hmeets
      simp [roleAt?, Option.isSome_iff_ne_none.mp hscanned, strongest, hinnocent, hjudged, roleOf?]
  · rintro ⟨hrole, rfl⟩
    unfold roleAt? at hrole
    split at hrole
    · next hunknown =>
      cases hrole
      exact .unscanned h hunknown
    · next hscanned =>
      have hscanned : (p.body? (p.registry.resolve call.callee)).isSome := by
        simpa [Option.isSome_iff_ne_none] using hscanned
      by_cases hmutator : MutationKind.mutator ∈ kindsOn p v b s call
      · simp only [strongest, hmutator, if_true, roleOf?] at hrole
        cases hrole
        exact .mutator h hscanned hmutator
      · by_cases huncertain : MutationKind.uncertain ∈ kindsOn p v b s call
        · simp only [strongest, hmutator, huncertain, if_true, if_false, roleOf?] at hrole
          cases hrole
          exact .provisional h hscanned hmutator huncertain
        · simp only [strongest, hmutator, huncertain, if_false, roleOf?] at hrole
          cases hrole

theorem not_sees_of_not_meets (h : ∀ call, ¬Meets p b s call) (role : Role) (name : String) :
    ¬Sees p v b s role name := by
  rintro (⟨hmeets, -, -⟩ | ⟨hmeets, -⟩ | ⟨hmeets, -, -, -⟩) <;> exact h _ hmeets

-- What a step does with fixed verdicts. It depends on the place only.
theorem step_fixed :
    ∃ (moves : List (String × Bool)) (role : Option Role) (name : String),
      (∀ r n, Sees p v b s r n ↔ role = some r ∧ n = name) ∧
      ∀ {σ : Type} (b' : Body) (depth : Nat) (c : Candidates) (st : σ), Body.SameFlow b b' →
        ((step p v.judge b' (s.atDepth depth) c).run st).1 =
          { next := moves.flatMap fun move => follow b' (s.atDepth depth) move.1 move.2
            candidates := c.note role name depth } := by
  rcases step_cases p b s with ⟨next, hnext, hnone, hstep⟩ | ⟨call, hmeets, hstep⟩
  · obtain ⟨moves, -, -, heq⟩ := hnext
    refine ⟨moves, none, "", ?_, ?_⟩
    · intro r n
      simp [not_sees_of_not_meets p v b s hnone]
    · intro σ b' depth c st hflow
      rw [hstep v.judge b' depth c hflow, heq b' depth hflow.dataflow]
      rfl
  · cases hbody : (p.body? (p.registry.resolve call.callee)).isNone with
    | true =>
      obtain ⟨moves, -, -, heq⟩ := followsOperands_passCall b s call (defines b s)
      refine ⟨moves, some .unscanned, p.registry.resolve call.callee, ?_, ?_⟩
      · intro r n
        simp [hmeets.sees_iff, roleAt?, hbody]
      · intro σ b' depth c st hflow
        rw [hstep v.judge b' depth c hflow, ← heq b' depth hflow.dataflow]
        simp only [meet, hbody, if_true]
        rfl
    | false =>
      obtain ⟨moves, -, -, heq⟩ := followsOperands_nextAfter b s call (defines b s)
        (strongest (kindsOn p v b s call))
      refine ⟨moves, roleOf? (strongest (kindsOn p v b s call)), p.registry.resolve call.callee,
        ?_, ?_⟩
      · intro r n
        simp [hmeets.sees_iff, roleAt?, hbody]
      · intro σ b' depth c st hflow
        rw [hstep v.judge b' depth c hflow, ← heq b' depth hflow.dataflow]
        simp only [meet, hbody, Bool.false_eq_true, if_false, run_stepScannedCall, run_judgeCall]
        rfl

section Congruence

variable {p v b s} {b' : Body}

theorem defines_congr (h : Body.SameFlow b b') (depth : Nat) :
    defines b' (s.atDepth depth) = defines b s := by
  rw [defines, defines, ← h.assignee?_eq s.node]
  rfl

theorem Meets.congr {call : Call} (h : Body.SameFlow b b') (hmeets : Meets p b s call)
    (depth : Nat) : Meets p b' (s.atDepth depth) call where
  found := (h.call?_eq s.node).trans hmeets.found
  concerned := by
    rw [defines_congr h, receivingPositions_congr h.dataflow]
    exact hmeets.concerned
  allowed := hmeets.allowed
  direct := hmeets.direct

theorem kindsOn_congr (h : Body.SameFlow b b') (depth : Nat) (call : Call) :
    kindsOn p v b' (s.atDepth depth) call = kindsOn p v b s call := by
  rw [kindsOn, kindsOn, defines_congr h, receivingPositions_congr h.dataflow]
  rfl

theorem Sees.congr {t : TraceState} {role : Role} {name : String} (h : Body.SameFlow b b')
    (hplace : t.place = s.place) (hsees : Sees p v b s role name) : Sees p v b' t role name := by
  rw [TraceState.eq_atDepth hplace]
  cases hsees with
  | mutator hmeets hscanned hjudged =>
    rw [← kindsOn_congr h t.depth] at hjudged
    exact .mutator (hmeets.congr h t.depth) hscanned hjudged
  | unscanned hmeets hunknown => exact .unscanned (hmeets.congr h t.depth) hunknown
  | provisional hmeets hscanned hinnocent hjudged =>
    rw [← kindsOn_congr h t.depth] at hinnocent hjudged
    exact .provisional (hmeets.congr h t.depth) hscanned hinnocent hjudged

end Congruence

end Sees

section TraceGraph

variable (p : Program) (v : Verdicts) (b : Body) (start : TraceState)

-- The edges of the trace graph: at `x` a step queues a state at `y`.
def Leads (x y : Nat × String × Bool) : Prop :=
  ∃ s t : TraceState, s.place = x ∧ t.place = y ∧
    t ∈ ((step p v.judge b s .empty).run ()).1.next

-- There is a path of this length from the assertion.
inductive ReachedIn : Nat → Nat × String × Bool → Prop
  | start {t : TraceState} (ht : t ∈ stay b start) : ReachedIn 1 t.place
  | step {n : Nat} {x y : Nat × String × Bool} (hx : ReachedIn n x) (hy : Leads p v b x y) :
      ReachedIn (n + 1) y

def Distance (x : Nat × String × Bool) (d : Nat) : Prop :=
  IsLeast { n | ReachedIn p v b start n x } d

-- The least distance at which a mutator is seen.
def Nearest (d : Nat) : Prop :=
  IsLeast { n | ∃ s name, Distance p v b start s.place n ∧ Sees p v b s .mutator name } d

variable {p v b start}

theorem mem_next_iff {σ : Type} {s t : TraceState} {c : Candidates} {st : σ} :
    t ∈ ((step p v.judge b s c).run st).1.next ↔
      Leads p v b s.place t.place ∧ t.depth = s.depth + 1 := by
  obtain ⟨moves, role, name, -, hstep⟩ := step_fixed p v b s
  have hnext {σ : Type} (depth : Nat) (c : Candidates) (st : σ) (t : TraceState) :
      t ∈ ((step p v.judge b (s.atDepth depth) c).run st).1.next ↔
        ∃ move ∈ moves, Operand.trackedName move.1 = some t.register ∧
          t.node ∈ b.graph.predecessors s.node ∧ t.isReference = move.2 ∧ t.depth = depth + 1 := by
    rw [hstep b depth c st (.refl b), List.mem_flatMap]
    simp only [mem_follow]
    rfl
  constructor
  · intro ht
    obtain ⟨move, hmove, hregister, hnode, hreference, hdepth⟩ := (hnext s.depth c st t).mp ht
    refine ⟨⟨s, t, rfl, rfl, ?_⟩, hdepth⟩
    exact (hnext s.depth .empty () t).mpr ⟨move, hmove, hregister, hnode, hreference, hdepth⟩
  · rintro ⟨⟨s', t', hs, ht, hmem⟩, hdepth⟩
    rw [TraceState.eq_atDepth hs, hnext] at hmem
    rw [TraceState.place, TraceState.place, Prod.mk.injEq, Prod.mk.injEq] at ht
    obtain ⟨hnode', hregister', hreference'⟩ := ht
    obtain ⟨move, hmove, hregister, hnode, hreference, -⟩ := hmem
    rw [hnode'] at hnode
    rw [hregister'] at hregister
    rw [hreference'] at hreference
    exact (hnext s.depth c st t).mpr ⟨move, hmove, hregister, hnode, hreference, hdepth⟩

theorem ReachedIn.exists_distance {n : Nat} {x : Nat × String × Bool}
    (h : ReachedIn p v b start n x) : ∃ d ≤ n, Distance p v b start x d :=
  exists_isLeast_le h

end TraceGraph

section Invariant

variable (p : Program) (v : Verdicts) (b : Body) (start : TraceState)

-- What is seen at the places of a set, each at its distance.
def sightings (visited : Set (Nat × String × Bool)) : Set Sighting :=
  { x | ∃ s : TraceState, s.place ∈ visited ∧ Distance p v b start s.place x.distance ∧
    Sees p v b s x.role x.name }

-- A place at this distance was visited, will be, or lies beyond the nearest mutator.
def Pending (queue : List TraceState) (visited : List (Nat × String × Bool)) (c : Candidates)
    (n : Nat) (x : Nat × String × Bool) : Prop :=
  x ∈ visited ∨ (∃ t ∈ queue, t.place = x ∧ t.depth ≤ n) ∨ c.reaches n = false

structure Ahead (queue : List TraceState) (visited : List (Nat × String × Bool))
    (c : Candidates) : Prop where
  ordered : queue.Pairwise fun s t => s.depth ≤ t.depth ∧ t.depth ≤ s.depth + 1
  reached : ∀ s ∈ queue, ReachedIn p v b start s.depth s.place
  collects : c.Collects (sightings p v b start { x | x ∈ visited })
  started : ∀ t ∈ stay b start, Pending queue visited c 1 t.place
  closed : ∀ x ∈ visited, ∀ d y, Distance p v b start x d → Leads p v b x y →
    Pending queue visited c (d + 1) y

variable {p v b start} {queue : List TraceState} {visited : List (Nat × String × Bool)}
  {c : Candidates} {s : TraceState} {x : Nat × String × Bool} {n : Nat}

theorem Pending.drop (h : Pending (s :: queue) visited c n x)
    (hdropped : c.reaches s.depth = false ∨ s.place ∈ visited) : Pending queue visited c n x := by
  rcases h with hvisited | ⟨t, ht, hplace, hdepth⟩ | hbeyond
  · exact .inl hvisited
  · rcases List.mem_cons.mp ht with rfl | ht
    · rcases hdropped with hbeyond | hvisited
      · exact .inr (.inr (Candidates.reaches_eq_false_of_le hbeyond hdepth))
      · exact .inl (hplace ▸ hvisited)
    · exact .inr (.inl ⟨t, ht, hplace, hdepth⟩)
  · exact .inr (.inr hbeyond)

theorem Pending.expand {c' : Candidates} {next : List TraceState}
    (h : Pending (s :: queue) visited c n x)
    (hcutoff : c.reaches n = false → c'.reaches n = false) :
    Pending (queue ++ next) (s.place :: visited) c' n x := by
  rcases h with hvisited | ⟨t, ht, hplace, hdepth⟩ | hbeyond
  · exact .inl (List.mem_cons_of_mem _ hvisited)
  · rcases List.mem_cons.mp ht with rfl | ht
    · exact .inl (hplace ▸ List.mem_cons_self)
    · exact .inr (.inl ⟨t, List.mem_append_left _ ht, hplace, hdepth⟩)
  · exact .inr (.inr (hcutoff hbeyond))

-- By induction on the path: what follows a visited place was visited, waits, or lies too far.
theorem Ahead.visited_or (h : Ahead p v b start queue visited c)
    (hreached : ReachedIn p v b start n x) :
    x ∈ visited ∨ (∃ t ∈ queue, t.depth ≤ n) ∨ c.reaches n = false := by
  have hpending {n : Nat} {x : Nat × String × Bool} (hx : Pending queue visited c n x) :
      x ∈ visited ∨ (∃ t ∈ queue, t.depth ≤ n) ∨ c.reaches n = false := by
    rcases hx with hvisited | ⟨t, ht, -, hdepth⟩ | hbeyond
    · exact .inl hvisited
    · exact .inr (.inl ⟨t, ht, hdepth⟩)
    · exact .inr (.inr hbeyond)
  induction hreached with
  | start ht => exact hpending (h.started _ ht)
  | @step n x y hx hy ih =>
    rcases ih with hvisited | ⟨t, ht, hdepth⟩ | hbeyond
    · obtain ⟨d, hle, hdistance⟩ := hx.exists_distance
      rcases hpending (h.closed x hvisited d y hdistance hy) with
        hvisited | ⟨t, ht, hdepth⟩ | hbeyond
      · exact .inl hvisited
      · exact .inr (.inl ⟨t, ht, by omega⟩)
      · exact .inr (.inr (Candidates.reaches_eq_false_of_le hbeyond (by omega)))
    · exact .inr (.inl ⟨t, ht, by omega⟩)
    · exact .inr (.inr (Candidates.reaches_eq_false_of_le hbeyond (by omega)))

-- A state that is about to be left is at its distance, since nothing nearer is waiting.
theorem Ahead.distance_head (h : Ahead p v b start (s :: queue) visited c)
    (hreaches : c.reaches s.depth = true) (hnew : s.place ∉ visited) :
    Distance p v b start s.place s.depth := by
  refine ⟨h.reached s List.mem_cons_self, ?_⟩
  intro n hn
  by_contra hlt
  rcases h.visited_or hn with hvisited | ⟨t, ht, hdepth⟩ | hbeyond
  · exact hnew hvisited
  · rcases List.mem_cons.mp ht with rfl | ht
    · omega
    · have := (List.rel_of_pairwise_cons h.ordered ht).1
      omega
  · have hle : n ≤ s.depth := by omega
    simp [Candidates.reaches_eq_false_of_le hbeyond hle] at hreaches

theorem Ahead.drop (h : Ahead p v b start (s :: queue) visited c)
    (hdropped : c.reaches s.depth = false ∨ s.place ∈ visited) :
    Ahead p v b start queue visited c where
  ordered := h.ordered.of_cons
  reached t ht := h.reached t (List.mem_cons_of_mem _ ht)
  collects := h.collects
  started t ht := (h.started t ht).drop hdropped
  closed x hx d y hdistance hy := (h.closed x hx d y hdistance hy).drop hdropped

theorem sightings_cons (hdistance : Distance p v b start s.place s.depth) {role : Option Role}
    {name : String} (hsees : ∀ r n, Sees p v b s r n ↔ role = some r ∧ n = name) :
    sightings p v b start { x | x ∈ s.place :: visited } =
      { x | role = some x.role ∧ x.name = name ∧ x.distance = s.depth ∨
        x ∈ sightings p v b start { x | x ∈ visited } } := by
  ext x
  constructor
  · rintro ⟨t, ht, hx, hseen⟩
    rcases List.mem_cons.mp ht with hplace | ht
    · have hseen := (hsees x.role x.name).mp (hseen.congr (.refl b) hplace.symm)
      rw [hplace] at hx
      exact .inl ⟨hseen.1, hseen.2, hx.unique hdistance⟩
    · exact .inr ⟨t, ht, hx, hseen⟩
  · rintro (⟨hrole, hname, hx⟩ | ⟨t, ht, hx, hseen⟩)
    · exact ⟨s, List.mem_cons_self, hx ▸ hdistance, (hsees x.role x.name).mpr ⟨hrole, hname⟩⟩
    · exact ⟨t, List.mem_cons_of_mem _ ht, hx, hseen⟩

theorem Ahead.expand {σ : Type} (st : σ) (h : Ahead p v b start (s :: queue) visited c)
    (hreaches : c.reaches s.depth = true) (hnew : s.place ∉ visited) :
    Ahead p v b start (queue ++ ((step p v.judge b s c).run st).1.next) (s.place :: visited)
      ((step p v.judge b s c).run st).1.candidates := by
  have hdistance := h.distance_head hreaches hnew
  have hcollects : ((step p v.judge b s c).run st).1.candidates.Collects
      (sightings p v b start { x | x ∈ s.place :: visited }) := by
    obtain ⟨moves, role, name, hsees, hstep⟩ := step_fixed p v b s
    have hcandidates : ((step p v.judge b s c).run st).1.candidates = c.note role name s.depth :=
      congrArg TraceStep.candidates (hstep b s.depth c st (.refl b))
    rw [hcandidates, sightings_cons hdistance hsees]
    exact h.collects.note role name s.depth
  -- what is too far stays too far, as the nearest mutator only comes closer
  have hcutoff (n : Nat) (hn : c.reaches n = false) :
      ((step p v.judge b s c).run st).1.candidates.reaches n = false := by
    by_contra hreached
    have hnearer := (hcollects.reaches_iff n).mp (by simpa using hreached)
    have hbefore : c.reaches n = true := by
      rw [h.collects.reaches_iff]
      rintro name nearest ⟨t, ht, hx, hseen⟩
      exact hnearer name nearest ⟨t, List.mem_cons_of_mem _ ht, hx, hseen⟩
    simp [hn] at hbefore
  constructor
  case ordered =>
    refine List.pairwise_append.mpr ⟨h.ordered.of_cons, ?_, ?_⟩
    · apply List.pairwise_of_forall_mem_list
      intro t ht u hu
      have htdepth := (mem_next_iff.mp ht).2
      have hudepth := (mem_next_iff.mp hu).2
      omega
    · intro t ht u hu
      have horder := List.rel_of_pairwise_cons h.ordered ht
      have hudepth := (mem_next_iff.mp hu).2
      omega
  case reached =>
    intro t ht
    rcases List.mem_append.mp ht with ht | ht
    · exact h.reached t (List.mem_cons_of_mem _ ht)
    · obtain ⟨hleads, hdepth⟩ := mem_next_iff.mp ht
      rw [hdepth]
      exact .step hdistance.1 hleads
  case collects => exact hcollects
  case started => exact fun t ht => (h.started t ht).expand (hcutoff 1)
  case closed =>
    intro x hx d y hd hy
    rcases List.mem_cons.mp hx with rfl | hx
    · have ⟨_, t, _, hplace, _⟩ := hy
      subst hplace
      have ht : t.atDepth (s.depth + 1) ∈ ((step p v.judge b s c).run st).1.next :=
        mem_next_iff.mpr ⟨hy, rfl⟩
      rw [hd.unique hdistance]
      exact .inr (.inl ⟨_, List.mem_append_right _ ht, rfl, le_rfl⟩)
    · exact (h.closed x hx d y hd hy).expand (hcutoff (d + 1))

theorem ahead_start (hstart : start.depth = 0) :
    Ahead p v b start (stay b start) [] .empty := by
  have hdepth {t : TraceState} (ht : t ∈ stay b start) : t.depth = 1 := by
    rw [(mem_follow.mp ht).2.2.2, hstart]
  constructor
  case ordered =>
    apply List.pairwise_of_forall_mem_list
    intro t ht u hu
    have htdepth := hdepth ht
    have hudepth := hdepth hu
    omega
  case reached =>
    intro t ht
    rw [hdepth ht]
    exact .start ht
  case collects =>
    have hset : sightings p v b start { x | x ∈ [] } = ∅ := by
      simp [sightings]
    rw [hset]
    exact Candidates.collects_empty
  case started => exact fun t ht => .inr (.inl ⟨t, ht, rfl, (hdepth ht).le⟩)
  case closed => simp

end Invariant

section Result

variable (p : Program) (v : Verdicts) (b : Body) (start : TraceState)

-- When the queue is empty, all that lies within the nearest mutator was visited.
theorem Ahead.mem_focalMethods {p v b start} {visited : List (Nat × String × Bool)}
    {c : Candidates} (h : Ahead p v b start [] visited c) (name : String) :
    name ∈ c.focalMethods ↔ Candidates.Selected (sightings p v b start Set.univ) name := by
  apply h.collects.mem_focalMethods_of_reaches
  · rintro x ⟨s, -, hdistance, hsees⟩
    exact ⟨s, trivial, hdistance, hsees⟩
  · rintro x ⟨s, -, hdistance, hsees⟩ hreaches
    refine ⟨s, ?_, hdistance, hsees⟩
    rcases h.visited_or hdistance.1 with hvisited | ⟨t, ht, -⟩ | hbeyond
    · exact hvisited
    · cases ht
    · simp [hreaches] at hbeyond

theorem mem_focalMethods_run {σ : Type} (st : σ) (register : String) (isReference : Bool)
    (node : Nat) (name : String) :
    name ∈ ((focalMethods p v.judge b register isReference node).run st).1 ↔
      Candidates.Selected (sightings p v b ⟨register, node, isReference, 0⟩ Set.univ) name := by
  obtain ⟨visited, hend⟩ := walk_run p v.judge (Ahead p v b ⟨register, node, isReference, 0⟩) st
    (fun _ _ _ _ => Ahead.drop) (fun _ _ _ _ st => Ahead.expand st)
    (stepsSuffice_start ⟨register, node, isReference, 0⟩ rfl) (ahead_start rfl)
  exact hend.mem_focalMethods name

theorem pairwise_focalMethods_run {σ : Type} (st : σ) (register : String) (isReference : Bool)
    (node : Nat) :
    ((focalMethods p v.judge b register isReference node).run st).1.Pairwise (· < ·) :=
  Candidates.pairwise_focalMethods _

theorem exists_nearest {d : Nat} {name : String}
    (h : ⟨.mutator, name, d⟩ ∈ sightings p v b start Set.univ) :
    ∃ m ≤ d, Nearest p v b start m := by
  obtain ⟨s, -, hdistance, hsees⟩ := h
  exact exists_isLeast_le ⟨s, name, hdistance, hsees⟩

theorem noneNearer_iff (d : Nat) :
    Candidates.NoneNearer (sightings p v b start Set.univ) d ↔
      ∀ m, Nearest p v b start m → d ≤ m := by
  constructor
  · rintro h m ⟨⟨s, name, hdistance, hsees⟩, -⟩
    exact h name m ⟨s, trivial, hdistance, hsees⟩
  · intro h name nearest hseen
    obtain ⟨m, hle, hm⟩ := exists_nearest p v b start hseen
    exact (h m hm).trans hle

theorem selected_sightings_iff (name : String) :
    Candidates.Selected (sightings p v b start Set.univ) name ↔
      (∃ m s, Nearest p v b start m ∧ Distance p v b start s.place m ∧
        Sees p v b s .mutator name) ∨
      (∃ d s, Distance p v b start s.place d ∧ Sees p v b s .unscanned name ∧
        ∀ m, Nearest p v b start m → d ≤ m) ∨
      (∀ m, ¬Nearest p v b start m) ∧
        ∃ n s, ReachedIn p v b start n s.place ∧ Sees p v b s .provisional name := by
  have hmutator : (∃ d, ⟨.mutator, name, d⟩ ∈ sightings p v b start Set.univ ∧
      Candidates.NoneNearer (sightings p v b start Set.univ) d) ↔
      ∃ m s, Nearest p v b start m ∧ Distance p v b start s.place m ∧
        Sees p v b s .mutator name := by
    constructor
    · rintro ⟨d, ⟨s, -, hdistance, hsees⟩, hnearer⟩
      refine ⟨d, s, ⟨⟨s, name, hdistance, hsees⟩, ?_⟩, hdistance, hsees⟩
      rintro e ⟨t, other, ht, hother⟩
      exact hnearer other e ⟨t, trivial, ht, hother⟩
    · rintro ⟨m, s, hnearest, hdistance, hsees⟩
      refine ⟨m, ⟨s, trivial, hdistance, hsees⟩, (noneNearer_iff p v b start m).mpr ?_⟩
      intro e he
      exact (hnearest.unique he).le
  have hunscanned : (∃ d, ⟨.unscanned, name, d⟩ ∈ sightings p v b start Set.univ ∧
      Candidates.NoneNearer (sightings p v b start Set.univ) d) ↔
      ∃ d s, Distance p v b start s.place d ∧ Sees p v b s .unscanned name ∧
        ∀ m, Nearest p v b start m → d ≤ m := by
    constructor
    · rintro ⟨d, ⟨s, -, hdistance, hsees⟩, hnearer⟩
      exact ⟨d, s, hdistance, hsees, (noneNearer_iff p v b start d).mp hnearer⟩
    · rintro ⟨d, s, hdistance, hsees, hnearer⟩
      exact ⟨d, ⟨s, trivial, hdistance, hsees⟩, (noneNearer_iff p v b start d).mpr hnearer⟩
  have hnone : (∀ other d, ⟨.mutator, other, d⟩ ∉ sightings p v b start Set.univ) ↔
      ∀ m, ¬Nearest p v b start m := by
    constructor
    · rintro h m ⟨⟨s, other, hdistance, hsees⟩, -⟩
      exact h other m ⟨s, trivial, hdistance, hsees⟩
    · intro h other d hseen
      obtain ⟨m, -, hm⟩ := exists_nearest p v b start hseen
      exact h m hm
  have hprovisional : (∃ d, ⟨.provisional, name, d⟩ ∈ sightings p v b start Set.univ) ↔
      ∃ n s, ReachedIn p v b start n s.place ∧ Sees p v b s .provisional name := by
    constructor
    · rintro ⟨d, s, -, hdistance, hsees⟩
      exact ⟨d, s, hdistance.1, hsees⟩
    · rintro ⟨n, s, hreached, hsees⟩
      obtain ⟨d, -, hdistance⟩ := hreached.exists_distance
      exact ⟨d, s, trivial, hdistance, hsees⟩
  rw [Candidates.Selected, hmutator, hunscanned, hnone, hprovisional]

end Result

section OrderOfEdges

variable {p : Program} {v : Verdicts} {b b' : Body} {start : TraceState}

theorem Leads.congr {x y : Nat × String × Bool} (h : Body.SameFlow b b')
    (hxy : Leads p v b x y) : Leads p v b' x y := by
  obtain ⟨s, t, rfl, rfl, ht⟩ := hxy
  refine ⟨s, t, rfl, rfl, ?_⟩
  obtain ⟨moves, role, name, -, hstep⟩ := step_fixed p v b s
  have hb := hstep b s.depth .empty () (.refl b)
  have hb' := hstep b' s.depth .empty () h
  rw [show s.atDepth s.depth = s from rfl] at hb hb'
  rw [hb, List.mem_flatMap] at ht
  obtain ⟨move, hmove, ht⟩ := ht
  rw [hb', List.mem_flatMap]
  refine ⟨move, hmove, ?_⟩
  rw [mem_follow] at ht ⊢
  rw [← h.predecessors]
  exact ht

theorem ReachedIn.congr {n : Nat} {x : Nat × String × Bool} (h : Body.SameFlow b b')
    (hx : ReachedIn p v b start n x) : ReachedIn p v b' start n x := by
  induction hx with
  | start ht =>
    refine .start ?_
    rw [stay, mem_follow] at ht ⊢
    rw [← h.predecessors]
    exact ht
  | step _ hy ih => exact .step ih (hy.congr h)

theorem sightings_congr (h : Body.SameFlow b b') :
    sightings p v b start Set.univ = sightings p v b' start Set.univ := by
  have hreached (x : Nat × String × Bool) :
      { n | ReachedIn p v b start n x } = { n | ReachedIn p v b' start n x } := by
    ext n
    exact ⟨fun hn => hn.congr h, fun hn => hn.congr h.symm⟩
  ext x
  simp only [sightings, Distance, hreached]
  constructor
  · rintro ⟨s, -, hdistance, hsees⟩
    exact ⟨s, trivial, hdistance, hsees.congr h rfl⟩
  · rintro ⟨s, -, hdistance, hsees⟩
    exact ⟨s, trivial, hdistance, hsees.congr h.symm rfl⟩

end OrderOfEdges

-- The focal methods of one asserted value are the mutators at the least distance, the functions
-- without a body up to there, and the uncertain ones if no mutator can be reached.
theorem focalMethods_nearest (p : Program) (v : Verdicts) (b : Body) (register : String)
    (isReference : Bool) (node : Nat) {σ : Type} (st : σ) :
    let start : TraceState := ⟨register, node, isReference, 0⟩
    let found := ((focalMethods p v.judge b register isReference node).run st).1
    found.Pairwise (· < ·) ∧
    (∀ name, name ∈ found ↔
      (∃ m s, Nearest p v b start m ∧ Distance p v b start s.place m ∧
        Sees p v b s .mutator name) ∨
      (∃ d s, Distance p v b start s.place d ∧ Sees p v b s .unscanned name ∧
        ∀ m, Nearest p v b start m → d ≤ m) ∨
      (∀ m, ¬Nearest p v b start m) ∧
        ∃ n s, ReachedIn p v b start n s.place ∧ Sees p v b s .provisional name) ∧
    ∀ b', Body.SameFlow b b' →
      ((focalMethods p v.judge b' register isReference node).run st).1 = found := by
  intro start found
  refine ⟨pairwise_focalMethods_run p v b st register isReference node, ?_, ?_⟩
  · intro name
    rw [mem_focalMethods_run, selected_sightings_iff]
  · intro b' hflow
    apply eq_of_pairwise_lt (pairwise_focalMethods_run p v b' st register isReference node)
      (pairwise_focalMethods_run p v b st register isReference node)
    intro name
    rw [mem_focalMethods_run, mem_focalMethods_run, sightings_congr hflow]

-- Two calls that lead to one node, the edges that enter it in the order given.
def joined (entries : List Nat) : Body :=
  let calling (id : Nat) (callee : String) : FlowNode :=
    { id, name := callee, statement := some (.call { (default : Call) with
        callee, arguments := [{ type := "ptr", attributes := [], value := "%1" }] }) }
  { (default : Body) with
    graph := { FlowGraph.empty "@t" with
      nodes := #[calling 0 "@f", calling 1 "@g", { id := 2, name := "%2", incs := entries }]
      edges := #[{ source := 0, target := 2, label := none },
        { source := 1, target := 2, label := none }] } }

theorem sameFlow_joined : Body.SameFlow (joined [0, 1]) (joined [1, 0]) where
  dataflow := rfl
  node
    | 0 => rfl
    | 1 => rfl
    | 2 => rfl
    | _ + 3 => rfl
  predecessors
    | 0, _ => Iff.rfl
    | 1, _ => Iff.rfl
    | 2, n => by
      have hfirst : (joined [0, 1]).graph.predecessors 2 = [0, 1] := rfl
      have hsecond : (joined [1, 0]).graph.predecessors 2 = [1, 0] := rfl
      simp [hfirst, hsecond, or_comm]
    | _ + 3, _ => Iff.rfl

theorem focalMethods_nearest_joined :
    (joined [0, 1]).graph.predecessors 2 ≠ (joined [1, 0]).graph.predecessors 2 ∧
      ((focalMethods { registry := .empty, bodies := ∅, framework := .ofNames [] [], maxDepth := 1 }
        (Verdicts.judge ⟨fun _ => .uncertain, fun _ _ => .mutator⟩) (joined [1, 0]) "%1" true
          2).run ()).1 =
      ((focalMethods { registry := .empty, bodies := ∅, framework := .ofNames [] [], maxDepth := 1 }
        (Verdicts.judge ⟨fun _ => .uncertain, fun _ _ => .mutator⟩) (joined [0, 1]) "%1" true
          2).run ()).1 :=
  ⟨by decide, (focalMethods_nearest _ _ (joined [0, 1]) "%1" true 2 ()).2.2 _ sameFlow_joined⟩

end Trace

end TestFocus
