import TestFocus.Proofs.Mutation.Query
import TestFocus.Proofs.Mutation.Worklists

-- The classifier ends on every program, from every state of the memo table. What it does is
-- given here as rules with no bound on anything but the depth limit, which the program itself
-- checks: questions lead to questions one call further down, an inspection is repeated until its
-- answer agrees with the assumption, and the loops run until their worklists are empty. Every
-- query has a finite course by these rules, and it is the one that the classifier takes.

namespace TestFocus

namespace Verdict

-- Worse in its kind or in being returned, and better in neither.
structure Grows (v w : Verdict) : Prop where
  kind : v.kind.rank ≤ w.kind.rank
  returned : v.isReturned → w.isReturned
  changed : w ≠ v

-- How often an assumption has grown, at least, since the first one.
def growth (v : Verdict) : Nat :=
  v.kind.rank + v.isReturned.toNat

variable {v w : Verdict}

theorem grows_merge (h : v.merge w ≠ v) : Grows v (v.merge w) where
  kind := by simp [merge, MutationKind.rank_merge]
  returned hv := by simp [merge, hv]
  changed := h

theorem Grows.growth_lt (h : Grows v w) : v.growth < w.growth := by
  obtain ⟨kind, isReturned⟩ := v
  obtain ⟨kind', isReturned'⟩ := w
  obtain ⟨hkind, hreturned, hchanged⟩ := h
  cases kind <;> cases kind' <;> cases isReturned <;> cases isReturned' <;>
    simp_all [growth, MutationKind.rank]

theorem Grows.trans {u : Verdict} (h : Grows u v) (h' : Grows v w) : Grows u w where
  kind := h.kind.trans h'.kind
  returned hu := h'.returned (h.returned hu)
  changed := by
    rintro rfl
    exact absurd (h.growth_lt.trans h'.growth_lt) (lt_irrefl _)

-- What is not yet a mutation can grow twice.
theorem growth_le_two (h : v.kind ≠ .mutator) : v.growth ≤ 2 := by
  obtain ⟨kind, isReturned⟩ := v
  cases kind with
  | mutator => exact absurd rfl h
  | inspector => cases isReturned <;> decide
  | uncertain => cases isReturned <;> decide

theorem kind_merge_ne_mutator (hv : v.kind ≠ .mutator) (hw : w.kind ≠ .mutator) :
    (v.merge w).kind ≠ .mutator :=
  MutationKind.merge_ne_mutator hv hw

end Verdict

namespace Mutation

open Inquiry

-- One inspection of a body: what was assumed of the question, the names that each of its loops
-- handled, and what came of the questions that it asked.
structure Round (γ : Type) where
  assumed : Verdict
  walks : List (List String)
  asked : List γ

-- What comes of a question: an answer at once, or the inspections of a body.
inductive Course where
  | direct
  | opened (question : Question) (depth : Nat) (rounds : List (Round Course))

mutual

-- A question that is asked `depth` calls away from the search, in a state of the table.
inductive Performs (p : Program) : (depth : Nat) → Question → Memo → Course → Verdict → Memo → Prop
  | beyond {depth : Nat} {x : Question} {m : Memo} (far : p.maxDepth < depth) :
      Performs p depth x m .direct .uncertain m.recordTruncation
  | missing {depth : Nat} {x : Question} {m : Memo} (near : depth ≤ p.maxDepth)
      (unknown : p.body? x.function = none) :
      Performs p depth x m .direct .uncertain (m.recordHop 0)
  | pending {depth : Nat} {x : Question} {m : Memo} {body : Body} {assumed : Verdict}
      (near : depth ≤ p.maxDepth) (found : p.body? x.function = some body)
      (slot : m.slot? (x.about body.name) = some (.pending assumed)) :
      Performs p depth x m .direct assumed ((m.recordPending (x.about body.name)).recordHop 0)
  | known {depth height : Nat} {x : Question} {m : Memo} {body : Body} {v : Verdict}
      (near : depth ≤ p.maxDepth) (found : p.body? x.function = some body)
      (slot : m.slot? (x.about body.name) = some (.done v height))
      (reusable : depth + height ≤ p.maxDepth) :
      Performs p depth x m .direct v (m.recordHop height)
  | opened {depth : Nat} {x : Question} {m m' : Memo} {body : Body} {rounds : List (Round Course)}
      {closed : Opening} {v : Verdict}
      (near : depth ≤ p.maxDepth) (found : p.body? x.function = some body)
      (unanswered : ∀ slot, m.slot? (x.about body.name) = some slot →
        ∃ v height, slot = .done v height ∧ p.maxDepth < depth + height)
      (repeats : Repeats p depth body x m.openings.length .inspector m rounds closed v m') :
      Performs p depth x m (.opened (x.about body.name) depth rounds) v
        (m'.close (x.about body.name) (m.slot? (x.about body.name)) closed m.openings.length v)

-- The inspections of a question, the first one under the given assumption, with the opening that
-- the last one leaves.
inductive Repeats (p : Program) : (depth : Nat) → Body → Question → (position : Nat) →
    (assumed : Verdict) → Memo → List (Round Course) → Opening → Verdict → Memo → Prop
  | final {depth position : Nat} {body : Body} {x : Question} {assumed v : Verdict} {m m' : Memo}
      {round : Round Course} {closed : Opening}
      (once : RunsOnce p depth body x assumed m round closed v m')
      (acyclic : ¬(closed.low = some position ∧ v.kind ≠ .mutator)) :
      Repeats p depth body x position assumed m [round] closed v m'
  | stable {depth position : Nat} {body : Body} {x : Question} {assumed v : Verdict} {m m' : Memo}
      {round : Round Course} {closed : Opening}
      (once : RunsOnce p depth body x assumed m round closed v m')
      (cyclic : closed.low = some position ∧ v.kind ≠ .mutator)
      (agrees : assumed.merge v = assumed) :
      Repeats p depth body x position assumed m [round] closed assumed m'
  | again {depth position : Nat} {body : Body} {x : Question} {assumed v w : Verdict}
      {m m' m'' : Memo} {round : Round Course} {rounds : List (Round Course)}
      {closed last : Opening} (once : RunsOnce p depth body x assumed m round closed v m')
      (cyclic : closed.low = some position ∧ v.kind ≠ .mutator)
      (differs : assumed.merge v ≠ assumed)
      (rest : Repeats p depth body x position (assumed.merge v) m' rounds last w m'') :
      Repeats p depth body x position assumed m (round :: rounds) last w m''

-- One inspection. The question is open as long as it goes on.
inductive RunsOnce (p : Program) : (depth : Nat) → Body → Question → (assumed : Verdict) → Memo →
    Round Course → Opening → Verdict → Memo → Prop
  | inspected {depth : Nat} {body : Body} {x : Question} {assumed v : Verdict} {m m' m'' : Memo}
      {log : Log} {walks : List (List String)} {asked : List Course} {closed : Opening}
      (inspects : Inspects p body x log walks v)
      (asks : Asks p (depth + 1) (m.push (x.about body.name) assumed) log asked m')
      (popped : m'.pop = (closed, m'')) :
      RunsOnce p depth body x assumed m ⟨assumed, walks, asked⟩ closed v m''

-- Questions one after another, with the verdicts on them.
inductive Asks (p : Program) : (depth : Nat) → Memo → Log → List Course → Memo → Prop
  | nil {depth : Nat} {m : Memo} : Asks p depth m [] [] m
  | cons {depth : Nat} {m m' m'' : Memo} {x : Question} {v : Verdict} {log : Log} {c : Course}
      {courses : List Course} (first : Performs p depth x m c v m')
      (rest : Asks p depth m' log courses m'') :
      Asks p depth m ((x, v) :: log) (c :: courses) m''

end

-- The bounds on a course. The question is opened at its depth, within the limit, and inspected at
-- most three times, under assumptions that grow; the questions below it are opened one deeper.
inductive Course.Within (maxDepth : Nat) : Nat → Course → Prop
  | direct {depth : Nat} : Within maxDepth depth .direct
  | opened {depth : Nat} {question : Question} {rounds : List (Round Course)}
      (limit : depth ≤ maxDepth) (repeated : rounds.length ≤ 3)
      (grows : (rounds.map Round.assumed).Pairwise Verdict.Grows)
      (harmless : ∀ round ∈ rounds, round.assumed.kind ≠ .mutator)
      (once : ∀ round ∈ rounds, ∀ walk ∈ round.walks, walk.Nodup)
      (nested : ∀ round ∈ rounds, ∀ c ∈ round.asked, Within maxDepth (depth + 1) c) :
      Within maxDepth depth (.opened question depth rounds)

section Bounds

variable {p : Program}

-- Inspections under assumptions that grow, from the given one on.
structure Escalates (assumed : Verdict) (rounds : List (Round Course)) : Prop where
  length : rounds.length + assumed.growth ≤ 3
  grows : (rounds.map Round.assumed).Pairwise Verdict.Grows
  harmless : ∀ round ∈ rounds, round.assumed.kind ≠ .mutator
  least : ∀ round ∈ rounds, round.assumed = assumed ∨ assumed.Grows round.assumed

section Escalation

variable {assumed v : Verdict} {round : Round Course} {rounds : List (Round Course)}

theorem escalates_single (h : assumed.kind ≠ .mutator) (hround : round.assumed = assumed) :
    Escalates assumed [round] where
  length := by
    have hgrowth := Verdict.growth_le_two h
    simp only [List.length_singleton]
    omega
  grows := List.pairwise_singleton _ _
  harmless := List.forall_mem_singleton.mpr (hround ▸ h)
  least := List.forall_mem_singleton.mpr (.inl hround)

theorem Escalates.cons (h : Escalates (assumed.merge v) rounds) (hassumed : assumed.kind ≠ .mutator)
    (hround : round.assumed = assumed) (hdiffers : assumed.merge v ≠ assumed) :
    Escalates assumed (round :: rounds) := by
  have hgrows := Verdict.grows_merge hdiffers
  have hlater : ∀ other ∈ rounds, assumed.Grows other.assumed := by
    intro other hother
    obtain heq | hmore := h.least other hother
    · exact heq ▸ hgrows
    · exact hgrows.trans hmore
  constructor
  case length =>
    have hlength := h.length
    have hgrowth := hgrows.growth_lt
    simp only [List.length_cons]
    omega
  case grows =>
    refine List.pairwise_cons.mpr ⟨?_, h.grows⟩
    intro later hmem
    obtain ⟨other, hother, rfl⟩ := List.mem_map.mp hmem
    exact hround ▸ hlater other hother
  case harmless => exact List.forall_mem_cons.mpr ⟨hround ▸ hassumed, h.harmless⟩
  case least =>
    exact List.forall_mem_cons.mpr ⟨.inl hround, fun other hother => .inr (hlater other hother)⟩

end Escalation

theorem RunsOnce.assumed_eq {depth : Nat} {body : Body} {x : Question} {assumed v : Verdict}
    {m m' : Memo} {round : Round Course} {closed : Opening}
    (h : RunsOnce p depth body x assumed m round closed v m') : round.assumed = assumed := by
  cases h
  rfl

theorem Repeats.escalates {depth position : Nat} {body : Body} {x : Question}
    {assumed v : Verdict} {m m' : Memo} {rounds : List (Round Course)} {closed : Opening}
    (hassumed : assumed.kind ≠ .mutator) :
    Repeats p depth body x position assumed m rounds closed v m' → Escalates assumed rounds
  | .final honce _ => escalates_single hassumed honce.assumed_eq
  | .stable honce _ _ => escalates_single hassumed honce.assumed_eq
  | .again honce hcyclic hdiffers hrest =>
    have hmerged := Verdict.kind_merge_ne_mutator hassumed hcyclic.2
    (Repeats.escalates hmerged hrest).cons hassumed honce.assumed_eq hdiffers

mutual

theorem Performs.within {depth : Nat} {x : Question} {m m' : Memo} {c : Course} {v : Verdict} :
    Performs p depth x m c v m' → c.Within p.maxDepth depth
  | .beyond _ => .direct
  | .missing _ _ => .direct
  | .pending _ _ _ => .direct
  | .known _ _ _ _ => .direct
  | .opened hnear _ _ hrepeats =>
    have hescalates : Escalates .inspector _ := Repeats.escalates (by decide) hrepeats
    have hinspected := Repeats.within hrepeats
    .opened hnear hescalates.length hescalates.grows hescalates.harmless
      (fun round hround => (hinspected round hround).1)
      (fun round hround => (hinspected round hround).2)

theorem Repeats.within {depth position : Nat} {body : Body} {x : Question}
    {assumed v : Verdict} {m m' : Memo} {rounds : List (Round Course)} {closed : Opening} :
    Repeats p depth body x position assumed m rounds closed v m' →
      ∀ round ∈ rounds, (∀ walk ∈ round.walks, walk.Nodup) ∧
        ∀ c ∈ round.asked, c.Within p.maxDepth (depth + 1)
  | .final honce _ => List.forall_mem_singleton.mpr (RunsOnce.within honce)
  | .stable honce _ _ => List.forall_mem_singleton.mpr (RunsOnce.within honce)
  | .again honce _ _ hrest =>
    List.forall_mem_cons.mpr ⟨RunsOnce.within honce, Repeats.within hrest⟩

theorem RunsOnce.within {depth : Nat} {body : Body} {x : Question} {assumed v : Verdict}
    {m m' : Memo} {round : Round Course} {closed : Opening} :
    RunsOnce p depth body x assumed m round closed v m' →
      (∀ walk ∈ round.walks, walk.Nodup) ∧ ∀ c ∈ round.asked, c.Within p.maxDepth (depth + 1)
  | .inspected hinspects hasks _ => ⟨hinspects.nodup, Asks.within hasks⟩

theorem Asks.within {depth : Nat} {m m' : Memo} {log : Log} {courses : List Course} :
    Asks p depth m log courses m' → ∀ c ∈ courses, c.Within p.maxDepth depth
  | .nil => nofun
  | .cons hfirst hrest => List.forall_mem_cons.mpr ⟨Performs.within hfirst, Asks.within hrest⟩

end

end Bounds

section Uniqueness

variable {p : Program}

mutual

-- The rules leave no choice.
theorem Performs.unique {depth : Nat} {x : Question} {m m' m'' : Memo} {c c' : Course}
    {v v' : Verdict} :
    Performs p depth x m c v m' → Performs p depth x m c' v' m'' → c = c' ∧ v = v' ∧ m' = m''
  | .beyond hfar, h' => by
    cases h' with
    | beyond _ => exact ⟨rfl, rfl, rfl⟩
    | missing hnear _ | pending hnear _ _ | known hnear _ _ _ | opened hnear _ _ _ => omega
  | .missing hnear hunknown, h' => by
    cases h' with
    | beyond hfar => omega
    | missing _ _ => exact ⟨rfl, rfl, rfl⟩
    | pending _ hfound _ | known _ hfound _ _ | opened _ hfound _ _ => simp [hunknown] at hfound
  | .pending hnear hfound hslot, h' => by
    cases h' with
    | beyond hfar => omega
    | missing _ hunknown => simp [hunknown] at hfound
    | pending _ hfound' hslot' =>
      cases hfound.symm.trans hfound'
      cases hslot.symm.trans hslot'
      exact ⟨rfl, rfl, rfl⟩
    | known _ hfound' hslot' _ =>
      cases hfound.symm.trans hfound'
      cases hslot.symm.trans hslot'
    | opened _ hfound' hunanswered _ =>
      cases hfound.symm.trans hfound'
      obtain ⟨_, _, hdone, -⟩ := hunanswered _ hslot
      cases hdone
  | .known hnear hfound hslot hreusable, h' => by
    cases h' with
    | beyond hfar => omega
    | missing _ hunknown => simp [hunknown] at hfound
    | pending _ hfound' hslot' =>
      cases hfound.symm.trans hfound'
      cases hslot.symm.trans hslot'
    | known _ hfound' hslot' _ =>
      cases hfound.symm.trans hfound'
      cases hslot.symm.trans hslot'
      exact ⟨rfl, rfl, rfl⟩
    | opened _ hfound' hunanswered _ =>
      cases hfound.symm.trans hfound'
      obtain ⟨_, _, hdone, hfar⟩ := hunanswered _ hslot
      cases hdone
      omega
  | .opened hnear hfound hunanswered hrepeats, h' => by
    cases h' with
    | beyond hfar => omega
    | missing _ hunknown => simp [hunknown] at hfound
    | pending _ hfound' hslot =>
      cases hfound.symm.trans hfound'
      obtain ⟨_, _, hdone, -⟩ := hunanswered _ hslot
      cases hdone
    | known _ hfound' hslot hreusable =>
      cases hfound.symm.trans hfound'
      obtain ⟨_, _, hdone, hfar⟩ := hunanswered _ hslot
      cases hdone
      omega
    | opened _ hfound' _ hrepeats' =>
      cases hfound.symm.trans hfound'
      obtain ⟨rfl, rfl, rfl, rfl⟩ := Repeats.unique hrepeats hrepeats'
      exact ⟨rfl, rfl, rfl⟩
termination_by structural h => h

theorem Repeats.unique {depth position : Nat} {body : Body} {x : Question} {assumed v v' : Verdict}
    {m m' m'' : Memo} {rounds rounds' : List (Round Course)} {closed closed' : Opening} :
    Repeats p depth body x position assumed m rounds closed v m' →
      Repeats p depth body x position assumed m rounds' closed' v' m'' →
      rounds = rounds' ∧ closed = closed' ∧ v = v' ∧ m' = m''
  | .final honce hacyclic, h' => by
    cases h' with
    | final honce' _ =>
      obtain ⟨rfl, rfl, rfl, rfl⟩ := RunsOnce.unique honce honce'
      exact ⟨rfl, rfl, rfl, rfl⟩
    | stable honce' hcyclic _ | again honce' hcyclic _ _ =>
      obtain ⟨rfl, rfl, rfl, rfl⟩ := RunsOnce.unique honce honce'
      exact absurd hcyclic hacyclic
  | .stable honce hcyclic hagrees, h' => by
    cases h' with
    | final honce' hacyclic =>
      obtain ⟨rfl, rfl, rfl, rfl⟩ := RunsOnce.unique honce honce'
      exact absurd hcyclic hacyclic
    | stable honce' _ _ =>
      obtain ⟨rfl, rfl, rfl, rfl⟩ := RunsOnce.unique honce honce'
      exact ⟨rfl, rfl, rfl, rfl⟩
    | again honce' _ hdiffers _ =>
      obtain ⟨rfl, rfl, rfl, rfl⟩ := RunsOnce.unique honce honce'
      exact absurd hagrees hdiffers
  | .again honce hcyclic hdiffers hrest, h' => by
    cases h' with
    | final honce' hacyclic =>
      obtain ⟨rfl, rfl, rfl, rfl⟩ := RunsOnce.unique honce honce'
      exact absurd hcyclic hacyclic
    | stable honce' _ hagrees =>
      obtain ⟨rfl, rfl, rfl, rfl⟩ := RunsOnce.unique honce honce'
      exact absurd hagrees hdiffers
    | again honce' _ _ hrest' =>
      obtain ⟨rfl, rfl, rfl, rfl⟩ := RunsOnce.unique honce honce'
      obtain ⟨rfl, rfl, rfl, rfl⟩ := Repeats.unique hrest hrest'
      exact ⟨rfl, rfl, rfl, rfl⟩
termination_by structural h => h

theorem RunsOnce.unique {depth : Nat} {body : Body} {x : Question} {assumed v v' : Verdict}
    {m m' m'' : Memo} {round round' : Round Course} {closed closed' : Opening} :
    RunsOnce p depth body x assumed m round closed v m' →
      RunsOnce p depth body x assumed m round' closed' v' m'' →
      round = round' ∧ closed = closed' ∧ v = v' ∧ m' = m''
  | .inspected hinspects hasks hpopped, h' => by
    cases h' with
    | inspected hinspects' hasks' hpopped' =>
      obtain ⟨rfl, rfl, rfl, rfl⟩ := Asks.unique (leads_inspection_iff.mpr ⟨_, hinspects⟩)
        (leads_inspection_iff.mpr ⟨_, hinspects'⟩) hasks hasks'
      obtain rfl := hinspects.unique hinspects'
      cases hpopped.symm.trans hpopped'
      exact ⟨rfl, rfl, rfl, rfl⟩
termination_by structural h => h

theorem Asks.unique {depth : Nat} {m m' m'' : Memo} {log log' : Log}
    {courses courses' : List Course} {t : Inquiry Verdict} {v v' : Verdict}
    (hleads : Leads t log (.done v)) (hleads' : Leads t log' (.done v')) :
    Asks p depth m log courses m' → Asks p depth m log' courses' m'' →
      log = log' ∧ v = v' ∧ courses = courses' ∧ m' = m''
  | .nil, h' => by
    cases hleads
    obtain ⟨rfl, hv⟩ := leads_done_iff.mp hleads'
    cases hv
    cases h'
    exact ⟨rfl, rfl, rfl, rfl⟩
  | .cons hfirst hrest, h' => by
    cases hleads with
    | step hnext =>
      obtain ⟨_, later, rfl, hnext'⟩ := leads_ask_done_iff.mp hleads'
      cases h' with
      | cons hfirst' hrest' =>
        obtain ⟨rfl, rfl, rfl⟩ := Performs.unique hfirst hfirst'
        obtain ⟨rfl, rfl, rfl, rfl⟩ := Asks.unique hnext hnext' hrest hrest'
        exact ⟨rfl, rfl, rfl, rfl⟩
termination_by structural h => h

end

end Uniqueness

section Existence

variable {p : Program} {n depth : Nat}

-- The classifier, with this budget, does what the rules say at this depth.
def PerformedAt (p : Program) (n depth : Nat) : Prop :=
  ∀ x m, ∃ c v m', Performs p depth x m c v m' ∧ (p.ask n x).run m = (v, m')

theorem PerformedAt.asks {α : Type} (h : PerformedAt p n depth) (t : Inquiry α) (m : Memo) :
    ∃ log courses a m', Leads t log (.done a) ∧ Asks p depth m log courses m' ∧
      (t.run (p.ask n)).run m = (a, m') := by
  induction t generalizing m with
  | done a => exact ⟨[], [], a, m, .here _, .nil, rfl⟩
  | ask x next ih =>
    obtain ⟨c, v, m', hperforms, hrun⟩ := h x m
    obtain ⟨log, courses, a, m'', hleads, hasks, hrest⟩ := ih v m'
    refine ⟨(x, v) :: log, c :: courses, a, m'', .step hleads, .cons hperforms hasks, ?_⟩
    rw [← hrest]
    exact run_bind_of_run hrun

-- One inspection: it is the last one, or another one follows under a larger assumption.
theorem PerformedAt.round (h : PerformedAt p n (depth + 1)) (body : Body) (x : Question)
    (position : Nat) (assumed : Verdict) (m : Memo) :
    (∃ rounds closed v m', Repeats p depth body x position assumed m rounds closed v m' ∧
      ∀ retries, (settle (x.about body.name) position ((p.inspection body x).run (p.ask n)) retries
        assumed).run m = ((closed, v), m')) ∨
    ∃ v m', v.kind ≠ .mutator ∧ assumed.merge v ≠ assumed ∧
      (∀ rounds last w m'', Repeats p depth body x position (assumed.merge v) m' rounds last w m'' →
        ∃ first, Repeats p depth body x position assumed m (first :: rounds) last w m'') ∧
      ∀ retries, (settle (x.about body.name) position ((p.inspection body x).run (p.ask n))
          (retries + 1) assumed).run m =
        (settle (x.about body.name) position ((p.inspection body x).run (p.ask n)) retries
          (assumed.merge v)).run m' := by
  obtain ⟨log, asked, v, m', hleads, hasks, hrun⟩ :=
    h.asks (p.inspection body x) (m.push (x.about body.name) assumed)
  obtain ⟨walks, hinspects⟩ := leads_inspection_iff.mp hleads
  obtain ⟨closed, left, hpop⟩ : ∃ closed left, m'.pop = (closed, left) := ⟨_, _, rfl⟩
  have honce := RunsOnce.inspected hinspects hasks hpop
  by_cases hcyclic : closed.low = some position ∧ v.kind ≠ .mutator
  · have hif : (closed.low = some position && !v.kind.isMutator) = true := by
      simpa [MutationKind.isMutator] using hcyclic
    by_cases hagrees : assumed.merge v = assumed
    · refine .inl ⟨_, closed, assumed, left, .stable honce hcyclic hagrees, ?_⟩
      intro retries
      rw [run_settle_of_pop hrun hpop, if_pos hif, if_pos hagrees, hagrees]
    · refine .inr ⟨v, left, hcyclic.2, hagrees, ?_, ?_⟩
      · exact fun rounds last w m'' hrest => ⟨_, .again honce hcyclic hagrees hrest⟩
      · intro retries
        rw [run_settle_of_pop hrun hpop, if_pos hif, if_neg hagrees]
  · have hif : ¬(closed.low = some position && !v.kind.isMutator) = true := by
      simpa [MutationKind.isMutator] using hcyclic
    refine .inl ⟨_, closed, v, left, .final honce hcyclic, ?_⟩
    intro retries
    rw [run_settle_of_pop hrun hpop, if_neg hif]

-- The retries of the classifier are as many as the assumption can grow.
theorem PerformedAt.repeats (h : PerformedAt p n (depth + 1)) (body : Body) (x : Question)
    (position retries : Nat) (assumed : Verdict) (hassumed : assumed.kind ≠ .mutator)
    (henough : 2 ≤ assumed.growth + retries) (m : Memo) :
    ∃ rounds closed v m', Repeats p depth body x position assumed m rounds closed v m' ∧
      (settle (x.about body.name) position ((p.inspection body x).run (p.ask n)) retries
        assumed).run m = ((closed, v), m') := by
  induction retries generalizing assumed m with
  | zero =>
    obtain ⟨rounds, closed, v, m', hrepeats, hrun⟩ | ⟨v, m', hv, hdiffers, -, -⟩ :=
      h.round body x position assumed m
    · exact ⟨rounds, closed, v, m', hrepeats, hrun 0⟩
    · have hgrowth := (Verdict.grows_merge hdiffers).growth_lt
      have hmost := Verdict.growth_le_two (Verdict.kind_merge_ne_mutator hassumed hv)
      omega
  | succ retries ih =>
    obtain ⟨rounds, closed, v, m', hrepeats, hrun⟩ | ⟨v, m', hv, hdiffers, hagain, hrun⟩ :=
      h.round body x position assumed m
    · exact ⟨rounds, closed, v, m', hrepeats, hrun _⟩
    · have hgrowth := (Verdict.grows_merge hdiffers).growth_lt
      obtain ⟨rounds, last, w, m'', hrest, hnext⟩ :=
        ih (assumed.merge v) (Verdict.kind_merge_ne_mutator hassumed hv) (by omega) m'
      obtain ⟨first, hrepeats⟩ := hagain rounds last w m'' hrest
      exact ⟨first :: rounds, last, w, m'', hrepeats, (hrun retries).trans hnext⟩

-- A question about a function with a body is answered from the table, or by inspections.
theorem PerformedAt.memoized (h : PerformedAt p n (depth + 1)) (hn : p.budgetAt depth = n + 1)
    (x : Question) {body : Body} (hbody : p.body? x.function = some body) (m : Memo) :
    ∃ c v m', Performs p depth x m c v m' ∧ (p.ask (n + 1) x).run m = (v, m') := by
  have hnear : depth ≤ p.maxDepth := by
    simp only [Program.budgetAt, budgetFor] at hn
    omega
  have hreusable (height : Nat) : height < n + 1 ↔ depth + height ≤ p.maxDepth := by
    simp only [Program.budgetAt, budgetFor] at hn
    omega
  rw [Program.ask_of_body? hbody]
  have hinspected (hopen : ∀ assumed, m.slot? (x.about body.name) ≠ some (.pending assumed))
      (hknown : ∀ v height, m.slot? (x.about body.name) = some (.done v height) →
        ¬height < n + 1) :
      ∃ c v m', Performs p depth x m c v m' ∧
        (Mutation.memoized (x.about body.name) (n + 1) ((p.inspection body x).run (p.ask n))).run
          m = (v, m') := by
    obtain ⟨rounds, closed, v, m', hrepeats, hrun⟩ :=
      h.repeats body x m.openings.length 2 .inspector (by decide) (by decide) m
    refine ⟨_, v, _, .opened hnear hbody ?_ hrepeats,
      run_memoized_of_unanswered hopen hknown hrun⟩
    intro slot hslot
    cases slot with
    | pending assumed => exact absurd hslot (hopen assumed)
    | done v height =>
      have hheight := mt (hreusable height).mpr (hknown v height hslot)
      exact ⟨v, height, rfl, by omega⟩
  cases hslot : m.slot? (x.about body.name) with
  | none => exact hinspected (by simp [hslot]) (by simp [hslot])
  | some slot =>
    cases slot with
    | pending assumed =>
      exact ⟨_, assumed, _, .pending hnear hbody hslot, run_memoized_of_pending hslot⟩
    | done v height =>
      by_cases hheight : height < n + 1
      · exact ⟨_, v, _, .known hnear hbody hslot ((hreusable height).mp hheight),
          run_memoized_of_known hslot hheight⟩
      · refine hinspected (by simp [hslot]) ?_
        intro v' height' hslot'
        rw [hslot] at hslot'
        cases hslot'
        exact hheight

theorem performedAt_budgetAt (p : Program) {n depth : Nat} (hn : p.budgetAt depth = n) :
    PerformedAt p n depth := by
  induction n generalizing depth with
  | zero =>
    intro x m
    have hfar : p.maxDepth < depth := by
      simp only [Program.budgetAt, budgetFor] at hn
      omega
    exact ⟨.direct, .uncertain, m.recordTruncation, .beyond hfar, by rw [Program.ask_zero]; rfl⟩
  | succ n ih =>
    intro x m
    cases hbody : p.body? x.function with
    | none =>
      have hnear : depth ≤ p.maxDepth := by
        simp only [Program.budgetAt, budgetFor] at hn
        omega
      have htarget : p.target? x = none := by
        rw [Program.target?, hbody]
        rfl
      refine ⟨.direct, .uncertain, m.recordHop 0, .missing hnear hbody, ?_⟩
      rw [Program.ask_of_target?_none n htarget]
      rfl
    | some body =>
      have hbelow : PerformedAt p n (depth + 1) := by
        apply ih
        simp only [Program.budgetAt, budgetFor] at hn ⊢
        omega
      exact hbelow.memoized hn x hbody m

end Existence

end Mutation

open Mutation Inquiry

-- Every query ends, in every state of the table: there is one course by the rules, it keeps within
-- the bounds, and the classifier takes it.
theorem Query.exists_course (p : Program) (q : Query) (m : Memo) :
    ∃ log courses v m', (Leads (q.inquiry p) log (.done v) ∧
        Asks p q.depth m log courses m' ∧ (q.run p).run m = (v, m')) ∧
      (∀ c ∈ courses, c.Within p.maxDepth q.depth) ∧
      ∀ log' courses' v' m'', Leads (q.inquiry p) log' (.done v') →
        Asks p q.depth m log' courses' m'' →
        log' = log ∧ courses' = courses ∧ v' = v ∧ m'' = m' := by
  obtain ⟨log, courses, v, m', hleads, hasks, hrun⟩ :=
    (performedAt_budgetAt p rfl).asks (q.inquiry p) m
  refine ⟨log, courses, v, m', ⟨hleads, hasks, ?_⟩, hasks.within, ?_⟩
  · rw [q.run_eq p, hrun]
  · intro log' courses' v' m'' hleads' hasks'
    obtain ⟨hlog, hv, hcourses, hm⟩ := Asks.unique hleads' hleads hasks' hasks
    exact ⟨hlog, hcourses, hv, hm⟩

end TestFocus
