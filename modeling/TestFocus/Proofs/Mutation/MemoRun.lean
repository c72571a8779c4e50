import TestFocus.Proofs.Mutation.MemoTable

namespace TestFocus.Mutation

open Inquiry

-- A sequence goes on with the outcome of its first part.
theorem run_bind_of_run {σ α β : Type} {first : StateM σ α} {next : α → StateM σ β} {s s' : σ}
    {a : α} (h : first.run s = (a, s')) : (first >>= next).run s = (next a).run s' := by
  rw [StateT.run_bind, h]
  rfl

namespace Memo

theorem modifyTop_modifyTop (m : Memo) (f g : Opening → Opening) :
    (m.modifyTop f).modifyTop g = m.modifyTop (g ∘ f) := by
  obtain ⟨slots, openings⟩ := m
  cases openings <;> rfl

theorem recordHop_eq (m : Memo) (verdict : Verdict) (height : Nat) :
    m.recordHop height = m.modifyTop (·.absorb ⟨verdict, none, height, false⟩) := by
  simp only [recordHop, Opening.absorb, Bool.or_false]

theorem recordTruncation_eq (m : Memo) (verdict : Verdict) :
    m.recordTruncation = m.modifyTop (·.absorb ⟨verdict, none, 0, true⟩) := by
  simp only [recordTruncation, recordHop, modifyTop_modifyTop]
  congr 1
  funext o
  simp [Opening.absorb]

theorem recordPending_eq (m : Memo) (q : Question) (verdict : Verdict) {position : Nat}
    (h : positionOf q m.openings = some position) :
    (m.recordPending q).recordHop 0 =
      m.modifyTop (·.absorb ⟨verdict, some position, 0, false⟩) := by
  simp only [recordPending, h, recordHop, modifyTop_modifyTop]
  congr 1
  funext o
  simp [Opening.absorb]

theorem openings_abandon (m : Memo) (q : Question) (previous : Option Slot) (closed : Opening)
    (inCycle : Bool) :
    (m.abandon q previous closed inCycle).openings =
      onTop (fun o => { o with
        low := match inCycle, closed.low with
          | true, some p => lower o.low p
          | _, _ => o.low
        truncated := o.truncated || closed.truncated }) m.openings := by
  simp only [abandon, openings_modifyTop]
  rcases previous with _ | _ | _ <;> rfl

-- Closing fills the slot of the question and leaves a report on the opening around it.
theorem openings_close (m : Memo) (q : Question) (previous : Option Slot) (closed : Opening)
    (position : Nat) (verdict : Verdict) :
    (m.close q previous closed position verdict).openings =
      onTop (·.absorb (closed.report position verdict)) m.openings := by
  by_cases hfinal : isInsideCycle closed position || closed.truncated
  · simp only [close, hfinal, ite_true, recordHop, openings_modifyTop, openings_abandon,
      onTop_onTop]
    congr 1
    funext o
    cases hcycle : isInsideCycle closed position <;> cases hlow : closed.low <;>
      simp [Opening.absorb, Opening.report, hcycle, hlow]
  · obtain ⟨hcycle, htrunc⟩ := Bool.or_eq_false_iff.mp (Bool.not_eq_true _ ▸ hfinal)
    simp only [close, hcycle, htrunc, Bool.or_false, Bool.false_eq_true, ite_false, recordHop,
      openings_modifyTop, openings_put]
    congr 1
    funext o
    simp [Opening.absorb, Opening.report, hcycle, htrunc]

theorem slot?_close_of_ne (m : Memo) {q q' : Question} (previous : Option Slot) (closed : Opening)
    (position : Nat) (verdict : Verdict) (hne : q' ≠ q) :
    (m.close q previous closed position verdict).slot? q' = m.slot? q' := by
  simp only [close, slot?_recordHop]
  split
  · simp only [abandon, slot?_modifyTop]
    split <;> simp [hne]
  · simp [hne]

-- An answer that is not final leaves what was there before.
theorem slot?_close_self (m : Memo) (q : Question) (previous : Option Slot) (closed : Opening)
    (position : Nat) (verdict : Verdict) :
    (m.close q previous closed position verdict).slot? q =
      if isInsideCycle closed position || closed.truncated then
        match previous with
        | some (.done verdict height) => some (.done verdict height)
        | _ => none
      else some (.done verdict closed.height) := by
  simp only [close, slot?_recordHop]
  split
  · simp only [abandon, slot?_modifyTop]
    split <;> simp
  · simp

end Memo

-- The classifier answers a question in a consistent state, and the answer can be derived.
def Answers (p : Program) (stack : Stack) (budget : Nat) (x : Question) (m : Memo) : Prop :=
  ∃ r m', (p.ask budget x).run m = (r.verdict, m') ∧ Derives p stack (.answered budget x r) ∧
    m'.openings = Memo.onTop (·.absorb r) m.openings ∧ Consistent p (fun _ => True) m' stack

section

variable {p : Program} {stack : Stack} {budget : Nat} {x q : Question} {m : Memo}

-- An answer that is given at once.
theorem answers_of_modifyTop {r : Report} (hm : Consistent p (fun _ => True) m stack)
    (hderives : Derives p stack (.answered budget x r))
    (hrun : (p.ask budget x).run m = (r.verdict, m.modifyTop (·.absorb r))) :
    Answers p stack budget x m := by
  refine ⟨r, _, hrun, hderives, Memo.openings_modifyTop _ _, hm.congr ?_ ?_⟩
  · rw [Memo.openings_modifyTop]
    exact Memo.map_question_onTop (·.absorb r) (fun _ => rfl) _
  · intro q _
    exact Memo.slot?_modifyTop _ _ _

theorem answers_zero (hm : Consistent p (fun _ => True) m stack)
    (hasked : Derives p stack (.asked 0 x)) : Answers p stack 0 x m := by
  apply answers_of_modifyTop hm (.beyond hasked)
  rw [Program.ask_zero, ← Memo.recordTruncation_eq]
  rfl

theorem answers_missing (hm : Consistent p (fun _ => True) m stack)
    (hasked : Derives p stack (.asked (budget + 1) x)) (htarget : p.target? x = none) :
    Answers p stack (budget + 1) x m := by
  apply answers_of_modifyTop hm (.missing hasked htarget)
  rw [Program.ask_of_target?_none budget htarget, ← Memo.recordHop_eq]
  rfl

-- The position of an open question, from the openings.
theorem positionOf_openings {above below : Stack} {assumed : Verdict}
    (hm : Consistent p (fun _ => True) m (above ++ (q, assumed) :: below)) :
    Memo.positionOf q m.openings = some below.length := by
  have hmap := hm.openings
  rw [List.map_append, List.map_cons] at hmap
  obtain ⟨high, rest, hopenings, hhigh, hrest⟩ := List.map_eq_append_iff.mp hmap
  obtain ⟨o, low, rfl, ho, hlow⟩ := List.map_eq_cons_iff.mp hrest
  have hnodup := hm.nodup
  rw [List.map_append, List.map_cons, List.nodup_append] at hnodup
  have hnew : q ∉ high.map (·.question) := by
    rw [hhigh]
    intro hmem
    exact hnodup.2.2 q hmem q (by simp) rfl
  rw [hopenings, Memo.positionOf_eq q high low o ho hnew]
  have hlength := congrArg List.length hlow
  simpa using hlength

theorem run_memoized_of_pending {inspect : Classify Verdict} {assumed : Verdict}
    (hslot : m.slot? q = some (.pending assumed)) :
    (memoized q budget inspect).run m = (assumed, (m.recordPending q).recordHop 0) := by
  simp only [memoized, StateT.run_bind, StateT.run_get, pure_bind, hslot]
  rfl

theorem run_memoized_of_known {inspect : Classify Verdict} {verdict : Verdict} {height : Nat}
    (hslot : m.slot? q = some (.done verdict height)) (hheight : height < budget) :
    (memoized q budget inspect).run m = (verdict, m.recordHop height) := by
  simp only [memoized, StateT.run_bind, StateT.run_get, pure_bind, hslot, Slot.reusable?, hheight,
    ite_true]
  rfl

theorem answers_pending (hp : p.WellNamed) (hm : Consistent p (fun _ => True) m stack)
    (hasked : Derives p stack (.asked (budget + 1) x)) (htarget : p.target? x = some q)
    {assumed : Verdict} (hslot : m.slot? q = some (.pending assumed)) :
    Answers p stack (budget + 1) x m := by
  have hmem := (hm.pending q assumed trivial).mp hslot
  obtain ⟨above, below, rfl⟩ := List.append_of_mem hmem
  apply answers_of_modifyTop hm (.pending hasked htarget)
  rw [Program.ask_of_target?_some hp budget htarget,
    ← Memo.recordPending_eq m q assumed (positionOf_openings hm)]
  exact run_memoized_of_pending hslot

theorem answers_known (hp : p.WellNamed) (hm : Consistent p (fun _ => True) m stack)
    (hasked : Derives p stack (.asked (budget + 1) x)) (htarget : p.target? x = some q)
    {verdict : Verdict} {height : Nat} (hslot : m.slot? q = some (.done verdict height))
    (hheight : height < budget + 1) : Answers p stack (budget + 1) x m := by
  obtain ⟨other, budget', y, htarget', hanswered⟩ := hm.done q verdict height trivial hslot
  apply answers_of_modifyTop hm (.known hasked htarget htarget' hanswered hheight)
  rw [Program.ask_of_target?_some hp budget htarget, ← Memo.recordHop_eq]
  exact run_memoized_of_known hslot hheight

-- Running an inquiry collects reports on the opening of its question.
theorem run_inquiry_spec
    (hask : ∀ x m stack, Consistent p (fun _ => True) m stack →
      Derives p stack (.asked budget x) → Answers p stack budget x m)
    {assumed : Verdict} (hassumed : Derives p stack (.assumed budget q assumed))
    {below : List Opening} (t : Inquiry Verdict) :
    ∀ (reports : Reports) (m : Memo), Consistent p (fun _ => True) m ((q, assumed) :: stack) →
      m.openings = reports.opening q :: below →
      (∀ y r, (y, r) ∈ reports → Derives p ((q, assumed) :: stack) (.answered budget y r)) →
      Leads (p.inquiry q) reports.log t →
      ∃ (all : Reports) (verdict : Verdict) (m' : Memo),
        (t.run (p.ask budget)).run m = (verdict, m') ∧
        Consistent p (fun _ => True) m' ((q, assumed) :: stack) ∧
        m'.openings = all.opening q :: below ∧
        (∀ y r, (y, r) ∈ all → Derives p ((q, assumed) :: stack) (.answered budget y r)) ∧
        Leads (p.inquiry q) all.log (.done verdict) := by
  induction t with
  | done verdict =>
    intro reports m hm hopenings hreports hleads
    exact ⟨reports, verdict, m, rfl, hm, hopenings, hreports, hleads⟩
  | ask x next ih =>
    intro reports m hm hopenings hreports hleads
    have hasked := Derives.descend hassumed hreports hleads
    obtain ⟨r, m', hrun, hanswered, hopenings', hm'⟩ := hask x m _ hm hasked
    have hreports' : ∀ y s, (y, s) ∈ reports ++ [(x, r)] →
        Derives p ((q, assumed) :: stack) (.answered budget y s) := by
      intro y s hmem
      rcases List.mem_append.mp hmem with hmem | hmem
      · exact hreports y s hmem
      · cases List.mem_singleton.mp hmem
        exact hanswered
    have hleads' : Leads (p.inquiry q) (Reports.log (reports ++ [(x, r)])) (next r.verdict) := by
      rw [Reports.log_append]
      exact hleads.snoc r.verdict
    obtain ⟨all, verdict, m'', hrun', hrest⟩ := ih r.verdict (reports ++ [(x, r)]) m' hm'
      (by rw [hopenings', hopenings, Reports.opening_snoc]; rfl) hreports' hleads'
    refine ⟨all, verdict, m'', ?_, hrest⟩
    rw [← hrun']
    exact run_bind_of_run hrun

-- One inspection, and whether another one follows.
theorem run_settle_of_pop {inspect : Classify Verdict} {position retries : Nat}
    {assumed verdict : Verdict} {m' m'' : Memo} {closed : Opening}
    (hrun : inspect.run (m.push q assumed) = (verdict, m')) (hpop : m'.pop = (closed, m'')) :
    (settle q position inspect retries assumed).run m =
      if closed.low = some position && !verdict.kind.isMutator then
        if assumed.merge verdict = assumed then ((closed, assumed.merge verdict), m'')
        else match retries with
          | 0 => ((closed, assumed.merge verdict), m'')
          | retries + 1 => (settle q position inspect retries (assumed.merge verdict)).run m''
      else ((closed, verdict), m'') := by
  have hpush : (modify (·.push q assumed) : Classify PUnit).run m = (⟨⟩, m.push q assumed) := rfl
  have hpopped : (modifyGet (·.pop) : Classify Opening).run m' = (closed, m'') := hpop
  conv_lhs => rw [settle.eq_def]
  dsimp only
  rw [run_bind_of_run hpush, run_bind_of_run hrun, run_bind_of_run hpopped]
  split
  · split
    · rfl
    · cases retries <;> rfl
  · rfl

theorem run_settle {inspect : Classify Verdict} {position retries : Nat}
    {assumed verdict : Verdict} {m' : Memo} {closed : Opening} {below : List Opening}
    (hrun : inspect.run (m.push q assumed) = (verdict, m')) (hm' : m'.openings = closed :: below) :
    (settle q position inspect retries assumed).run m =
      if closed.low = some position && !verdict.kind.isMutator then
        if assumed.merge verdict = assumed then
          ((closed, assumed.merge verdict), { m' with openings := below })
        else match retries with
          | 0 => ((closed, assumed.merge verdict), { m' with openings := below })
          | retries + 1 =>
            (settle q position inspect retries (assumed.merge verdict)).run
              { m' with openings := below }
      else ((closed, verdict), { m' with openings := below }) := by
  have hpop : m'.pop = (closed, { m' with openings := below }) := by
    rw [Memo.pop, hm']
  exact run_settle_of_pop hrun hpop

-- The inspections of a question end with one whose verdict is kept.
theorem settle_spec
    (hask : ∀ x m stack, Consistent p (fun _ => True) m stack →
      Derives p stack (.asked budget x) → Answers p stack budget x m)
    (hnew : q ∉ stack.map Prod.fst) (retries : Nat) (assumed : Verdict)
    (hassumed : Derives p stack (.assumed budget q assumed)) (hm : Consistent p (· ≠ q) m stack) :
    ∃ (last : Verdict) (reports : Reports) (verdict : Verdict) (m' : Memo),
      (settle q stack.length ((p.inquiry q).run (p.ask budget)) retries assumed).run m =
        ((reports.opening q, (reports.opening q).settled stack.length last verdict), m') ∧
      Derives p stack (.assumed budget q last) ∧
      (∀ y r, (y, r) ∈ reports → Derives p ((q, last) :: stack) (.answered budget y r)) ∧
      Leads (p.inquiry q) reports.log (.done verdict) ∧
      m'.openings = m.openings ∧ Consistent p (· ≠ q) m' stack := by
  induction retries generalizing assumed m with
  | zero =>
    obtain ⟨reports, verdict, m', hrun, hm', hopenings, hreports, hleads⟩ :=
      run_inquiry_spec hask hassumed (p.inquiry q) [] (m.push q assumed) (hm.push hnew assumed) rfl
        (by simp) (.here _)
    refine ⟨assumed, reports, verdict, { m' with openings := m.openings }, ?_, hassumed, hreports,
      hleads, rfl, hm'.tail hopenings⟩
    rw [run_settle hrun hopenings, Opening.settled]
    split
    · exact ite_self _
    · rfl
  | succ retries ih =>
    obtain ⟨reports, verdict, m', hrun, hm', hopenings, hreports, hleads⟩ :=
      run_inquiry_spec hask hassumed (p.inquiry q) [] (m.push q assumed) (hm.push hnew assumed) rfl
        (by simp) (.here _)
    rw [run_settle hrun hopenings]
    by_cases hcycle : (reports.opening q).low = some stack.length && !verdict.kind.isMutator
    · by_cases hstable : assumed.merge verdict = assumed
      · refine ⟨assumed, reports, verdict, { m' with openings := m.openings }, ?_, hassumed,
          hreports, hleads, rfl, hm'.tail hopenings⟩
        rw [if_pos hcycle, if_pos hstable, Opening.settled, if_pos hcycle]
      · obtain ⟨hlow, hkind⟩ : (reports.opening q).low = some stack.length ∧
            verdict.kind ≠ .mutator := by
          simpa [MutationKind.isMutator] using hcycle
        obtain ⟨last, reports', verdict', m'', hrun', hrest⟩ := ih _
          (.retry hassumed hreports hleads hlow hkind) (hm'.tail hopenings)
        refine ⟨last, reports', verdict', m'', ?_, hrest⟩
        rw [if_pos hcycle, if_neg hstable]
        exact hrun'
    · refine ⟨assumed, reports, verdict, { m' with openings := m.openings }, ?_, hassumed, hreports,
        hleads, rfl, hm'.tail hopenings⟩
      rw [if_neg hcycle, Opening.settled, if_neg hcycle]

-- A question that the table does not answer is inspected, and the answer is filed.
theorem run_memoized_of_unanswered {inspect : Classify Verdict} {closed : Opening}
    {verdict : Verdict} {m' : Memo}
    (hopen : ∀ assumed, m.slot? q ≠ some (.pending assumed))
    (hknown : ∀ verdict height, m.slot? q = some (.done verdict height) → ¬height < budget)
    (hrun : (settle q m.openings.length inspect 2 .inspector).run m = ((closed, verdict), m')) :
    (memoized q budget inspect).run m =
      (verdict, m'.close q (m.slot? q) closed m.openings.length verdict) := by
  have hanew : (memoized q budget inspect).run m =
      (memoized.inspectAnew q inspect (m.slot? q)).run m := by
    simp only [memoized, StateT.run_bind, StateT.run_get, pure_bind]
    split
    · next assumed hslot => exact absurd hslot (hopen assumed)
    · next verdict height hslot => rw [Slot.reusable?, if_neg (hknown verdict height hslot)]
    · rfl
  rw [hanew]
  simp only [memoized.inspectAnew, StateT.run_bind, StateT.run_get, pure_bind, hrun]
  rfl

-- A question that is neither open nor known well enough is inspected.
theorem answers_inspected (hp : p.WellNamed)
    (hask : ∀ x m stack, Consistent p (fun _ => True) m stack →
      Derives p stack (.asked budget x) → Answers p stack budget x m)
    (hm : Consistent p (fun _ => True) m stack)
    (hasked : Derives p stack (.asked (budget + 1) x)) (htarget : p.target? x = some q)
    (hopen : ∀ assumed, m.slot? q ≠ some (.pending assumed))
    (hknown : ∀ verdict height, m.slot? q = some (.done verdict height) → ¬height < budget + 1) :
    Answers p stack (budget + 1) x m := by
  have hnew : q ∉ stack.map Prod.fst := by
    intro hmem
    obtain ⟨⟨q', assumed⟩, hentry, rfl⟩ := List.mem_map.mp hmem
    exact hopen assumed ((hm.pending q' assumed trivial).mpr hentry)
  have hposition : m.openings.length = stack.length := by
    simpa using congrArg List.length hm.openings
  obtain ⟨last, reports, verdict, m', hrun, hassumed, hreports, hleads, hopenings, hm'⟩ :=
    settle_spec hask hnew 2 .inspector (.assume hasked htarget hnew)
      (hm.mono fun q' _ => trivial)
  have hanswered := Derives.inspected hasked htarget hassumed hreports hleads
  refine ⟨_, m'.close q (m.slot? q) (reports.opening q) stack.length
    ((reports.opening q).settled stack.length last verdict), ?_, hanswered, ?_, ?_⟩
  · rw [Program.ask_of_target?_some hp budget htarget]
    rw [← hposition] at hrun ⊢
    exact run_memoized_of_unanswered hopen hknown hrun
  · rw [Memo.openings_close, hopenings]
  · apply hm'.fill hnew
    · intro q' hne
      exact Memo.slot?_close_of_ne _ _ _ _ _ hne
    · rw [Memo.openings_close]
      exact Memo.map_question_onTop (·.absorb _) (fun _ => rfl) _
    · intro s hs
      rw [Memo.slot?_close_self] at hs
      by_cases hfinal : Memo.isInsideCycle (reports.opening q) stack.length ||
          (reports.opening q).truncated
      · rw [if_pos hfinal] at hs
        split at hs
        · next verdict height hslot =>
          cases hs
          exact ⟨verdict, height, rfl, hm.done q verdict height trivial hslot⟩
        · cases hs
      · rw [if_neg hfinal] at hs
        cases hs
        obtain ⟨hcycle, htrunc⟩ := Bool.or_eq_false_iff.mp (Bool.not_eq_true _ ▸ hfinal)
        refine ⟨_, _, rfl, stack, budget + 1, x, htarget, ?_⟩
        simpa only [Opening.report, hcycle, htrunc, Bool.false_eq_true, ite_false] using hanswered

-- Whatever the classifier answers can be derived.
theorem ask_answers (hp : p.WellNamed) (hm : Consistent p (fun _ => True) m stack)
    (hasked : Derives p stack (.asked budget x)) : Answers p stack budget x m := by
  induction budget generalizing x m stack with
  | zero => exact answers_zero hm hasked
  | succ budget ih =>
    cases htarget : p.target? x with
    | none => exact answers_missing hm hasked htarget
    | some q =>
      have hask (x : Question) (m : Memo) (stack : Stack)
          (hm : Consistent p (fun _ => True) m stack)
          (hasked : Derives p stack (.asked budget x)) : Answers p stack budget x m := ih hm hasked
      cases hslot : m.slot? q with
      | none =>
        exact answers_inspected hp hask hm hasked htarget (by simp [hslot]) (by simp [hslot])
      | some s =>
        cases s with
        | pending assumed => exact answers_pending hp hm hasked htarget hslot
        | done verdict height =>
          by_cases hheight : height < budget + 1
          · exact answers_known hp hm hasked htarget hslot hheight
          · apply answers_inspected hp hask hm hasked htarget (by simp [hslot])
            intro verdict' height' hslot'
            rw [hslot] at hslot'
            cases hslot'
            exact hheight

end

end TestFocus.Mutation
