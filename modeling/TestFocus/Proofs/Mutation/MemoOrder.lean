import TestFocus.Proofs.Mutation.Watching

namespace TestFocus.Mutation

namespace Memo

def IsPending (m : Memo) (q : Question) : Prop :=
  ∃ assumed, m.slot? q = some (.pending assumed)

def IsDone (m : Memo) (q : Question) : Prop :=
  ∃ verdict height, m.slot? q = some (.done verdict height)

-- The open questions, the innermost first.
def openQuestions (m : Memo) : List Question :=
  m.openings.map (·.question)

-- Every question has at most one slot and one opening, and is open exactly while its slot is
-- pending.
structure Orderly (m : Memo) : Prop where
  slots : (m.slots.map Prod.fst).Nodup
  openings : m.openQuestions.Nodup
  pending : ∀ q, m.IsPending q ↔ q ∈ m.openQuestions

-- The same for a table with one question that is not open, whatever its slot says.
structure OrderlyBut (q : Question) (m : Memo) : Prop where
  slots : (m.slots.map Prod.fst).Nodup
  openings : m.openQuestions.Nodup
  closed : q ∉ m.openQuestions
  pending : ∀ q', q' ≠ q → (m.IsPending q' ↔ q' ∈ m.openQuestions)

-- The second table has the open questions of the first one and all its answers.
structure Continues (m m' : Memo) : Prop where
  openings : m'.openQuestions = m.openQuestions
  done : ∀ q, m.IsDone q → m'.IsDone q

-- The same apart from the answer to one question.
structure ContinuesBut (q : Question) (m m' : Memo) : Prop where
  openings : m'.openQuestions = m.openQuestions
  done : ∀ q', q' ≠ q → m.IsDone q' → m'.IsDone q'

variable {m m' m'' : Memo} {q : Question}

theorem orderly_empty : Memo.empty.Orderly where
  slots := List.nodup_nil
  openings := List.nodup_nil
  pending q := by
    constructor
    · rintro ⟨assumed, hslot⟩
      cases hslot
    · intro hopen
      cases hopen

theorem continues_refl (m : Memo) : m.Continues m :=
  ⟨rfl, fun _ => id⟩

theorem Continues.trans (h : m.Continues m') (h' : m'.Continues m'') : m.Continues m'' where
  openings := h'.openings.trans h.openings
  done q hq := h'.done q (h.done q hq)

theorem ContinuesBut.trans (h : m.ContinuesBut q m') (h' : m'.ContinuesBut q m'') :
    m.ContinuesBut q m'' where
  openings := h'.openings.trans h.openings
  done q' hne hq' := h'.done q' hne (h.done q' hne hq')

theorem IsDone.not_isPending (h : m.IsDone q) : ¬ m.IsPending q := by
  rintro ⟨assumed, hpending⟩
  obtain ⟨verdict, height, hdone⟩ := h
  rw [hdone] at hpending
  cases hpending

theorem slots_modifyTop (m : Memo) (f : Opening → Opening) : (m.modifyTop f).slots = m.slots := by
  unfold modifyTop
  split <;> rfl

theorem openQuestions_modifyTop (m : Memo) {f : Opening → Opening}
    (hf : ∀ o, (f o).question = o.question) : (m.modifyTop f).openQuestions = m.openQuestions := by
  rw [openQuestions, openings_modifyTop]
  exact map_question_onTop f hf m.openings

-- Only the slots and the open questions count.
theorem Orderly.congr (h : m.Orderly) (hslots : m'.slots = m.slots)
    (hopen : m'.openQuestions = m.openQuestions) : m'.Orderly where
  slots := hslots ▸ h.slots
  openings := hopen ▸ h.openings
  pending q := by
    rw [IsPending, slot?, hslots, hopen]
    exact h.pending q

theorem continues_of_eq (hslots : m'.slots = m.slots)
    (hopen : m'.openQuestions = m.openQuestions) : m.Continues m' where
  openings := hopen
  done q hq := by
    rw [IsDone, slot?, hslots]
    exact hq

-- The changes of the table that add no more than a note to the innermost opening.
structure NotesOnly (f : Memo → Memo) : Prop where
  slots : ∀ m, (f m).slots = m.slots
  openings : ∀ m, (f m).openQuestions = m.openQuestions

theorem notesOnly_recordHop (below : Nat) : NotesOnly (·.recordHop below) :=
  ⟨fun m => slots_modifyTop m _, fun m => openQuestions_modifyTop m fun _ => rfl⟩

theorem notesOnly_recordTruncation : NotesOnly recordTruncation where
  slots m := (slots_modifyTop _ _).trans (slots_modifyTop m _)
  openings m := ((notesOnly_recordHop 0).openings _).trans
    (openQuestions_modifyTop m (f := fun o => { o with truncated := true }) fun _ => rfl)

theorem notesOnly_recordPending (q : Question) :
    NotesOnly fun m => (m.recordPending q).recordHop 0 := by
  have hread (m : Memo) : (m.recordPending q).slots = m.slots ∧
      (m.recordPending q).openQuestions = m.openQuestions := by
    unfold recordPending
    split
    · exact ⟨slots_modifyTop m _, openQuestions_modifyTop m fun _ => rfl⟩
    · exact ⟨rfl, rfl⟩
  exact ⟨fun m => ((notesOnly_recordHop 0).slots _).trans (hread m).1,
    fun m => ((notesOnly_recordHop 0).openings _).trans (hread m).2⟩

theorem nodup_put (h : (m.slots.map Prod.fst).Nodup) (q : Question) (s : Slot) :
    ((m.put q s).slots.map Prod.fst).Nodup := by
  rw [put, List.map_cons, List.nodup_cons]
  refine ⟨?_, (List.filter_sublist.map Prod.fst).nodup h⟩
  simp

theorem nodup_erase (h : (m.slots.map Prod.fst).Nodup) (q : Question) :
    ((m.erase q).slots.map Prod.fst).Nodup :=
  (List.filter_sublist.map Prod.fst).nodup h

theorem nodup_close (h : (m.slots.map Prod.fst).Nodup) (q : Question) (previous : Option Slot)
    (closed : Opening) (position : Nat) (verdict : Verdict) :
    ((m.close q previous closed position verdict).slots.map Prod.fst).Nodup := by
  simp only [close, recordHop, slots_modifyTop]
  split
  · simp only [abandon, slots_modifyTop]
    split
    · exact nodup_put h q _
    · exact nodup_erase h q
  · exact nodup_put h q _

theorem openQuestions_close (m : Memo) (q : Question) (previous : Option Slot) (closed : Opening)
    (position : Nat) (verdict : Verdict) :
    (m.close q previous closed position verdict).openQuestions = m.openQuestions := by
  rw [openQuestions, openings_close]
  exact map_question_onTop (·.absorb (closed.report position verdict)) (fun _ => rfl) m.openings

theorem Orderly.but (h : m.Orderly) (hq : ¬ m.IsPending q) : m.OrderlyBut q where
  slots := h.slots
  openings := h.openings
  closed hopen := hq ((h.pending q).mpr hopen)
  pending q' _ := h.pending q'

theorem OrderlyBut.push (h : m.OrderlyBut q) (assumed : Verdict) : (m.push q assumed).Orderly where
  slots := nodup_put h.slots q _
  openings := List.nodup_cons.mpr ⟨h.closed, h.openings⟩
  pending q' := by
    have hopen : (m.push q assumed).openQuestions = q :: m.openQuestions := rfl
    rw [IsPending, slot?_push, hopen, List.mem_cons]
    by_cases hq' : q' = q
    · simp [hq']
    · rw [if_neg hq', or_iff_right hq']
      exact h.pending q' hq'

theorem OrderlyBut.pop (h : m.Orderly) {closed : Opening} {below : List Opening}
    (hopenings : m.openings = closed :: below) (hq : closed.question = q) :
    OrderlyBut q { m with openings := below } := by
  have hopen : m.openQuestions = q :: below.map (·.question) := by
    rw [openQuestions, hopenings, List.map_cons, hq]
  have hnodup := h.openings
  rw [hopen, List.nodup_cons] at hnodup
  refine ⟨h.slots, hnodup.2, hnodup.1, fun q' hq' => ?_⟩
  have hpending := h.pending q'
  rw [hopen, List.mem_cons, or_iff_right hq'] at hpending
  exact hpending

-- However a question is closed, its slot does not stay pending.
theorem OrderlyBut.close (h : m.OrderlyBut q) (previous : Option Slot) (closed : Opening)
    (position : Nat) (verdict : Verdict) :
    (m.close q previous closed position verdict).Orderly where
  slots := nodup_close h.slots q previous closed position verdict
  openings := by
    rw [openQuestions_close]
    exact h.openings
  pending q' := by
    rw [openQuestions_close]
    by_cases hq' : q' = q
    · subst hq'
      refine iff_of_false ?_ h.closed
      rintro ⟨assumed, hslot⟩
      rw [slot?_close_self] at hslot
      split at hslot
      · split at hslot <;> cases hslot
      · cases hslot
    · rw [IsPending, slot?_close_of_ne m previous closed position verdict hq']
      exact h.pending q' hq'

-- An answer that was there is kept, or a newer one takes its place.
theorem isDone_close (m : Memo) {previous : Option Slot} {verdict : Verdict} {height : Nat}
    (hprevious : previous = some (.done verdict height)) (closed : Opening) (position : Nat)
    (verdict' : Verdict) : (m.close q previous closed position verdict').IsDone q := by
  rw [IsDone, slot?_close_self, hprevious]
  split
  · exact ⟨verdict, height, rfl⟩
  · exact ⟨verdict', closed.height, rfl⟩

end Memo

-- From an orderly table the computation leads to one that continues it, and all tables that it
-- meets are orderly.
def Tidy {α : Type} (w : Watched α) : Prop :=
  ∀ seen m, (∀ s ∈ seen, s.Orderly) → m.Orderly →
    ∃ a seen' m', (w.run seen).run m = ((a, seen'), m') ∧ (∀ s ∈ seen', s.Orderly) ∧
      m'.Orderly ∧ m.Continues m'

section

variable {α β : Type}

theorem tidy_pure (a : α) : Tidy (pure a) :=
  fun seen m hseen hm => ⟨a, seen, m, rfl, hseen, hm, m.continues_refl⟩

theorem Tidy.bind {w : Watched α} {next : α → Watched β} (h : Tidy w)
    (hnext : ∀ a, Tidy (next a)) : Tidy (w >>= next) := by
  intro seen m hseen hm
  obtain ⟨a, seen', m', hrun, hseen', hm', hcontinues⟩ := h seen m hseen hm
  obtain ⟨b, seen'', m'', hrun', hseen'', hm'', hcontinues'⟩ := hnext a seen' m' hseen' hm'
  refine ⟨b, seen'', m'', ?_, hseen'', hm'', hcontinues.trans hcontinues'⟩
  rw [run_bind_of_watched hrun, hrun']

theorem tidy_remember : Tidy remember := by
  intro seen m hseen hm
  refine ⟨(), seen ++ [m], m, run_remember seen m, ?_, hm, m.continues_refl⟩
  intro s hs
  rcases List.mem_append.mp hs with hs | hs
  · exact hseen s hs
  · exact List.mem_singleton.mp hs ▸ hm

theorem tidy_notes {f : Memo → Memo} (hf : Memo.NotesOnly f) : Tidy (modifyThe Memo f) :=
  fun seen m hseen hm => ⟨⟨⟩, seen, f m, run_modify f seen m, hseen,
    hm.congr (hf.slots m) (hf.openings m), Memo.continues_of_eq (hf.slots m) (hf.openings m)⟩

theorem tidy_inquiry {answer : Question → Watched Verdict} (h : ∀ x, Tidy (answer x))
    (t : Inquiry α) : Tidy (t.run answer) := by
  induction t with
  | done a => exact tidy_pure a
  | ask x next ih => exact (h x).bind ih

end

section

variable {inspect : Watched Verdict} {q : Question}

-- One inspection: the question is opened, and closed again with what was noted on its opening.
theorem inspect_once (hinspect : Tidy inspect) (assumed : Verdict) {seen : List Memo} {m : Memo}
    (hseen : ∀ s ∈ seen, s.Orderly) (hm : m.OrderlyBut q) :
    ∃ verdict seen' m' closed below, (inspect.run seen).run (m.push q assumed) =
        ((verdict, seen'), m') ∧ (∀ s ∈ seen', s.Orderly) ∧ m'.openings = closed :: below ∧
      Memo.OrderlyBut q { m' with openings := below } ∧
      m.ContinuesBut q { m' with openings := below } := by
  obtain ⟨verdict, seen', m', hrun, hseen', hm', hcontinues⟩ :=
    hinspect seen _ hseen (hm.push assumed)
  have hopen : m'.openings.map (·.question) = q :: m.openQuestions := hcontinues.openings
  obtain ⟨closed, below, hopenings, hclosed, hbelow⟩ := List.map_eq_cons_iff.mp hopen
  refine ⟨verdict, seen', m', closed, below, hrun, hseen', hopenings,
    Memo.OrderlyBut.pop hm' hopenings hclosed, hbelow, fun q' hq' hdone => ?_⟩
  apply hcontinues.done q'
  rw [Memo.IsDone, Memo.slot?_push, if_neg hq']
  exact hdone

-- What follows an inspection: the answer is kept, or the question is inspected again.
theorem run_settle_watched {position retries : Nat} {assumed verdict : Verdict}
    {seen seen' : List Memo} {m m' : Memo} {closed : Opening} {below : List Opening}
    (hrun : (inspect.run seen).run (m.push q assumed) = ((verdict, seen'), m'))
    (hm' : m'.openings = closed :: below) :
    ((settle q position inspect retries assumed).run seen).run m =
      if closed.low = some position && !verdict.kind.isMutator then
        if assumed.merge verdict = assumed then
          (((closed, assumed.merge verdict), seen'), { m' with openings := below })
        else match retries with
          | 0 => (((closed, assumed.merge verdict), seen'), { m' with openings := below })
          | retries + 1 =>
            ((settle q position inspect retries (assumed.merge verdict)).run seen').run
              { m' with openings := below }
      else (((closed, verdict), seen'), { m' with openings := below }) := by
  have hpush := run_modify (·.push q assumed) seen m
  have hpop : ((modifyGetThe Memo (·.pop) : Watched Opening).run seen').run m' =
      ((closed, seen'), { m' with openings := below }) := by
    have hrun : ((modifyGetThe Memo (·.pop) : Watched Opening).run seen').run m' =
        ((m'.pop.1, seen'), m'.pop.2) := rfl
    rw [hrun, Memo.pop, hm']
  conv_lhs => rw [settle.eq_def]
  dsimp only
  refine (run_bind_of_watched hpush).trans ((run_bind_of_watched hrun).trans
    ((run_bind_of_watched hpop).trans ?_))
  split
  · split
    · rfl
    · cases retries <;> rfl
  · rfl

theorem settle_tidy (hinspect : Tidy inspect) (position retries : Nat) (assumed : Verdict)
    {seen : List Memo} {m : Memo} (hseen : ∀ s ∈ seen, s.Orderly) (hm : m.OrderlyBut q) :
    ∃ out seen' m', ((settle q position inspect retries assumed).run seen).run m =
        ((out, seen'), m') ∧ (∀ s ∈ seen', s.Orderly) ∧ m'.OrderlyBut q ∧ m.ContinuesBut q m' := by
  induction retries generalizing assumed seen m with
  | zero =>
    obtain ⟨verdict, seen', m', closed, below, hrun, hseen', hopenings, hm', hcontinues⟩ :=
      inspect_once hinspect assumed hseen hm
    rw [run_settle_watched hrun hopenings]
    split
    · split
      · exact ⟨_, seen', _, rfl, hseen', hm', hcontinues⟩
      · exact ⟨_, seen', _, rfl, hseen', hm', hcontinues⟩
    · exact ⟨_, seen', _, rfl, hseen', hm', hcontinues⟩
  | succ retries ih =>
    obtain ⟨verdict, seen', m', closed, below, hrun, hseen', hopenings, hm', hcontinues⟩ :=
      inspect_once hinspect assumed hseen hm
    rw [run_settle_watched hrun hopenings]
    split
    · split
      · exact ⟨_, seen', _, rfl, hseen', hm', hcontinues⟩
      · obtain ⟨out, seen'', m'', hrun', hseen'', hm'', hcontinues'⟩ :=
          ih (assumed.merge verdict) hseen' hm'
        exact ⟨out, seen'', m'', hrun', hseen'', hm'', hcontinues.trans hcontinues'⟩
    · exact ⟨_, seen', _, rfl, hseen', hm', hcontinues⟩

-- A question that is not open is inspected, and its answer is kept or given up.
theorem inspectAnew_tidy (hinspect : Tidy inspect) {seen : List Memo} {m : Memo}
    (hseen : ∀ s ∈ seen, s.Orderly) (hm : m.Orderly) (hq : ¬ m.IsPending q) :
    ∃ verdict seen' m',
      ((memoized.inspectAnew q inspect (m.slot? q)).run seen).run m = ((verdict, seen'), m') ∧
        (∀ s ∈ seen', s.Orderly) ∧ m'.Orderly ∧ m.Continues m' := by
  obtain ⟨⟨closed, verdict⟩, seen', m', hrun, hseen', hm', hcontinues⟩ :=
    settle_tidy hinspect m.openings.length 2 .inspector hseen (hm.but hq)
  have hclose : ((memoized.inspectAnew q inspect (m.slot? q)).run seen).run m =
      ((verdict, seen'), m'.close q (m.slot? q) closed m.openings.length verdict) := by
    have hget : ((getThe Memo : Watched Memo).run seen).run m = ((m, seen), m) := rfl
    refine (run_bind_of_watched hget).trans ((run_bind_of_watched hrun).trans ?_)
    rfl
  refine ⟨verdict, seen', _, hclose, hseen', hm'.close _ _ _ _, ?_, fun q' hdone => ?_⟩
  · rw [Memo.openQuestions_close]
    exact hcontinues.openings
  · by_cases hq' : q' = q
    · subst hq'
      obtain ⟨old, height, hslot⟩ := hdone
      exact Memo.isDone_close m' hslot _ _ _
    · rw [Memo.IsDone, Memo.slot?_close_of_ne _ _ _ _ _ hq']
      exact hcontinues.done q' hq' hdone

theorem tidy_memoized (hinspect : Tidy inspect) (q : Question) (budget : Nat) :
    Tidy (memoized q budget inspect) := by
  intro seen m hseen hm
  have hget : ((getThe Memo : Watched Memo).run seen).run m = ((m, seen), m) := rfl
  have hlookup : ((memoized q budget inspect).run seen).run m = _ := run_bind_of_watched hget
  rw [hlookup]
  dsimp only
  split
  · exact ((tidy_notes (Memo.notesOnly_recordPending q)).bind fun _ => tidy_pure _) seen m hseen hm
  · next verdict height hslot =>
    split
    · exact ((tidy_notes (Memo.notesOnly_recordHop height)).bind fun _ => tidy_pure _) seen m
        hseen hm
    · exact inspectAnew_tidy hinspect hseen hm (Memo.IsDone.not_isPending ⟨verdict, height, hslot⟩)
  · next hslot =>
    refine inspectAnew_tidy hinspect hseen hm ?_
    rintro ⟨assumed, hpending⟩
    rw [hslot] at hpending
    cases hpending

end

end TestFocus.Mutation

namespace TestFocus.Program

open Mutation

variable (p : Program)

theorem tidy_watchedAsk (budget : Nat) (x : Question) : Tidy (p.watchedAsk budget x) := by
  induction budget generalizing x with
  | zero =>
    rw [watchedAsk]
    exact (tidy_notes Memo.notesOnly_recordTruncation).bind fun _ => tidy_pure _
  | succ budget ih =>
    rw [watchedAsk]
    split
    · exact (tidy_notes (Memo.notesOnly_recordHop 0)).bind fun _ => tidy_pure _
    · exact tidy_remember.bind fun _ => tidy_memoized (tidy_inquiry ih _) _ _

theorem tidy_watchedQuery (q : Query) : Tidy (p.watchedQuery q) :=
  tidy_inquiry (p.tidy_watchedAsk _) _

theorem watchedAfter_orderly (queries : List Query) :
    (∀ s ∈ (p.watchedAfter queries).1, s.Orderly) ∧ (p.watchedAfter queries).2.Orderly ∧
      (p.watchedAfter queries).2.openQuestions = [] := by
  induction queries using List.reverseRecOn with
  | nil => exact ⟨by simp [watchedAfter], Memo.orderly_empty, rfl⟩
  | append_singleton queries q ih =>
    obtain ⟨hseen, hm, hopen⟩ := ih
    obtain ⟨verdict, seen, m, hrun, hseen', hm', hcontinues⟩ :=
      p.tidy_watchedQuery q _ _ hseen hm
    rw [watchedAfter_snoc, hrun]
    exact ⟨hseen', hm', hcontinues.openings.trans hopen⟩

theorem continues_memoAfter (queries more : List Query) :
    (p.memoAfter queries).Continues (p.memoAfter (queries ++ more)) := by
  induction more using List.reverseRecOn with
  | nil =>
    rw [List.append_nil]
    exact Memo.continues_refl _
  | append_singleton more q ih =>
    obtain ⟨hseen, hm, -⟩ := p.watchedAfter_orderly (queries ++ more)
    obtain ⟨verdict, seen, m, hrun, -, -, hcontinues⟩ := p.tidy_watchedQuery q _ _ hseen hm
    have hafter : p.memoAfter (queries ++ (more ++ [q])) = m := by
      rw [← List.append_assoc, ← watchedAfter_eq_memoAfter, watchedAfter_snoc, hrun]
    rw [hafter]
    rw [watchedAfter_eq_memoAfter] at hcontinues
    exact ih.trans hcontinues

-- Through any run of queries: a question is looked up in a table where what is pending is what is
-- open; a query leaves nothing open and nothing pending; and an answer that is kept stays, also
-- where the question is inspected again inside of a cycle or beyond the limit.
theorem memo_orderly (queries more : List Query) :
    (∀ q, Watches (p.watchedQuery q) (q.run p)) ∧
    (∀ m ∈ (p.watchedAfter queries).1, m.Orderly) ∧
    (p.memoAfter queries).openings = [] ∧
    (∀ q, ¬ (p.memoAfter queries).IsPending q) ∧
    (∀ q, (p.memoAfter queries).IsDone q → (p.memoAfter (queries ++ more)).IsDone q) ∧
    ∀ (m : Memo) (q : Question) (verdict : Verdict) (height : Nat) (closed : Opening)
      (position : Nat) (verdict' : Verdict),
      (m.close q (some (.done verdict height)) closed position verdict').slot? q =
        if Memo.isInsideCycle closed position || closed.truncated then some (.done verdict height)
        else some (.done verdict' closed.height) := by
  obtain ⟨hseen, hm, hopen⟩ := p.watchedAfter_orderly queries
  rw [watchedAfter_eq_memoAfter] at hm hopen
  refine ⟨p.watches_query, hseen, List.map_eq_nil_iff.mp hopen, fun q hpending => ?_,
    (p.continues_memoAfter queries more).done,
    fun m q verdict height closed position verdict' => ?_⟩
  · rw [hm.pending, hopen] at hpending
    cases hpending
  · rw [Memo.slot?_close_self]

end TestFocus.Program
