import TestFocus.Proofs.Mutation.Query

-- Runs of the classifier that are watched. Each time a question is about to be looked up in the
-- memo table, the table is remembered as it is then; this changes neither the answers nor the
-- table.

namespace TestFocus.Mutation

-- A computation over the memo table that remembers tables, in the order in which it met them.
abbrev Watched := StateT (List Memo) Classify

-- Remembers the table as it is.
def remember : Watched Unit := do
  let m ← getThe Memo
  modifyThe (List Memo) (· ++ [m])

-- The watched computation answers as the other one does, and leaves the same table.
def Watches {α : Type} (w : Watched α) (c : Classify α) : Prop :=
  ∀ seen m, ∃ seen', (w.run seen).run m = (((c.run m).1, seen'), (c.run m).2)

section

variable {α β : Type} {seen seen' : List Memo} {m m' : Memo} {a : α}

-- A watched sequence goes on with the outcome of its first part.
theorem run_bind_of_watched {w : Watched α} {next : α → Watched β}
    (h : (w.run seen).run m = ((a, seen'), m')) :
    ((w >>= next).run seen).run m = ((next a).run seen').run m' := by
  rw [StateT.run_bind, run_bind_of_run h]

theorem run_remember (seen : List Memo) (m : Memo) :
    (remember.run seen).run m = (((), seen ++ [m]), m) :=
  rfl

theorem run_modify (f : Memo → Memo) (seen : List Memo) (m : Memo) :
    ((modifyThe Memo f : Watched PUnit).run seen).run m = ((⟨⟩, seen), f m) :=
  rfl

theorem watches_pure (a : α) : Watches (pure a) (pure a) :=
  fun seen _ => ⟨seen, rfl⟩

theorem watches_modify (f : Memo → Memo) : Watches (modifyThe Memo f) (modify f) :=
  fun seen _ => ⟨seen, rfl⟩

theorem watches_modifyGet (f : Memo → α × Memo) :
    Watches (modifyGetThe Memo f) (modifyGet f) :=
  fun seen _ => ⟨seen, rfl⟩

theorem watches_get : Watches (getThe Memo) get :=
  fun seen _ => ⟨seen, rfl⟩

theorem Watches.bind {w : Watched α} {c : Classify α} {next : α → Watched β}
    {next' : α → Classify β} (h : Watches w c) (hnext : ∀ a, Watches (next a) (next' a)) :
    Watches (w >>= next) (c >>= next') := by
  intro seen m
  obtain ⟨seen', hrun⟩ := h seen m
  obtain ⟨seen'', hrun'⟩ := hnext (c.run m).1 seen' (c.run m).2
  refine ⟨seen'', ?_⟩
  rw [run_bind_of_watched hrun, hrun', StateT.run_bind]
  rfl

-- Remembering comes in front of a computation without a trace in its outcome.
theorem Watches.remember {w : Watched α} {c : Classify α} (h : Watches w c) :
    Watches (remember >>= fun _ => w) c := by
  intro seen m
  rw [run_bind_of_watched (run_remember seen m)]
  exact h _ m

theorem watches_inquiry {answer : Question → Watched Verdict}
    {answer' : Question → Classify Verdict} (h : ∀ x, Watches (answer x) (answer' x))
    (t : Inquiry α) : Watches (t.run answer) (t.run answer') := by
  induction t with
  | done a => exact watches_pure a
  | ask x next ih => exact (h x).bind ih

theorem watches_settle {inspect : Watched Verdict} {inspect' : Classify Verdict}
    (h : Watches inspect inspect') (q : Question) (position retries : Nat) (assumed : Verdict) :
    Watches (settle q position inspect retries assumed)
      (settle q position inspect' retries assumed) := by
  induction retries generalizing assumed with
  | zero =>
    unfold settle
    refine (watches_modify _).bind fun _ => h.bind fun verdict =>
      (watches_modifyGet _).bind fun closed => ?_
    dsimp only
    split
    · split
      · exact watches_pure _
      · exact watches_pure _
    · exact watches_pure _
  | succ retries ih =>
    unfold settle
    refine (watches_modify _).bind fun _ => h.bind fun verdict =>
      (watches_modifyGet _).bind fun closed => ?_
    dsimp only
    split
    · split
      · exact watches_pure _
      · exact ih _
    · exact watches_pure _

theorem watches_memoized {inspect : Watched Verdict} {inspect' : Classify Verdict}
    (h : Watches inspect inspect') (q : Question) (budget : Nat) :
    Watches (memoized q budget inspect) (memoized q budget inspect') := by
  have hanew (previous : Option Slot) : Watches (memoized.inspectAnew q inspect previous)
      (memoized.inspectAnew q inspect' previous) :=
    watches_get.bind fun m => (watches_settle h q m.openings.length 2 .inspector).bind
      fun _ => (watches_modify _).bind fun _ => watches_pure _
  refine watches_get.bind fun m => ?_
  dsimp only
  split
  · exact (watches_modify _).bind fun _ => watches_pure _
  · split
    · exact (watches_modify _).bind fun _ => watches_pure _
    · exact hanew _
  · exact hanew _

end

end TestFocus.Mutation

namespace TestFocus.Program

open Mutation

variable (p : Program)

-- Answering a question while the tables are remembered with which it, and every question below it,
-- is looked up.
def watchedAsk : Nat → Question → Watched Verdict
  | 0, _ => beyondLimit
  | budget + 1, x =>
    match p.body? x.function with
    | none => withoutBody
    | some body => do
      remember
      memoized (x.about body.name) (budget + 1) ((p.inspection body x).run (watchedAsk budget))

theorem watches_ask (budget : Nat) (x : Question) :
    Watches (p.watchedAsk budget x) (p.ask budget x) := by
  induction budget generalizing x with
  | zero =>
    rw [ask_zero, watchedAsk]
    exact (watches_modify _).bind fun _ => watches_pure _
  | succ budget ih =>
    rw [watchedAsk]
    split
    · next hbody =>
      rw [ask_of_target?_none budget (Option.map_eq_none_iff.mpr hbody)]
      exact (watches_modify _).bind fun _ => watches_pure _
    · next body hbody =>
      rw [ask_of_body? hbody]
      exact Watches.remember (watches_memoized (watches_inquiry ih _) _ _)

def watchedQuery (q : Query) : Watched Verdict :=
  (q.inquiry p).run (p.watchedAsk (p.budgetAt q.depth))

theorem watches_query (q : Query) : Watches (p.watchedQuery q) (q.run p) := by
  rw [q.run_eq p]
  exact watches_inquiry (p.watches_ask _) _

-- The tables that were met during some queries, and the one they leave.
def watchedAfter (queries : List Query) : List Memo × Memo :=
  queries.foldl (fun s q =>
    let out := ((p.watchedQuery q).run s.1).run s.2
    (out.1.2, out.2)) ([], .empty)

theorem watchedAfter_snoc (queries : List Query) (q : Query) :
    p.watchedAfter (queries ++ [q]) =
      let out := ((p.watchedQuery q).run (p.watchedAfter queries).1).run (p.watchedAfter queries).2
      (out.1.2, out.2) := by
  rw [watchedAfter, List.foldl_append]
  rfl

theorem watchedAfter_eq_memoAfter (queries : List Query) :
    (p.watchedAfter queries).2 = p.memoAfter queries := by
  induction queries using List.reverseRecOn with
  | nil => rfl
  | append_singleton queries q ih =>
    obtain ⟨seen, hrun⟩ := p.watches_query q (p.watchedAfter queries).1 (p.watchedAfter queries).2
    rw [watchedAfter_snoc, hrun, ih]
    simp [memoAfter]

end TestFocus.Program
